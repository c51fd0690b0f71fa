import Z80Debugger.Proofs.Breakpoint.Marker
import Z80Debugger.Proofs.Breakpoint.RoundTrip
import Z80Debugger.Proofs.Breakpoint.Spelling
import Z80Debugger.Proofs.Memory.Paging

/-!
# Breakpoints by page and offset

A page and an offset with a colon between them give the address that the banks give where they show
the page.  `paging_agrees_with_text` states this for every way in which the banks can be mapped, and
that a breakpoint on running the instruction there, put into words in any order, stops exactly where
the banks show the place now.
-/

set_option autoImplicit false

namespace Z80Debugger

variable {l : Layout} {page offset : UInt32} {pageDigits offsetDigits : List Char}

/-- Digits in front of the colon and behind it are read whatever labels there are. -/
theorem Address.parsePaged?_digits (hpage : Text.Hex.word? pageDigits = some page)
    (hoffset : Text.Hex.word? offsetDigits = some offset) (labels : Labels) :
    parsePaged? l labels (pageDigits ++ ':' :: offsetDigits) =
      some (l.pageAddress page offset) := by
  have hsplit := Text.splitFirst?_append_cons (Text.Hex.not_mem_of_word? hpage (c := ':') rfl)
    offsetDigits
  have hfirst := parse?_of_forall_digit (Text.Hex.digits_of_word? hpage).2 hpage labels
  have hsecond := parse?_of_forall_digit (Text.Hex.digits_of_word? hoffset).2 hoffset labels
  simp [parsePaged?, hsplit, hfirst, hsecond]

namespace Breakpoint

open Text (fold)

/-- Digits in front of a colon are taken for an address with all that follows. -/
theorem ofText_paged (hpage : Text.Hex.word? pageDigits = some page) (offsetDigits : List Char) :
    Word.ofText (pageDigits ++ ':' :: offsetDigits) = .address := by
  rw [← Text.Hex.word?_fold] at hpage
  obtain ⟨hne, hdigits⟩ := Text.Hex.digits_of_word? hpage
  have hfold : fold (pageDigits ++ ':' :: offsetDigits) =
      fold pageDigits ++ ':' :: fold offsetDigits := by
    rw [fold, List.map_append]
    rfl
  have hcolon : ':' ∈ fold pageDigits ++ ':' :: fold offsetDigits := by simp
  have hspace : spaceWord? (fold pageDigits ++ ':' :: fold offsetDigits) = none := by
    have hnames : ∀ v ∈ spaceNames, ':' ∉ v := by decide
    exact spaceWord?_eq_none fun hname => hnames _ hname hcolon
  have hmask : maskWord? (fold pageDigits ++ ':' :: fold offsetDigits) = none := by
    apply maskWord?_eq_none
    rw [List.head?_append_of_ne_nil _ hne]
    intro hm
    exact absurd (hdigits 'm' (List.mem_of_head? hm)) (by decide)
  have hdisabled : fold pageDigits ++ ':' :: fold offsetDigits ≠ "(disabled)".toList :=
    fun heq => absurd (heq ▸ hcolon) (by decide)
  have hmodes := modesWord?_eq_none (c := ':') rfl hcolon
  simp only [Word.ofText, hfold, hspace, hmask, if_neg hdisabled, hmodes]

/-- The words, in any order, ask to stop at a place of physical memory where it runs.  Space and
modes may be left out where they were used last. -/
structure AsksToStopAt (d : Defaults) (place : List Char) (ws : List (List Char)) : Prop where
  mem : place ∈ ws
  known : ∀ w ∈ ws, w = place ∨ Word.ofText w = .space .physical ∨
    Word.ofText w = .modes (.only .exec)
  space : d.space = .physical ∨ ∃ w ∈ ws, Word.ofText w = .space .physical
  modes : d.modes = .only .exec ∨ ∃ w ∈ ws, Word.ofText w = .modes (.only .exec)

namespace AsksToStopAt

variable {d : Defaults} {place : List Char} {ws : List (List Char)}

/-- Every word is an address, the physical space or the mode of execution. -/
theorem ofText_cases (h : AsksToStopAt d place ws) (hplace : Word.ofText place = .address)
    {w : List Char} (hw : w ∈ ws) :
    Word.ofText w = .address ∨ Word.ofText w = .space .physical ∨
      Word.ofText w = .modes (.only .exec) := by
  obtain rfl | hw | hw := h.known w hw
  · exact Or.inl hplace
  · exact Or.inr (Or.inl hw)
  · exact Or.inr (Or.inr hw)

/-- None of the words gives a mask or disables. -/
theorem wordsOf_eq_nil (h : AsksToStopAt d place ws) (hplace : Word.ofText place = .address)
    {kind : WordKind} (hkind : kind = .mask ∨ kind = .disabled) : wordsOf kind ws = [] := by
  rw [wordsOf, List.filter_eq_nil_iff]
  intro w hw
  obtain hw | hw | hw := h.ofText_cases hplace hw
  all_goals
    rw [hw]
    obtain rfl | rfl := hkind
    all_goals exact of_decide_eq_false rfl

/-- The place is the first word that is read as an address. -/
theorem head?_wordsOf (h : AsksToStopAt d place ws) (hplace : Word.ofText place = .address) :
    (wordsOf .address ws).head? = some place := by
  have hmem : place ∈ wordsOf .address ws :=
    List.mem_filter.mpr ⟨h.mem, by simp [hplace, Word.kind]⟩
  have hfirst := List.head?_eq_some_head (List.ne_nil_of_mem hmem)
  obtain ⟨hws, hkind⟩ := List.mem_filter.mp (List.mem_of_head? hfirst)
  rw [hfirst]
  obtain heq | hw | hw := h.known _ hws
  · rw [heq]
  · simp [hw, Word.kind] at hkind
  · simp [hw, Word.kind] at hkind

/-- What is found first is the value if nothing but the value can be found, and it is found or is
what is taken otherwise. -/
theorem getD_map_findSome? {α β γ : Type} {f : α → Option β} {g : β → γ} {as : List α} {c last : γ}
    (hall : ∀ a ∈ as, ∀ b, f a = some b → g b = c)
    (hlast : last = c ∨ ∃ a ∈ as, (f a).isSome = true) :
    ((as.findSome? f).map g).getD last = c := by
  cases hfound : as.findSome? f with
  | some b =>
    obtain ⟨a, ha, hb⟩ := List.exists_of_findSome?_eq_some hfound
    exact hall a ha b hb
  | none =>
    obtain hlast | ⟨a, ha, hsome⟩ := hlast
    · exact hlast
    · rw [List.findSome?_eq_none_iff.mp hfound a ha] at hsome
      cases hsome

/-- What the words say together. -/
theorem addAll (h : AsksToStopAt d place ws) (hplace : Word.ofText place = .address)
    (labels : Labels) :
    ∃ f, Fields.addAll labels {} ws = .ok f ∧ f.space.getD d.space = .physical ∧
      (f.modes.map (·.1)).getD d.modes = .only .exec ∧ f.mask = none ∧
      f.address = some place ∧ f.enabled = true := by
  have hspace : (((wordsOf .space ws).findSome? Fields.spaceOf?).map id).getD d.space =
      .physical := by
    apply getD_map_findSome?
    · intro w hw s hs
      rw [Fields.spaceOf?] at hs
      obtain hw | hw | hw := h.ofText_cases hplace (List.mem_filter.mp hw).1
      all_goals
        rw [hw] at hs
        cases hs
      rfl
    · refine h.space.imp_right ?_
      rintro ⟨w, hw, hword⟩
      exact ⟨w, List.mem_filter.mpr ⟨hw, by simp [hword, Word.kind]⟩,
        by simp [Fields.spaceOf?, hword]⟩
  have hmodes : (((wordsOf .modes ws).findSome? Fields.modesOf?).map (·.1)).getD d.modes =
      .only .exec := by
    apply getD_map_findSome?
    · intro w hw named hnamed
      rw [Fields.modesOf?] at hnamed
      obtain hw | hw | hw := h.ofText_cases hplace (List.mem_filter.mp hw).1
      all_goals
        rw [hw] at hnamed
        cases hnamed
      rfl
    · refine h.modes.imp_right ?_
      rintro ⟨w, hw, hword⟩
      exact ⟨w, List.mem_filter.mpr ⟨hw, by simp [hword, Word.kind]⟩,
        by simp [Fields.modesOf?, hword]⟩
  rw [Fields.addAll_eq, h.wordsOf_eq_nil hplace (Or.inl rfl), h.wordsOf_eq_nil hplace (Or.inr rfl),
    h.head?_wordsOf hplace]
  rw [Option.map_id] at hspace
  exact ⟨_, rfl, hspace, hmodes, rfl, rfl, rfl⟩

/-- Where page and offset are digits, the breakpoint is the one at the place in the page. -/
theorem parse {context : Context} (hlayout : context.layout = some l)
    (hpage : Text.Hex.word? pageDigits = some page)
    (hoffset : Text.Hex.word? offsetDigits = some offset) {text : String}
    (h : AsksToStopAt d (pageDigits ++ ':' :: offsetDigits) (Text.words text.toList)) :
    Breakpoint.parse d context text = .ok (execAt .physical (l.pageAddress page offset)) := by
  have hplace := ofText_paged hpage offsetDigits
  have hcanonical := canonical_execAt (Or.inr rfl : Space.physical = .logical ∨ _)
    (l.pageAddress page offset)
  obtain ⟨f, hf, hspace, hmodes, hmask, haddress, henabled⟩ := h.addAll hplace context.labels
  have hhyphen : '-' ∉ pageDigits ++ ':' :: offsetDigits := by
    rw [List.mem_append, List.mem_cons]
    rintro (hmem | heq | hmem)
    · exact Text.Hex.not_mem_of_word? hpage rfl hmem
    · cases heq
    · exact Text.Hex.not_mem_of_word? hoffset rfl hmem
  have hrange : rangeIn .physical context (pageDigits ++ ':' :: offsetDigits) =
      .ok (l.pageAddress page offset, l.pageAddress page offset) := by
    have hends : rangeEnds (pageDigits ++ ':' :: offsetDigits) =
        (pageDigits ++ ':' :: offsetDigits, none) := by
      rw [rangeEnds, Text.splitFirst?_eq_none hhyphen]
    have hread := Address.parsePaged?_digits (l := l) hpage hoffset context.labels
    simp [rangeIn, hends, addressIn?, hlayout, hread]
  have hnonempty : (Text.words text.toList).isEmpty = false := by
    rw [List.isEmpty_eq_false_iff]
    exact List.ne_nil_of_mem h.mem
  have hbuilt : ((ofRange .physical (.only .exec) (l.pageAddress page offset)
      (l.pageAddress page offset)).withMask (maskIn .physical none)).withEnabled true =
        execAt .physical (l.pageAddress page offset) := by
    simp only [ofRange, execAt, withMask, withEnabled, maskIn, UInt32.and_assoc, UInt32.and_self]
  have hread : ofFields d context f = .ok (execAt .physical (l.pageAddress page offset)) := by
    rw [ofFields_eq_ok_iff, hspace, hmask, henabled]
    exact ⟨_, _, _, _, hcanonical.modesIn_modes hmodes, haddress, hrange, hbuilt,
      hcanonical.ordered⟩
  rw [Breakpoint.parse, parseWords, hnonempty, hf]
  exact hread

end AsksToStopAt

/-- A breakpoint at a physical address covers that address only. -/
theorem covers_execAt_physical_iff {address value : UInt32} :
    (execAt .physical address).covers value = true ↔ value = address := by
  have hcut (a : UInt32) : a &&& Space.physical.defaultMask = a := UInt32.and_neg_one
  simp only [covers, inRange, execAt, ofRange, hcut, Bool.and_eq_true, decide_eq_true_eq]
  constructor
  · rintro ⟨hfirst, hlast⟩
    exact UInt32.le_antisymm hlast hfirst
  · rintro rfl
    exact ⟨UInt32.le_refl _, UInt32.le_refl _⟩

/-- A breakpoint on running the instruction at a physical address has a trap, which a fetch hits
exactly at the logical addresses that show the address. -/
theorem exists_trap_execAt_physical (address : UInt32) :
    ∃ t, (execAt .physical address).trap? .exec = some t ∧
      ∀ (c : Cpu) (pc : UInt16), t.isHitBy c (.fetch pc) = true ↔ c.physical pc = address := by
  obtain ⟨t, ht⟩ : ∃ t, (execAt .physical address).trap? .exec = some t := ⟨_, rfl⟩
  refine ⟨t, ht, fun c pc => ?_⟩
  rw [isHitBy_fetch_iff ht]
  exact (and_iff_right ⟨rfl, Or.inr rfl⟩).trans covers_execAt_physical_iff

end Breakpoint

/-- Let ROM and RAM be whole pages, and let the banks be mapped in any way.  A logical address shows
the place in its bank's page, and page and place mean the same as text, whatever labels there are.
The place lies in memory, and in ROM exactly if the page is a ROM page; every sum and difference on
the way to it is exact.  A text that asks to stop where the instruction at a page and an offset runs
gives a breakpoint whose trap is hit at exactly those logical addresses that show this place of this
page now. -/
theorem paging_agrees_with_text (hl : l.WholePages) {start : Cpu} (hstart : start.layout = l)
    {maps : List (Nat × UInt32)} {pages : Fin 4 → UInt32}
    (hpages : ∀ bank, start.Assigned maps bank (pages bank)) :
    let c := start.mapPages maps
    l.memorySize.toNat = l.romSize.toNat + l.ramSize.toNat ∧
    (∀ address : UInt16,
      let page := pages (Cpu.bankOf address)
      let place := (address % 0x4000).toUInt32
      c.physical address = l.pageAddress page place ∧
      (∀ labels pageDigits offsetDigits, Text.Hex.word? pageDigits = some page →
        Text.Hex.word? offsetDigits = some place →
        Address.parsePaged? l labels (pageDigits ++ ':' :: offsetDigits) =
          some (c.physical address)) ∧
      c.physical address < l.memorySize ∧
      (c.physical address < l.romSize ↔ page < l.ramPageBase) ∧
      l.Exact page 0 ∧ l.Exact page place ∧
      (c.physical address).toNat =
        (c.bankStart (Cpu.bankOf address)).toNat + (address % 0x4000).toNat) ∧
    ∀ d context text page offset pageDigits offsetDigits, context.layout = some l →
      Text.Hex.word? pageDigits = some page → Text.Hex.word? offsetDigits = some offset →
      Breakpoint.AsksToStopAt d (pageDigits ++ ':' :: offsetDigits) (Text.words text.toList) →
      let b := Breakpoint.execAt .physical (l.pageAddress page offset)
      Breakpoint.parse d context text = .ok b ∧
        ∃ t, b.trap? .exec = some t ∧ ∀ address, t.isHitBy c (.fetch address) = true ↔
          l.SamePage (pages (Cpu.bankOf address)) page ∧
            address.toNat % 0x4000 = offset.toNat % 0x4000 := by
  intro c
  have hlayout : c.layout = l := (Cpu.layout_mapPages start maps).trans hstart
  have hphysical : ∀ address, c.physical address =
      l.pageAddress (pages (Cpu.bankOf address)) (address % 0x4000).toUInt32 ∧
      (c.physical address).toNat =
        (c.bankStart (Cpu.bankOf address)).toNat + address.toNat % 0x4000 := by
    intro address
    rw [← hlayout] at hl ⊢
    exact Cpu.physical_of_shows hl (hpages _).shows
  refine ⟨l.toNat_memorySize, ?_, ?_⟩
  · intro address page place
    obtain ⟨hplace, hsum⟩ := hphysical address
    refine ⟨hplace, ?_, ?_, ?_, l.exact_pageAddress page 0, l.exact_pageAddress page place, hsum⟩
    · intro labels pageDigits offsetDigits hpage hoffset
      rw [hplace]
      exact Address.parsePaged?_digits hpage hoffset labels
    · rw [hplace]
      exact hl.pageAddress_lt_memorySize page place
    · rw [hplace]
      exact hl.pageAddress_lt_romSize_iff page place
  · intro d context text page offset pageDigits offsetDigits hcontext hpage hoffset hasks
    obtain ⟨t, ht, hhit⟩ := Breakpoint.exists_trap_execAt_physical (l.pageAddress page offset)
    refine ⟨hasks.parse hcontext hpage hoffset, t, ht, fun address => ?_⟩
    rw [hhit, (hphysical address).1, hl.pageAddress_eq_iff, Cpu.toNat_offset, Nat.mod_mod]

/-- Calls that leave two banks as they start.  The page in bank 1 is the first one again, since ROM
has only 20 (hexadecimal) pages, and the one in bank 2 has a start of more than 32 bits. -/
def wrappingMaps : List (Nat × UInt32) := [(1, 0x20), (6, 0x41), (2, 0xFFFFFFFF)]

def wrappingPages : Fin 4 → UInt32
  | 0 => 0
  | 1 => 0x20
  | 2 => 0xFFFFFFFF
  | 3 => 0x40

/-- The first ROM page shows in two banks, and a breakpoint in it, which is put down by another
number of the page and an offset beyond its end, stops in both of them. -/
theorem paging_agrees_with_text_wrapping :
    let c := Cpu.standard.mapPages wrappingMaps
    c.physical 0x5234 = 0x1234 ∧ c.physical 0x8001 = 0x84001 ∧
      Address.parsePaged? .standard Labels.none "fffffFFF:0001".toList = some 0x84001 ∧
      ∃ t, t.isHitBy c (.fetch 0x1234) = true ∧ t.isHitBy c (.fetch 0x5234) = true ∧
        t.isHitBy c (.fetch 0x9234) = false ∧
        ∃ b, b.trap? .exec = some t ∧
          Breakpoint.parse {} { layout := some .standard } "x 20:D234 Phys" = .ok b := by
  intro c
  have hwhole : Layout.standard.WholePages :=
    ⟨by decide, by decide, by decide, by decide⟩
  have hpages : ∀ bank, Cpu.standard.Assigned wrappingMaps bank (wrappingPages bank) := by
    have hshown : ∀ bank, Cpu.standard.Shows bank (Layout.standard.startPages bank) :=
      (Cpu.shows_ofLayout? rfl).2
    intro bank
    match bank with
    | 0 => exact Or.inr ⟨rfl, hshown 0⟩
    | 1 => exact Or.inl rfl
    | 2 => exact Or.inl rfl
    | 3 => exact Or.inr ⟨rfl, hshown 3⟩
  obtain ⟨-, hplaces, htexts⟩ := paging_agrees_with_text hwhole rfl hpages
  have hasks : Breakpoint.AsksToStopAt {} ("20".toList ++ ':' :: "D234".toList)
      (Text.words "x 20:D234 Phys".toList) := by
    have hwords : Text.words "x 20:D234 Phys".toList =
        ["x".toList, "20:D234".toList, "Phys".toList] := rfl
    rw [hwords]
    refine ⟨by decide, ?_, Or.inr ⟨"Phys".toList, by decide, rfl⟩, Or.inl rfl⟩
    intro w hw
    simp only [List.mem_cons, List.not_mem_nil, or_false] at hw
    obtain rfl | rfl | rfl := hw
    · exact Or.inr (Or.inr rfl)
    · exact Or.inl rfl
    · exact Or.inr (Or.inl rfl)
  obtain ⟨hparse, t, ht, hhit⟩ :=
    htexts {} { layout := some .standard } "x 20:D234 Phys" 0x20 0xD234 "20".toList "D234".toList
      rfl rfl rfl hasks
  have hphysical := (hplaces 0x8001).1
  have hread := (hplaces 0x8001).2.1 Labels.none "fffffFFF".toList "0001".toList rfl rfl
  have haddress : c.physical 0x8001 = 0x84001 := hphysical.trans (by decide +kernel)
  refine ⟨(hplaces 0x5234).1.trans (by decide +kernel), haddress, hread.trans (by rw [haddress]),
    t, (hhit 0x1234).mpr (by decide +kernel), (hhit 0x5234).mpr (by decide +kernel), ?_, _, ht,
    hparse⟩
  rw [← Bool.not_eq_true, hhit]
  decide +kernel

end Z80Debugger
