import Z80Debugger.Proofs.Breakpoint.Canonical
import Z80Debugger.Proofs.Breakpoint.Keywords

/-!
# A breakpoint's text gives the breakpoint back

The words of a breakpoint's text are told apart by what they are made of: a range has only digits
and a hyphen, so it is taken for no other kind of word, and digits are a number before they are a
label.  `parse_text` follows for every breakpoint that was read from some text, and the defaults,
labels and layout of the second reading do not matter.  What the defaults supply may be left out:
`parse_without_space_or_modes`.
-/

set_option autoImplicit false

namespace Z80Debugger.Breakpoint

open Text (IsWord fold)
open Text.Hex (digit? padded)

/-- The characters of a range. -/
def isRangeCharacter (c : Char) : Bool := (digit? c).isSome || c == '-'

/-- No range names a space. -/
theorem spaceWord?_of_range {w : List Char} (h : ∀ c ∈ w, isRangeCharacter c = true) :
    spaceWord? w = none :=
  spaceWord?_eq_none (not_mem_of_forall_all h (by decide))

/-- No range gives a mask. -/
theorem maskWord?_of_range {w : List Char} (h : ∀ c ∈ w, isRangeCharacter c = true) :
    maskWord? w = none := by
  apply maskWord?_eq_none
  intro hm
  exact absurd (h 'm' (List.mem_of_head? hm)) (by decide)

/-- Digits name no mode. -/
theorem modePart?_of_digits {ds : List Char} (hds : ∀ c ∈ ds, (digit? c).isSome = true) :
    modePart? ds = none := by
  have hother (c : Char) (hc : digit? c = none) : c ∉ ds := by
    intro hmem
    have hsome := hds c hmem
    rw [hc] at hsome
    cases hsome
  cases ds with
  | nil => rfl
  | cons d ds =>
    have hr : d ≠ 'r' := fun h => hother 'r' rfl (by simp [h])
    have hw : d ≠ 'w' := fun h => hother 'w' rfl (by simp [h])
    have hx : d ≠ 'x' := fun h => hother 'x' rfl (by simp [h])
    have hexec : ∀ tail, ds ≠ 'x' :: tail := fun tail h => hother 'x' rfl (by simp [h])
    simp [modePart?, modeLetters?, modeLetter?, hr, hw, hx, hexec]

/-- A word names no modes if its first part does not. -/
theorem modeParts?_cons_eq_none {part : List Char} (h : modePart? part = none)
    (parts : List (List Char)) : modeParts? (part :: parts) = none := by
  rw [modeParts?, h]

/-- A digit does not separate modes. -/
theorem not_isModeSeparator_of_digit {c : Char} (h : (digit? c).isSome = true) :
    isModeSeparator c = false := by
  rw [Bool.eq_false_iff]
  intro hc
  simp only [isModeSeparator, Bool.or_eq_true, beq_iff_eq] at hc
  obtain (((rfl | rfl) | rfl) | rfl) | rfl := hc
  all_goals exact absurd h (by decide)

/-- Digits alone, or in front of a hyphen, make a word that names no modes. -/
theorem modesWord?_of_digits {ds : List Char} (hds : ∀ c ∈ ds, (digit? c).isSome = true) :
    modesWord? ds = none ∧ ∀ es, modesWord? (ds ++ '-' :: es) = none := by
  have hnone := modeParts?_cons_eq_none (modePart?_of_digits hds)
  have hkept : ∀ c ∈ ds, isModeSeparator c = false :=
    fun c hc => not_isModeSeparator_of_digit (hds c hc)
  constructor
  · rw [modesWord?, Text.pieces_of_forall_not hkept]
    exact hnone []
  · intro es
    rw [modesWord?, Text.pieces_append_cons hkept rfl]
    exact hnone _

/-- A word whose folded text consists of digits, or of digits on both sides of a hyphen, is taken
for an address. -/
theorem ofText_eq_address {w ds : List Char} (hds : ∀ c ∈ ds, (digit? c).isSome = true)
    (hw : fold w = ds ∨ ∃ es, (∀ c ∈ es, (digit? c).isSome = true) ∧ fold w = ds ++ '-' :: es) :
    Word.ofText w = .address := by
  have hrange : ∀ c ∈ fold w, isRangeCharacter c = true := by
    intro c hc
    rw [isRangeCharacter, Bool.or_eq_true, beq_iff_eq]
    rcases hw with hw | ⟨es, hes, hw⟩
    · rw [hw] at hc
      exact Or.inl (hds c hc)
    · rw [hw, List.mem_append, List.mem_cons] at hc
      rcases hc with hc | rfl | hc
      · exact Or.inl (hds c hc)
      · exact Or.inr rfl
      · exact Or.inl (hes c hc)
  have hdisabled : fold w ≠ "(disabled)".toList := by
    intro heq
    have hparen : '(' ∈ fold w := by
      rw [heq]
      decide
    exact absurd (hrange '(' hparen) (by decide)
  have hmodes : modesWord? (fold w) = none := by
    rcases hw with hw | ⟨es, -, hw⟩
    · rw [hw]
      exact (modesWord?_of_digits hds).1
    · rw [hw]
      exact (modesWord?_of_digits hds).2 es
  rw [Word.ofText, spaceWord?_of_range hrange]
  simp only [maskWord?_of_range hrange, if_neg hdisabled, hmodes]

/-- The label of a space is read as that space. -/
theorem ofText_label (s : Space) : Word.ofText s.label.toList = .space s := by
  cases s <;> rfl

/-- The letters of some modes are read as those modes. -/
theorem ofText_modeLetters {m : Modes} (h : m.isEmpty = false) :
    Word.ofText (modeLetters m) = .modes m := by
  obtain ⟨exec, write, read⟩ := m
  cases exec <;> cases write <;> cases read <;> first | rfl | cases h

/-- What follows the keyword for a mask is read as the mask. -/
theorem ofText_mask (ds : List Char) :
    Word.ofText ("mask=".toList ++ ds) = .mask (fold ds) := by
  have hfold : fold ("mask=".toList ++ ds) = "mask=".toList ++ fold ds := by
    rw [fold, List.map_append]
    rfl
  have hspace : spaceWord? ("mask=".toList ++ fold ds) = none := by
    simp [spaceWord?]
  have hmask : maskWord? ("mask=".toList ++ fold ds) = some (fold ds) := by
    rw [maskWord?, Text.after?_append, Option.some_or]
  simp only [Word.ofText, hfold, hspace, hmask]

/-- The text of a range is read as an address. -/
theorem ofText_rangeText (b : Breakpoint) : Word.ofText b.rangeText = .address := by
  have hdigits (n : Nat) : ∀ c ∈ fold (padded b.rangeWidth n), (digit? c).isSome = true :=
    Text.Hex.isSome_digit?_of_mem_fold fun _ hc => Text.Hex.isSome_digit?_of_mem_padded hc
  apply ofText_eq_address (hdigits b.first.toNat)
  by_cases h : b.first = b.last
  · left
    rw [rangeText, if_pos h]
  · right
    refine ⟨fold (padded b.rangeWidth b.last.toNat), hdigits _, ?_⟩
    rw [rangeText, if_neg h, fold, List.map_append]
    rfl

/-- Padded digits are a word. -/
theorem isWord_padded (width n : Nat) : IsWord (padded width n) where
  ne_nil := by
    simp [padded, Text.Hex.digits_ne_nil]
  not_blank c hc := (Address.of_isSome_digit? (Text.Hex.isSome_digit?_of_mem_padded hc)).2.2.2.2.2

/-- Two words and a character that is no blank between them are a word. -/
theorem isWord_append_cons {v w : List Char} (hv : IsWord v) (hw : IsWord w) {c : Char}
    (hc : Text.isBlank c = false) :
    IsWord (v ++ c :: w) where
  ne_nil := by
    simp
  not_blank d hd := by
    rcases List.mem_append.mp hd with hd | hd
    · exact hv.not_blank d hd
    · rcases List.mem_cons.mp hd with rfl | hd
      · exact hc
      · exact hw.not_blank d hd

/-- A breakpoint's text is made of words if the breakpoint has a mode. -/
theorem isWord_of_mem_textWords {b : Breakpoint} (h : b.modes.isEmpty = false) :
    ∀ w ∈ b.textWords, IsWord w := by
  have hlabel : IsWord b.space.label.toList := by
    cases b.space <;> exact .of_all rfl rfl
  have hmodes : IsWord (modeLetters b.modes) := by
    generalize b.modes = m at h
    obtain ⟨exec, write, read⟩ := m
    cases exec <;> cases write <;> cases read <;> first | exact .of_all rfl rfl | cases h
  have hrange : IsWord b.rangeText := by
    by_cases heq : b.first = b.last
    · rw [rangeText, if_pos heq]
      exact isWord_padded _ _
    · rw [rangeText, if_neg heq]
      exact isWord_append_cons (isWord_padded _ _) (isWord_padded _ _) rfl
  have hmask : IsWord ("mask=".toList ++ padded 1 b.mask.toNat) :=
    isWord_append_cons (v := "mask".toList) (.of_all rfl rfl) (isWord_padded _ _) rfl
  have hdisabled : IsWord "(disabled)".toList := .of_all rfl rfl
  intro w hw
  simp only [textWords, List.mem_append, List.mem_cons, List.not_mem_nil, or_false] at hw
  rcases hw with ((rfl | rfl | rfl) | hw) | hw
  · exact hlabel
  · exact hmodes
  · exact hrange
  · split at hw
    · cases hw
    · rw [List.mem_singleton.mp hw]
      exact hmask
  · split at hw
    · cases hw
    · rw [List.mem_singleton.mp hw]
      exact hdisabled

/-- The words of a breakpoint's text, with its space and its modes or without them. -/
def shownWords (b : Breakpoint) (space modes : Bool) : List (List Char) :=
  (if space then [b.space.label.toList] else []) ++
    (if modes then [modeLetters b.modes] else []) ++ b.textWords.drop 2

/-- What is shown of a breakpoint is a part of its whole text. -/
theorem shownWords_sublist (b : Breakpoint) (space modes : Bool) :
    (b.shownWords space modes).Sublist b.textWords := by
  have hparts : b.textWords = b.space.label.toList :: modeLetters b.modes :: b.textWords.drop 2 :=
    rfl
  cases space with
  | true =>
    cases modes with
    | true => exact List.Sublist.refl _
    | false => exact (List.sublist_cons_self _ (b.textWords.drop 2)).cons_cons _
  | false =>
    cases modes with
    | true => exact List.sublist_cons_self _ (modeLetters b.modes :: b.textWords.drop 2)
    | false => exact List.drop_sublist 2 b.textWords

/-- What these words say. -/
def shownFields (b : Breakpoint) (space modes : Bool) : Fields where
  space := if space then some b.space else none
  modes := if modes then some (b.modes, modeLetters b.modes) else none
  mask := if b.mask = b.space.defaultMask then none else some b.mask
  address := some b.rangeText
  enabled := b.enabled

/-- The words of a breakpoint's text are understood, whatever labels there are, and each on its
own: space and modes may be among them or not. -/
theorem addAll_shownWords {b : Breakpoint} (h : b.modes.isEmpty = false) (labels : Labels)
    (space modes : Bool) :
    Fields.addAll labels {} (b.shownWords space modes) = .ok (b.shownFields space modes) := by
  have hmask := ofText_mask (padded 1 b.mask.toNat)
  have hvalue := Address.parse?_fold_padded labels 1 b.mask
  have hdisabled : Word.ofText "(disabled)".toList = .disabled := rfl
  by_cases heq : b.mask = b.space.defaultMask
  all_goals
    cases space <;> cases modes <;> cases henabled : b.enabled
    all_goals
      simp only [shownWords, textWords, shownFields, heq, henabled, if_true, if_false,
        Bool.false_eq_true, List.append_nil, List.cons_append, List.nil_append, List.drop_succ_cons,
        List.drop_zero, Fields.addAll, Fields.add,
        ofText_label, ofText_modeLetters h, ofText_rangeText, hmask, hvalue, hdisabled,
        Option.none_or]

/-- A written value is read back in every space, whatever labels and layout there are. -/
theorem addressIn?_padded (space : Space) (context : Context) (width : Nat) (value : UInt32) :
    addressIn? space context (padded width value.toNat) = some value := by
  have hcolon : ':' ∉ padded width value.toNat := by
    intro hmem
    exact absurd (Text.Hex.isSome_digit?_of_mem_padded hmem) (by decide)
  rw [addressIn?, if_neg (fun h => hcolon h.2), Address.parse?_padded]

/-- A written range is read back in every space, whatever labels and layout there are. -/
theorem rangeIn_rangeText (b : Breakpoint) (space : Space) (context : Context) :
    rangeIn space context b.rangeText = .ok (b.first, b.last) := by
  have hhyphen (n : Nat) : '-' ∉ padded b.rangeWidth n := by
    intro hmem
    exact absurd (Text.Hex.isSome_digit?_of_mem_padded hmem) (by decide)
  have hfirst := addressIn?_padded space context b.rangeWidth b.first
  have hlast := addressIn?_padded space context b.rangeWidth b.last
  by_cases heq : b.first = b.last
  · have hends : rangeEnds b.rangeText = (padded b.rangeWidth b.first.toNat, none) := by
      rw [rangeText, if_pos heq, rangeEnds, Text.splitFirst?_eq_none (hhyphen _)]
    simp only [rangeIn, hends, hfirst, ← heq]
  · have hends : rangeEnds b.rangeText =
        (padded b.rangeWidth b.first.toNat, some (padded b.rangeWidth b.last.toNat)) := by
      have hempty := (isWord_padded b.rangeWidth b.last.toNat).ne_nil
      rw [rangeText, if_neg heq, rangeEnds, Text.splitFirst?_append_cons (hhyphen _)]
      split
      · next hsplit =>
        simp only [Option.some.injEq, Prod.mk.injEq] at hsplit
        exact absurd hsplit.2 hempty
      · next hsplit =>
        cases hsplit
        rfl
      · next hsplit => cases hsplit
    simp only [rangeIn, hends, hfirst, hlast]

/-- The modes of a breakpoint are what its space settles on, both when they are named and when they
are the last ones. -/
theorem Canonical.modesIn_modes {b : Breakpoint} (h : b.Canonical)
    {named : Option (Modes × List Char)} {last : Modes}
    (hmodes : (named.map (·.1)).getD last = b.modes) :
    modesIn b.space named last = .ok b.modes := by
  have hlegal := h.modes_legal
  have hsome := h.modes_nonempty
  cases hspace : b.space with
  | opcode =>
    rw [hspace] at hlegal
    have hexec : b.modes = .only .exec := by
      rw [← hlegal] at hsome ⊢
      revert hsome
      cases b.modes.exec <;> simp [Modes.inter, Modes.isEmpty, Space.legalModes, Modes.only]
    rw [modesIn, hexec]
  | port =>
    rw [hspace] at hlegal
    have hport : b.modes.inter Space.port.legalModes = b.modes := hlegal
    obtain _ | ⟨m, w⟩ := named
    all_goals
      obtain rfl : _ = b.modes := hmodes
      simp only [modesIn, hport, hsome, Bool.false_eq_true, if_false]
  | logical | physical =>
    obtain _ | ⟨m, w⟩ := named
    all_goals
      obtain rfl : _ = b.modes := hmodes
      simp only [modesIn, hsome, Bool.false_eq_true, if_false]

/-- The mask that is left out of a breakpoint's text is the one that its space takes then. -/
theorem Canonical.maskIn_mask {b : Breakpoint} (h : b.Canonical) (space modes : Bool) :
    maskIn b.space (b.shownFields space modes).mask = b.mask := by
  by_cases heq : b.mask = b.space.defaultMask
  · rw [shownFields, if_pos heq, heq]
    cases b.space <;> rfl
  · rw [shownFields, if_neg heq]
    exact h.mask_taken

/-- A breakpoint of the form that text gives is read back from the words of its text.  Its space may
be left out where it is the default, and so may its modes. -/
theorem Canonical.parse_shown {b : Breakpoint} (h : b.Canonical) {d : Defaults} {space modes : Bool}
    (hspace : space = false → d.space = b.space) (hmodes : modes = false → d.modes = b.modes)
    (context : Context) {text : String}
    (htext : Text.words text.toList = b.shownWords space modes) :
    parse d context text = .ok b := by
  have hbuilt : ((ofRange b.space b.modes b.first b.last).withMask b.mask).withEnabled b.enabled =
      b := by
    simp only [ofRange, withMask, withEnabled, h.first_cut, h.last_cut]
  have hsettled : (b.shownFields space modes).space.getD d.space = b.space := by
    cases space with
    | true => rfl
    | false => exact hspace rfl
  have hnamed : ((b.shownFields space modes).modes.map (·.1)).getD d.modes = b.modes := by
    cases modes with
    | true => rfl
    | false => exact hmodes rfl
  have hread : ofFields d context (b.shownFields space modes) = .ok b := by
    rw [ofFields_eq_ok_iff, hsettled]
    refine ⟨b.modes, b.rangeText, b.first, b.last, h.modesIn_modes hnamed, rfl,
      rangeIn_rangeText b _ _, ?_, h.ordered⟩
    rw [h.maskIn_mask]
    exact hbuilt
  have hfields := addAll_shownWords h.modes_nonempty context.labels space modes
  have hnonempty : (b.shownWords space modes).isEmpty = false := by
    cases space <;> cases modes <;> rfl
  rw [parse, htext, parseWords, hnonempty, hfields]
  exact hread

/-- A breakpoint of the form that text gives is read back from its own text. -/
theorem Canonical.parse_own {b : Breakpoint} (h : b.Canonical) (d : Defaults)
    (context : Context) :
    parse d context b.text = .ok b := by
  have hwords : Text.words b.text.toList = b.shownWords true true := by
    rw [text, String.toList_ofList]
    exact Text.words_joinWords (isWord_of_mem_textWords h.modes_nonempty)
  exact h.parse_shown Bool.noConfusion Bool.noConfusion context hwords

/-- A breakpoint that was read from some text is read back from its own text, whatever the
defaults, the labels and the layout are at either reading; breakpoints that were read and have one
text are one breakpoint. -/
theorem parse_text {d : Defaults} {context : Context} {text : String} {b : Breakpoint}
    (h : parse d context text = .ok b) :
    (∀ (d' : Defaults) (context' : Context), parse d' context' b.text = .ok b) ∧
      ∀ (d' : Defaults) (context' : Context) (text' : String) (b' : Breakpoint),
        parse d' context' text' = .ok b' → b.text = b'.text → b = b' := by
  have hback := (canonical_of_parse h).parse_own
  refine ⟨hback, ?_⟩
  intro d' context' text' b' h' htext
  have hback' := (canonical_of_parse h').parse_own d' context'
  rw [← htext, hback d' context'] at hback'
  exact Except.ok.inj hback'

/-- A disabled physical breakpoint with a mask of its own, written in another order and case than
its text has, is read back. -/
theorem parse_text_physical :
    let b : Breakpoint :=
      { space := .physical, modes := { write := true, read := true }
        first := 0x4000, last := 0x40F0, mask := 0xFFFF0, enabled := false }
    parse {} {} "4000h-$40fF wr Mask:FFFF0 phys (DISABLED)" = .ok b ∧
      ∀ (d : Defaults) (context : Context), parse d context b.text = .ok b := by
  intro b
  have hread : parse {} {} "4000h-$40fF wr Mask:FFFF0 phys (DISABLED)" = .ok b := by
    rfl
  exact ⟨hread, (parse_text hread).1⟩

/-- The text of a breakpoint that was read starts with its space and its modes.  Where they were
used last, either of them or both may be left out of the text: the words that are left, with
whatever blanks between them, give the same breakpoint, whatever the labels and the layout are. -/
theorem parse_without_space_or_modes {d : Defaults} {context : Context} {text : String}
    {b : Breakpoint} (h : parse d context text = .ok b) :
    ∃ space modes rest, b.textWords = space :: modes :: rest ∧
      Word.ofText space = .space b.space ∧ Word.ofText modes = .modes b.modes ∧
      ∀ kept ∈ [modes :: rest, space :: rest, rest], Text.Spells kept (Text.joinWords kept) ∧
        ∀ cs, Text.Spells kept cs → ∀ context' : Context,
          parse b.defaults context' (String.ofList cs) = .ok b := by
  have hcanonical := canonical_of_parse h
  have hsome := hcanonical.modes_nonempty
  have hshown : ∀ space modes, Text.Spells (b.shownWords space modes)
      (Text.joinWords (b.shownWords space modes)) ∧
      ∀ cs, Text.Spells (b.shownWords space modes) cs → ∀ context' : Context,
        parse b.defaults context' (String.ofList cs) = .ok b := by
    intro space modes
    constructor
    · rw [Text.spells_iff]
      exact Text.words_joinWords fun w hw =>
        isWord_of_mem_textWords hsome w ((b.shownWords_sublist space modes).subset hw)
    · intro cs hcs context'
      have hwords : Text.words (String.ofList cs).toList = b.shownWords space modes := by
        rw [String.toList_ofList, hcs.words_eq]
      exact hcanonical.parse_shown (fun _ => rfl) (fun _ => rfl) context' hwords
  refine ⟨_, _, _, rfl, ofText_label _, ofText_modeLetters hsome, ?_⟩
  intro kept hkept
  simp only [List.mem_cons, List.not_mem_nil, or_false] at hkept
  obtain rfl | rfl | rfl := hkept
  · exact hshown false true
  · exact hshown true false
  · exact hshown false false

/-- A disabled breakpoint on writing to some ports, which was read from a range above the ports and
from more modes than ports know, is read from its range and its mark alone after that. -/
theorem parse_port_without_space_or_modes :
    let b : Breakpoint :=
      { space := .port, modes := .only .write, first := 0x10, last := 0x1F, mask := 0xFF,
        enabled := false }
    parse {} {} "io 110-$1F w,exec (Disabled)" = .ok b ∧
      ∀ context : Context, parse b.defaults context "10-1F (disabled)" = .ok b := by
  intro b
  have hread : parse {} {} "io 110-$1F w,exec (Disabled)" = .ok b := by
    rfl
  obtain ⟨space, modes, rest, hwords, -, -, hkept⟩ := parse_without_space_or_modes hread
  have hrest : b.textWords.drop 2 = ["10-1F".toList, "(disabled)".toList] := by
    simp [b, textWords, rangeText, rangeWidth, padded, Text.Hex.digits, Text.Hex.digitChar,
      Space.defaultMask]
  obtain rfl : ["10-1F".toList, "(disabled)".toList] = rest := by
    rw [← hrest, hwords]
    rfl
  obtain ⟨hspells, hparse⟩ := hkept _ (List.mem_of_getElem? (i := 2) rfl)
  exact ⟨hread, hparse _ hspells⟩

end Z80Debugger.Breakpoint
