import Z80Debugger.Console.Program
import Z80Debugger.Proofs.Breakpoint.Canonical
import Z80Debugger.Proofs.Breakpoint.Keywords
import Z80Debugger.Proofs.Breakpoint.Spelling

/-!
# Defaults from the command line

The space and the modes that breakpoints have when they leave them out are two arguments, which are
read as a breakpoint at zero would be.  The words of a breakpoint may stand in any order and be more
than keywords, so some arguments are let through that are no keywords, or not in their places:
`Misread` says which.  All others are taken exactly if they name a space and modes that the space
knows (`defaults_are_keywords`).
-/

set_option autoImplicit false

namespace Z80Debugger

namespace Breakpoint

open Text (fold IsWord)

/-- The first word that is taken for an address. -/
def firstAddress? (ws : List (List Char)) : Option (List Char) :=
  ws.find? fun w => (Word.ofText w).kind = .address

/-- What is said by the first word of each kind. -/
def Fields.ofFirst (labels : Labels) (ws : List (List Char)) : Fields where
  space := ws.findSome? spaceOf?
  modes := ws.findSome? modesOf?
  mask := ws.findSome? (maskOf? labels)
  address := firstAddress? ws
  enabled := (wordsOf .disabled ws).isEmpty

variable {ws : List (List Char)} {labels : Labels} {space modes : List Char} {d : Defaults}

/-- Words of other kinds can be passed over where nothing is found in them. -/
theorem findSome?_wordsOf {α : Type} {kind : WordKind} {f : List Char → Option α}
    (h : ∀ w, (Word.ofText w).kind ≠ kind → f w = none) (ws : List (List Char)) :
    (wordsOf kind ws).findSome? f = ws.findSome? f := by
  induction ws with
  | nil => rfl
  | cons w ws ih =>
    rw [wordsOf, List.filter_cons, List.findSome?_cons]
    split
    · rw [List.findSome?_cons]
      split
      · rfl
      · exact ih
    · next hkind =>
      rw [h w (by simpa using hkind)]
      exact ih

/-- Words are taken in exactly if no mask among them is bad, and then the first of each kind counts.
-/
theorem Fields.addAll_eq_ok_iff {f : Fields} :
    addAll labels {} ws = .ok f ↔
      (∀ w ∈ ws, badMask? labels w = none) ∧ ofFirst labels ws = f := by
  have hspace : ∀ w, (Word.ofText w).kind ≠ .space → spaceOf? w = none := by
    grind [spaceOf?, Word.kind]
  have hmodes : ∀ w, (Word.ofText w).kind ≠ .modes → modesOf? w = none := by
    grind [modesOf?, Word.kind]
  have hmask : ∀ w, (Word.ofText w).kind ≠ .mask → maskOf? labels w = none := by
    grind [maskOf?, Word.kind]
  have hbad : ∀ w, (Word.ofText w).kind ≠ .mask → badMask? labels w = none := by
    grind [badMask?, Word.kind]
  have hfirst : (wordsOf .address ws).head? = firstAddress? ws := List.head?_filter
  rw [addAll_eq, findSome?_wordsOf hspace, findSome?_wordsOf hmodes, findSome?_wordsOf hmask,
    findSome?_wordsOf hbad, hfirst]
  cases hall : ws.findSome? (badMask? labels) with
  | some e =>
    obtain ⟨w, hw, he⟩ := List.exists_of_findSome?_eq_some hall
    refine iff_of_false (by simp) ?_
    rintro ⟨hnone, -⟩
    rw [hnone w hw] at he
    cases he
  | none =>
    rw [List.findSome?_eq_none_iff] at hall
    simp only [Except.ok.injEq]
    exact (and_iff_right hall).symm

/-- Named modes are taken unless a port knows none of them. -/
theorem modesIn_some_eq_ok_iff {space : Space} {m last modes : Modes} {w : List Char}
    (h : m.isEmpty = false) :
    modesIn space (some (m, w)) last = .ok modes ↔
      (space = .port → m.read = true ∨ m.write = true) ∧
        modes = if space = .opcode then .only .exec else m.inter space.legalModes := by
  obtain ⟨exec, write, read⟩ := m
  cases space with
  | logical | physical =>
    simp [modesIn, h, Modes.inter, Space.legalModes, Modes.all, eq_comm]
  | opcode => simp [modesIn, eq_comm]
  | port =>
    simp only [modesIn]
    cases write <;> cases read <;>
      simp [Modes.inter, Space.legalModes, Modes.isEmpty, eq_comm]

/-- The two words name a space and modes that the space knows, and the defaults are what they name.
Opcodes are always run; the other spaces keep the modes that they know. -/
structure Keywords (space modes : List Char) (d : Defaults) : Prop where
  space : spaceWord? (fold space) = some d.space
  modes : ∃ m, modesWord? (fold modes) = some m ∧
    (d.space = .port → m.read = true ∨ m.write = true) ∧
    d.modes = if d.space = .opcode then .only .exec else m.inter d.space.legalModes

/-- The space that is named by one of two words, or the logical one. -/
def namedSpace (space modes : List Char) : Space :=
  ([space, modes].findSome? Fields.spaceOf?).getD .logical

/-- The word is a range in the space, with ends in order. -/
def IsRangeIn (space : Space) (w : List Char) : Prop :=
  ∃ first last, rangeIn space {} w = .ok (first, last) ∧
    first &&& space.defaultMask ≤ last &&& space.defaultMask

/-- The two words do not name a space and modes, in this order. -/
def Misplaced (space modes : List Char) : Prop :=
  ∀ s m, spaceWord? (fold space) = some s → modesWord? (fold modes) ≠ some m

/-- The two words are not the keywords that they should be, and still make up a breakpoint. -/
structure Misread (space modes : List Char) : Prop where
  misplaced : Misplaced space modes
  /-- Every mask is a number. -/
  masks : ∀ w ∈ [space, modes], Fields.badMask? Labels.none w = none
  /-- A port knows the modes in front of it. -/
  port : ∀ m, Word.ofText space = .modes m → Word.ofText modes = .space .port →
    m.read = true ∨ m.write = true
  /-- The first word that is nothing else is a range in the space that the other one names. -/
  range : ∀ w, firstAddress? [space, modes] = some w → IsRangeIn (namedSpace space modes) w

/-- The words of the text that the arguments are put into. -/
theorem words_arguments {space modes : String} (hspace : IsWord space.toList)
    (hmodes : IsWord modes.toList) :
    Text.words (space ++ " " ++ modes ++ " 0").toList =
      [space.toList, modes.toList, ['0']] := by
  have htext : (space ++ " " ++ modes ++ " 0").toList =
      space.toList ++ ' ' :: (modes.toList ++ ' ' :: ['0']) := by
    simp [String.toList_append]
  rw [htext, Text.words_append_cons hspace rfl, Text.words_append_cons hmodes rfl,
    Text.words_of_isWord (Text.isWord_singleton rfl)]

/-- Words are read if every mask is a number and the first word of each kind says what suits the
others. -/
theorem parseWords_eq_ok_iff {context : Context} {b : Breakpoint} (hne : ws ≠ []) :
    parseWords d context ws = .ok b ↔
      (∀ w ∈ ws, Fields.badMask? context.labels w = none) ∧
        ofFields d context (Fields.ofFirst context.labels ws) = .ok b := by
  have hsome : ws.isEmpty = false := by simpa using hne
  have hall (f : Fields) : Fields.addAll context.labels {} ws = .ok f ↔ _ :=
    Fields.addAll_eq_ok_iff
  rw [parseWords, hsome]
  cases hread : Fields.addAll context.labels {} ws with
  | ok f =>
    obtain ⟨hmasks, rfl⟩ := (hall f).mp hread
    exact (and_iff_right hmasks).symm
  | error e =>
    refine iff_of_false (by simp) ?_
    rintro ⟨hmasks, -⟩
    rw [(hall _).mpr ⟨hmasks, rfl⟩] at hread
    cases hread

/-- Where one of two words is an address, the other one cannot be both a space and a mask. -/
theorem maskIn_of_address {w : List Char}
    (h : firstAddress? [space, modes] = some w) (labels : Labels) :
    maskIn (namedSpace space modes) ([space, modes].findSome? (Fields.maskOf? labels)) =
      (namedSpace space modes).defaultMask := by
  have hnone (s : Space) : maskIn s none = s.defaultMask := by
    cases s <;> rfl
  have hlogical (mask : Option UInt32) : maskIn .logical mask = Space.logical.defaultMask := by
    cases mask <;> rfl
  -- The space that the other word names has no mask beside it; the logical one takes none.
  cases hfirst : Word.ofText space <;> cases hsecond : Word.ofText modes
  all_goals
    simp [firstAddress?, namedSpace, Fields.spaceOf?, Fields.maskOf?, Word.kind, hfirst, hsecond,
      hnone, hlogical] at h ⊢

/-- So the mask changes nothing in a range that is cut to the space. -/
theorem cut_of_address {w : List Char} (h : firstAddress? [space, modes] = some w) (labels : Labels)
    (value : UInt32) :
    value &&& (namedSpace space modes).defaultMask &&& maskIn (namedSpace space modes)
        ([space, modes].findSome? (Fields.maskOf? labels)) =
      value &&& (namedSpace space modes).defaultMask := by
  rw [maskIn_of_address h, UInt32.and_assoc, UInt32.and_self]

/-- A zero behind two words is the address if none of them is, and says nothing else. -/
theorem ofFirst_arguments (labels : Labels) (space modes : List Char) :
    Fields.ofFirst labels [space, modes, ['0']] = {
      Fields.ofFirst labels [space, modes] with
      address := (firstAddress? [space, modes]).or (some ['0']) } := by
  have hzero : [['0']].findSome? Fields.spaceOf? = none ∧
      [['0']].findSome? Fields.modesOf? = none ∧
      [['0']].findSome? (Fields.maskOf? labels) = none ∧
      [['0']].find? (fun w => (Word.ofText w).kind = .address) = some ['0'] ∧
      [['0']].filter (fun w => (Word.ofText w).kind = .disabled) = [] :=
    ⟨rfl, rfl, rfl, rfl, rfl⟩
  change Fields.ofFirst labels ([space, modes] ++ [['0']]) = _
  simp only [Fields.ofFirst, firstAddress?, List.findSome?_append, List.find?_append, wordsOf,
    List.filter_append, hzero, Option.or_none, List.append_nil]

/-- The arguments are read exactly if the masks are numbers, the space settles on modes, and the
first word that is nothing else is a range in the space. -/
theorem parseWords_arguments_iff :
    (∃ b, parseWords {} {} [space, modes, ['0']] = .ok b ∧ b.defaults = d) ↔
      (∀ w ∈ [space, modes], Fields.badMask? Labels.none w = none) ∧
        namedSpace space modes = d.space ∧
        modesIn (namedSpace space modes) ([space, modes].findSome? Fields.modesOf?)
          (.only .exec) = .ok d.modes ∧
        ∀ w, firstAddress? [space, modes] = some w → IsRangeIn (namedSpace space modes) w := by
  have hmasks : (∀ w ∈ [space, modes, ['0']], Fields.badMask? Labels.none w = none) ↔
      ∀ w ∈ [space, modes], Fields.badMask? Labels.none w = none := by
    have hzero : Fields.badMask? Labels.none ['0'] = none := rfl
    simp [hzero]
  simp only [parseWords_eq_ok_iff (List.cons_ne_nil space _), ofFirst_arguments, hmasks,
    ofFields_eq_ok_iff]
  constructor
  · rintro ⟨_, ⟨hgood, m, range, first, last, hm, hrange, hends, rfl, hle⟩, rfl⟩
    refine ⟨hgood, rfl, hm, fun w hw => ?_⟩
    rw [hw, Option.some_or, Option.some.injEq] at hrange
    obtain rfl := hrange
    refine ⟨first, last, hends, ?_⟩
    rw [← cut_of_address hw Labels.none first, ← cut_of_address hw Labels.none last]
    exact hle
  · rintro ⟨hgood, hspace, hm, hrange⟩
    have hd : Defaults.mk (namedSpace space modes) d.modes = d := by rw [hspace]
    cases hfound : firstAddress? [space, modes] with
    | none =>
      have hzero : rangeIn (namedSpace space modes) {} ['0'] = .ok (0, 0) := by
        cases namedSpace space modes <;> rfl
      exact ⟨_, ⟨hgood, d.modes, ['0'], 0, 0, hm, rfl, hzero, rfl, UInt32.le_refl _⟩, hd⟩
    | some w =>
      obtain ⟨first, last, hends, hle⟩ := hrange w hfound
      rw [← cut_of_address hfound Labels.none first,
        ← cut_of_address hfound Labels.none last] at hle
      exact ⟨_, ⟨hgood, d.modes, w, first, last, hm, rfl, hends, rfl, hle⟩, hd⟩

/-- A space settles on modes unless it is a port for which modes are named that it does not know. -/
theorem exists_modesIn_iff {space : Space} {named : Option (Modes × List Char)} {last : Modes} :
    (∃ modes, modesIn space named last = .ok modes) ↔
      ∀ m w, space = .port → named = some (m, w) → m.read = true ∨ m.write = true := by
  obtain _ | ⟨m, w⟩ := named
  · cases space with
    | port =>
      simp only [modesIn]
      split <;> simp
    | logical | physical | opcode => simp [modesIn]
  · obtain ⟨exec, write, read⟩ := m
    cases space with
    | port =>
      cases write <;> cases read <;> simp [modesIn, Modes.inter, Space.legalModes, Modes.isEmpty]
    | logical | physical | opcode => simp [modesIn]

/-- Keywords in their places are taken for the space and the modes of a breakpoint. -/
theorem keywords_iff {s : Space} {m : Modes} (hspace : spaceWord? (fold space) = some s)
    (hmodes : modesWord? (fold modes) = some m) :
    Keywords space modes d ↔
      (∃ b, parseWords {} {} [space, modes, ['0']] = .ok b ∧ b.defaults = d) := by
  have hfirst := ofText_eq_space_iff.mpr hspace
  have hsecond := ofText_eq_modes_iff.mpr hmodes
  have hnamed : namedSpace space modes = s := by
    simp [namedSpace, Fields.spaceOf?, hfirst]
  have hgood : ∀ w ∈ [space, modes], Fields.badMask? Labels.none w = none := by
    simp [Fields.badMask?, hfirst, hsecond]
  have hfound : [space, modes].findSome? Fields.modesOf? = some (m, modes) := by
    simp [Fields.modesOf?, hfirst, hsecond]
  have hnone : firstAddress? [space, modes] = none := by
    simp [firstAddress?, Word.kind, hfirst, hsecond]
  rw [parseWords_arguments_iff, hnamed, hfound, hnone,
    modesIn_some_eq_ok_iff (isEmpty_of_modesWord? hmodes), and_iff_right hgood]
  constructor
  · rintro ⟨hs, n, hn, hlegal, hd⟩
    obtain rfl : s = d.space := Option.some.inj (hspace.symm.trans hs)
    obtain rfl : m = n := Option.some.inj (hmodes.symm.trans hn)
    exact ⟨rfl, ⟨hlegal, hd⟩, fun w hw => by cases hw⟩
  · rintro ⟨rfl, ⟨hlegal, hd⟩, -⟩
    exact ⟨hspace, m, hmodes, hlegal, hd⟩

/-- Words that are not keywords in their places name modes for a port only if they are swapped. -/
theorem port_iff_of_misplaced (h : Misplaced space modes) :
    (∀ m w, namedSpace space modes = .port →
        [space, modes].findSome? Fields.modesOf? = some (m, w) → m.read = true ∨ m.write = true) ↔
      ∀ m, Word.ofText space = .modes m → Word.ofText modes = .space .port →
        m.read = true ∨ m.write = true := by
  simp only [Misplaced, ne_eq, ← ofText_eq_space_iff, ← ofText_eq_modes_iff] at h
  cases hfirst : Word.ofText space <;> cases hsecond : Word.ofText modes
  all_goals
    simp [namedSpace, Fields.spaceOf?, Fields.modesOf?, hfirst, hsecond] at h ⊢

/-- Words that are not keywords in their places are read exactly if they are misread. -/
theorem misread_iff (h : Misplaced space modes) :
    Misread space modes ↔
      ∃ d b, parseWords {} {} [space, modes, ['0']] = .ok b ∧ b.defaults = d := by
  simp only [parseWords_arguments_iff]
  constructor
  · intro hmisread
    obtain ⟨m, hm⟩ := exists_modesIn_iff.mpr ((port_iff_of_misplaced h).mpr hmisread.port)
    exact ⟨⟨namedSpace space modes, m⟩, hmisread.masks, rfl, hm, hmisread.range⟩
  · rintro ⟨d, hmasks, -, hm, hrange⟩
    exact ⟨h, hmasks, (port_iff_of_misplaced h).mp (exists_modesIn_iff.mp ⟨d.modes, hm⟩), hrange⟩

end Breakpoint

namespace Options

open Breakpoint (Defaults Keywords Misread parseWords)
open Text (IsWord)

/-- Defaults are accepted exactly if they are read as words of a breakpoint at zero. -/
theorem defaults?_eq_ok_iff {space modes : String} (hspace : IsWord space.toList)
    (hmodes : IsWord modes.toList) {d : Defaults} :
    defaults? space modes = .ok d ↔
      ∃ b, parseWords {} {} [space.toList, modes.toList, ['0']] = .ok b ∧ b.defaults = d := by
  rw [defaults?, Breakpoint.parse, Breakpoint.words_arguments hspace hmodes]
  cases parseWords {} {} [space.toList, modes.toList, ['0']] with
  | ok b => simp [Except.map]
  | error e => simp [Except.map]

/-- Keywords are taken for what they name. -/
theorem defaults?_of_keywords {space modes : String} (hspace : IsWord space.toList)
    (hmodes : IsWord modes.toList) {d : Defaults} (h : Keywords space.toList modes.toList d) :
    defaults? space modes = .ok d := by
  obtain ⟨m, hm, -⟩ := h.modes
  exact (defaults?_eq_ok_iff hspace hmodes).mpr ((Breakpoint.keywords_iff h.space hm).mp h)

/-- What is taken is keywords or misread. -/
theorem exists_defaults?_iff {space modes : String} (hspace : IsWord space.toList)
    (hmodes : IsWord modes.toList) :
    (∃ d, defaults? space modes = .ok d) ↔
      (∃ d, Keywords space.toList modes.toList d) ∨ Misread space.toList modes.toList := by
  have hread (d : Defaults) := defaults?_eq_ok_iff hspace hmodes (d := d)
  constructor
  · rintro ⟨d, hd⟩
    by_cases h : Breakpoint.Misplaced space.toList modes.toList
    · exact Or.inr ((Breakpoint.misread_iff h).mpr ⟨d, (hread d).mp hd⟩)
    · simp only [Breakpoint.Misplaced, Classical.not_forall, ne_eq, Classical.not_not] at h
      obtain ⟨s, m, hs, hm⟩ := h
      exact Or.inl ⟨d, (Breakpoint.keywords_iff hs hm).mpr ((hread d).mp hd)⟩
  · rintro (⟨d, hd⟩ | h)
    · exact ⟨d, defaults?_of_keywords hspace hmodes hd⟩
    · obtain ⟨d, hd⟩ := (Breakpoint.misread_iff h.misplaced).mp h
      exact ⟨d, (hread d).mpr hd⟩

/-- Let the two arguments be words.  If they name a space and modes that the space knows, they are
taken, for what they name.  Others are taken exactly if they are misread, so two arguments that are
not misread, and only those, are taken exactly if they are such keywords. -/
theorem defaults_are_keywords {space modes : String} (hspace : IsWord space.toList)
    (hmodes : IsWord modes.toList) :
    (∀ d, Keywords space.toList modes.toList d → defaults? space modes = .ok d) ∧
      ((∃ d, defaults? space modes = .ok d) ↔
        (∃ d, Keywords space.toList modes.toList d) ∨ Misread space.toList modes.toList) ∧
      (¬ Misread space.toList modes.toList ↔
        ∀ d, defaults? space modes = .ok d ↔ Keywords space.toList modes.toList d) := by
  have htaken (d : Defaults) (h : Keywords space.toList modes.toList d) :=
    defaults?_of_keywords hspace hmodes h
  have hall := exists_defaults?_iff hspace hmodes
  refine ⟨htaken, hall, ?_⟩
  constructor
  · intro hnot d
    refine ⟨fun hd => ?_, htaken d⟩
    obtain ⟨e, he⟩ := (hall.mp ⟨d, hd⟩).resolve_right hnot
    obtain rfl : e = d := Except.ok.inj ((htaken e he).symm.trans hd)
    exact he
  · intro hsame hmisread
    obtain ⟨d, hd⟩ := hall.mpr (Or.inr hmisread)
    obtain ⟨hs, m, hm, -⟩ := (hsame d).mp hd
    exact hmisread.misplaced d.space m hs hm

/-- Ports that are read or run are ports that are read, in any case and however the modes are
joined. -/
theorem defaults_are_keywords_port :
    IsWord "I/O".toList ∧ IsWord "Exec|r".toList ∧
      defaults? "I/O" "Exec|r" = .ok { space := .port, modes := .only .read } ∧
      ∀ d, defaults? "I/O" "Exec|r" = .ok d ↔ Keywords "I/O".toList "Exec|r".toList d := by
  have hspace : IsWord "I/O".toList := .of_all rfl rfl
  have hmodes : IsWord "Exec|r".toList := .of_all rfl rfl
  obtain ⟨htaken, -, hexact⟩ := defaults_are_keywords hspace hmodes
  have hkeywords : Keywords "I/O".toList "Exec|r".toList
      { space := .port, modes := .only .read } :=
    ⟨rfl, { exec := true, read := true }, rfl, fun _ => Or.inl rfl, rfl⟩
  refine ⟨hspace, hmodes, htaken _ hkeywords, hexact.mp fun hmisread => ?_⟩
  exact hmisread.misplaced .port { exec := true, read := true } rfl rfl

/-- A word that is a hexadecimal number is no space, but is taken for the address of the breakpoint,
and the program goes on with the logical space. -/
theorem misread_defaults_are_taken :
    let args := ["run", "prog.bin", "--default-type", "bad", "--default-mode", "x"]
    let o : Options := { image := "prog.bin", defaultSpace := "bad" }
    IsWord "bad".toList ∧ IsWord "x".toList ∧ parse? args = some o ∧
      (∀ d, ¬ Keywords "bad".toList "x".toList d) ∧ Misread "bad".toList "x".toList ∧
      defaults? "bad" "x" = .ok {} ∧
      ∀ core, Console.debuggerOf o core =
        .ok (.ofCore (some core) { lines := 16, view := .logical, defaults := {} }) := by
  intro args o
  have hnone : Breakpoint.spaceWord? (Text.fold "bad".toList) = none := rfl
  have hparsed : parse? args = some o := by decide +kernel
  have hmisread : Misread "bad".toList "x".toList := by
    refine ⟨?_, ?_, ?_, ?_⟩
    · intro s m hs
      rw [hnone] at hs
      cases hs
    · exact List.forall_mem_cons.mpr ⟨rfl, List.forall_mem_singleton.mpr rfl⟩
    · intro m hm
      cases hm
    · intro w hw
      obtain rfl : "bad".toList = w := Option.some.inj hw
      exact ⟨0xBAD, 0xBAD, rfl, UInt32.le_refl _⟩
  have hread : defaults? "bad" "x" = .ok {} := rfl
  refine ⟨.of_all rfl rfl, .of_all rfl rfl, hparsed, ?_, hmisread, hread, ?_⟩
  · intro d hkeywords
    have hspace := hkeywords.space
    rw [hnone] at hspace
    cases hspace
  · intro core
    simp only [Console.debuggerOf, o, hread]
    rfl

end Options

end Z80Debugger
