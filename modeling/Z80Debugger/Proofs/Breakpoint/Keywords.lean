import Z80Debugger.Breakpoint.Text
import Z80Debugger.Proofs.Text.Words

/-!
# Keywords in a breakpoint's text

A space has a few names.  A word that names modes consists of their letters and of the characters
that join its parts, and it names one mode at least.  So one character tells that a word is no such
keyword, and modes are taken for modes wherever they stand (`ofText_eq_modes_iff`).
-/

set_option autoImplicit false

namespace Z80Debugger

namespace Breakpoint

open Text (fold)

variable {w : List Char} {m : Modes} {s : Space}

/-- A word is not in a list if every word there has a character that it lacks. -/
theorem not_mem_of_forall_all {p : Char → Bool} (h : ∀ c ∈ w, p c = true) {ws : List (List Char)}
    (hws : ∀ v ∈ ws, v.all p = false) :
    w ∉ ws := by
  intro hw
  have hall : w.all p = true := List.all_eq_true.mpr h
  rw [hws w hw] at hall
  cases hall

/-- The words that name a space. -/
def spaceNames : List (List Char) :=
  ["logical".toList, "log".toList, "l".toList, "mem".toList] ++
    ["physical".toList, "phys".toList, "p".toList, "abs".toList] ++
    ["port".toList, "io".toList, "i/o".toList] ++ ["opcode".toList, "op".toList]

/-- No other word names a space. -/
theorem spaceWord?_eq_none (h : w ∉ spaceNames) : spaceWord? w = none := by
  simp only [spaceNames, List.mem_append, not_or] at h
  obtain ⟨⟨⟨hlogical, hphysical⟩, hport⟩, hopcode⟩ := h
  rw [spaceWord?, if_neg hlogical, if_neg hphysical, if_neg hport, if_neg hopcode]

/-- A mask begins with its first letter. -/
theorem maskWord?_eq_none (h : w.head? ≠ some 'm') : maskWord? w = none := by
  cases w with
  | nil => rfl
  | cons c cs =>
    have hc : ¬ 'm' = c := by
      rintro rfl
      exact h rfl
    simp [maskWord?, Text.after?, hc]

/-- The characters of words that name modes. -/
def isModeCharacter (c : Char) : Bool :=
  isModeSeparator c || ['a', 'c', 'd', 'e', 'i', 'r', 't', 'u', 'w', 'x'].contains c

/-- The names of modes. -/
def modeNames : List (List Char) :=
  ["read".toList, "write".toList, "exec".toList, "execute".toList]

/-- The first of the letters names a mode, and so do the others. -/
theorem exists_modeLetter?_of_cons {c : Char} {cs : List Char}
    (h : modeLetters? (c :: cs) = some m) :
    ∃ mode rest, modeLetter? c = some mode ∧ modeLetters? cs = some rest ∧
      m = (Modes.only mode).union rest := by
  rw [modeLetters?] at h
  split at h
  · next mode rest hc hcs => exact ⟨mode, rest, hc, hcs, (Option.some.inj h).symm⟩
  · cases h

/-- A part of a word is the name of a mode or consists of letters of modes. -/
theorem modePart?_cases (h : modePart? w = some m) :
    w ∈ modeNames ∧ (∃ mode, m = .only mode) ∨ w ≠ [] ∧ modeLetters? w = some m := by
  rw [modePart?] at h
  split at h
  · next heq => exact Or.inl ⟨by simp [modeNames, heq], _, (Option.some.inj h).symm⟩
  · split at h
    · next heq => exact Or.inl ⟨by simp [modeNames, heq], _, (Option.some.inj h).symm⟩
    · split at h
      · next heq =>
        rw [Bool.or_eq_true, decide_eq_true_eq, decide_eq_true_eq] at heq
        have hname : w ∈ modeNames := by
          obtain rfl | rfl := heq
          all_goals simp [modeNames]
        exact Or.inl ⟨hname, _, (Option.some.inj h).symm⟩
      · split at h
        · cases h
        · next hne => exact Or.inr ⟨by simpa using hne, h⟩

/-- A letter of a mode may stand in a word of modes. -/
theorem isModeCharacter_of_modeLetter? {c : Char} {mode : Mode} (h : modeLetter? c = some mode) :
    isModeCharacter c = true := by
  rw [modeLetter?] at h
  split at h
  · next heq => exact heq ▸ rfl
  · split at h
    · next heq => exact heq ▸ rfl
    · split at h
      · next heq => exact heq ▸ rfl
      · cases h

/-- So may each of several letters. -/
theorem isModeCharacter_of_modeLetters? (h : modeLetters? w = some m) :
    ∀ c ∈ w, isModeCharacter c = true := by
  induction w generalizing m with
  | nil => simp
  | cons c cs ih =>
    obtain ⟨mode, rest, hc, hcs, -⟩ := exists_modeLetter?_of_cons h
    exact List.forall_mem_cons.mpr ⟨isModeCharacter_of_modeLetter? hc, ih hcs⟩

/-- A part of a word of modes holds such characters only. -/
theorem isModeCharacter_of_modePart? (h : modePart? w = some m) :
    ∀ c ∈ w, isModeCharacter c = true := by
  obtain ⟨hname, -⟩ | ⟨-, hletters⟩ := modePart?_cases h
  · have hnames : ∀ v ∈ modeNames, v.all isModeCharacter = true := by decide
    exact List.all_eq_true.mp (hnames w hname)
  · exact isModeCharacter_of_modeLetters? hletters

/-- Every part of a word that names modes names some. -/
theorem exists_modePart? {parts : List (List Char)} (h : modeParts? parts = some m) :
    ∀ part ∈ parts, ∃ n, modePart? part = some n := by
  induction parts generalizing m with
  | nil => simp
  | cons part parts ih =>
    rw [modeParts?] at h
    split at h
    · next n _ hpart hparts => exact List.forall_mem_cons.mpr ⟨⟨n, hpart⟩, ih hparts⟩
    · cases h

/-- A word of modes holds such characters only. -/
theorem isModeCharacter_of_modesWord? (h : modesWord? w = some m) :
    ∀ c ∈ w, isModeCharacter c = true := by
  intro c hc
  obtain hseparator | ⟨part, hpart, hc⟩ :=
    Text.isSeparator_or_mem_pieces isModeSeparator hc
  · rw [isModeCharacter, hseparator, Bool.true_or]
  · obtain ⟨n, hn⟩ := exists_modePart? h part hpart
    exact isModeCharacter_of_modePart? hn c hc

/-- A word with any other character names no modes. -/
theorem modesWord?_eq_none {c : Char} (hc : isModeCharacter c = false) (h : c ∈ w) :
    modesWord? w = none := by
  rw [Option.eq_none_iff_forall_ne_some]
  intro m hm
  rw [isModeCharacter_of_modesWord? hm c h] at hc
  cases hc

/-- Modes together are none exactly if neither has any. -/
theorem isEmpty_union (m n : Modes) : (m.union n).isEmpty = (m.isEmpty && n.isEmpty) := by
  grind [Modes.union, Modes.isEmpty]

/-- A part of a word of modes names at least one. -/
theorem isEmpty_of_modePart? (h : modePart? w = some m) : m.isEmpty = false := by
  have honly (mode : Mode) : (Modes.only mode).isEmpty = false := by
    cases mode <;> rfl
  obtain ⟨-, mode, rfl⟩ | ⟨hne, hletters⟩ := modePart?_cases h
  · exact honly mode
  · obtain ⟨c, cs, rfl⟩ := List.exists_cons_of_ne_nil hne
    obtain ⟨mode, rest, -, -, rfl⟩ := exists_modeLetter?_of_cons hletters
    rw [isEmpty_union, honly mode, Bool.false_and]

/-- A word that names modes names one at least. -/
theorem isEmpty_of_modesWord? (h : modesWord? w = some m) : m.isEmpty = false := by
  obtain ⟨part, parts, hparts⟩ :=
    List.exists_cons_of_ne_nil (Text.pieces_ne_nil isModeSeparator w)
  rw [modesWord?, hparts, modeParts?] at h
  split at h
  · next hpart _ =>
    cases h
    rw [isEmpty_union, isEmpty_of_modePart? hpart, Bool.false_and]
  · cases h

/-- A word names a space exactly if it is a keyword of that space in some case. -/
theorem ofText_eq_space_iff : Word.ofText w = .space s ↔ spaceWord? (fold w) = some s := by
  rw [Word.ofText]
  cases spaceWord? (fold w) with
  | some t => simp
  | none =>
    simp only [reduceCtorEq, iff_false]
    split
    · simp
    · split
      · simp
      · split <;> simp

/-- Nothing that comes before modes is taken for a word that names modes. -/
theorem ofText_eq_modes_iff : Word.ofText w = .modes m ↔ modesWord? (fold w) = some m := by
  constructor
  · intro h
    rw [Word.ofText] at h
    split at h
    · cases h
    · split at h
      · cases h
      · split at h
        · cases h
        · split at h
          · next hmodes =>
            cases h
            exact hmodes
          · cases h
  · intro h
    have hall := isModeCharacter_of_modesWord? h
    have hlacks (c : Char) (hc : isModeCharacter c = false) : c ∉ fold w := by
      intro hmem
      rw [hall c hmem] at hc
      cases hc
    have hspace : spaceWord? (fold w) = none :=
      spaceWord?_eq_none (not_mem_of_forall_all hall (by decide))
    have hmask : maskWord? (fold w) = none :=
      maskWord?_eq_none fun hm => hlacks 'm' rfl (List.mem_of_head? hm)
    have hdisabled : fold w ≠ "(disabled)".toList := by
      intro heq
      rw [heq] at hlacks
      exact hlacks '(' rfl (by decide)
    simp only [Word.ofText, hspace, hmask, if_neg hdisabled, h]

end Breakpoint

end Z80Debugger
