import Z80Debugger.Proofs.Text.Case
import Z80Debugger.Proofs.Text.Lines
import Z80Debugger.Proofs.Text.Pattern
import Z80Debugger.Symbols.File

/-!
# The pattern of a symbol definition

A line of a symbol file is a definition if it matches
`(?i)^\s*([A-Za-z_.][\w.]*)\s*(?:=|\.?equ)\s*(?:\$|0x)?([0-9A-Fa-f]+)h?\s*(?:;.*)?$`, and the match
is the first one that backtracking finds.  Only the name can be taken back and tried shorter: what
may stand behind any other part begins with a character that this part cannot take.
`captures_definition` says so: the match is what reading names, the longest first, finds.
-/

set_option autoImplicit false

namespace Z80Debugger.Symbols.File

open Text (isBlank Pattern)
open Text.Pattern (seq one many either group atEnd letter optional Refuses)

def isDigit (c : Char) : Bool := (Text.Hex.digit? c).isSome

/-- A comment, `(?:;.*)?$`. -/
def remarkPattern : Pattern :=
  seq (optional (seq (one (· == ';')) (many (· != '\n')))) atEnd

/-- What stands behind the digits, `h?\s*(?:;.*)?$`. -/
def endPattern : Pattern :=
  seq (optional (letter 'h')) (seq (many isBlank) remarkPattern)

/-- The digits and what stands behind them, `([0-9A-Fa-f]+)h?\s*(?:;.*)?$`. -/
def numberPattern : Pattern := seq (group (seq (one isDigit) (many isDigit))) endPattern

/-- The mark of hexadecimal, `(?:\$|0x)?`. -/
def radixPattern : Pattern :=
  optional (either (one (· == '$')) (seq (one (· == '0')) (letter 'x')))

/-- The sign, `(?:=|\.?equ)`. -/
def signPattern : Pattern :=
  either (one (· == '='))
    (seq (optional (one (· == '.'))) (seq (letter 'e') (seq (letter 'q') (letter 'u'))))

/-- What stands behind the name. -/
def valuePattern : Pattern :=
  seq (many isBlank) (seq signPattern (seq (many isBlank) (seq radixPattern numberPattern)))

/-- A definition, with the name, `([A-Za-z_.][\w.]*)`, and the digits as groups. -/
def definitionPattern : Pattern :=
  seq (many isBlank) (seq (group (seq (one isNameStart) (many isNameCharacter))) valuePattern)

variable {k : Pattern} {c : Char} {cs : List Char}

/-- Before what refuses blanks, all blanks are taken. -/
theorem readings_blanks_seq (hk : k.Refuses isBlank) (cs : List Char) :
    (seq (many isBlank) k).readings cs = k.readings (Text.trimStart cs) :=
  hk.readings_many_seq cs

/-- A letter does not match the end of the line. -/
theorem readings_letter_seq_nil {small : Char} : (seq (letter small) k).readings [] = [] := rfl

/-- A letter matches itself in both cases. -/
theorem readings_letter_seq_cons {small : Char} :
    (seq (letter small) k).readings (c :: cs) =
      if c.toLower = small then k.readings cs else [] := by
  rw [letter, Pattern.readings_one_seq_cons]
  simp only [beq_iff_eq]

/-- The three letters match where the word stands. -/
theorem readings_equ_seq (cs : List Char) :
    (seq (seq (letter 'e') (seq (letter 'q') (letter 'u'))) k).readings cs =
      (afterEqu? cs).elim [] k.readings := by
  rcases cs with _ | ⟨e, _ | ⟨q, _ | ⟨u, rest⟩⟩⟩
  case cons.cons.cons =>
    have hafter : afterEqu? (e :: q :: u :: rest) =
        if e.toLower = 'e' ∧ q.toLower = 'q' ∧ u.toLower = 'u' then some rest else none := by
      simp [afterEqu?, Text.fold]
    rw [hafter, apply_ite (Option.elim · [] k.readings)]
    simp [readings_letter_seq_cons, ite_and]
  all_goals
    simp [readings_letter_seq_nil, readings_letter_seq_cons, afterEqu?]

/-- What the first character of a sign can be. -/
theorem afterSign?_cons : afterSign? (c :: cs) =
    if c = '=' then some cs else if c = '.' then afterEqu? cs else afterEqu? (c :: cs) := by
  unfold afterSign?
  split
  · next heq =>
    cases heq
    rfl
  · next heq =>
    cases heq
    rfl
  · next hsign hdot =>
    have hsign : c ≠ '=' := fun hc => hsign cs (hc ▸ rfl)
    have hdot : c ≠ '.' := fun hc => hdot cs (hc ▸ rfl)
    rw [if_neg hsign, if_neg hdot]

/-- The word begins with its first letter. -/
theorem afterEqu?_of_toLower_ne (hc : c.toLower ≠ 'e') : afterEqu? (c :: cs) = none := by
  rcases cs with _ | ⟨q, _ | ⟨u, rest⟩⟩
  · rfl
  · rfl
  · simp [afterEqu?, Text.fold, hc]

/-- The pattern of a sign matches where a sign stands. -/
theorem readings_sign_seq (cs : List Char) :
    (seq signPattern k).readings cs = (afterSign? cs).elim [] k.readings := by
  rw [signPattern, Pattern.readings_either_seq, Pattern.readings_seq_seq,
    Pattern.readings_optional_seq, readings_equ_seq]
  cases cs with
  | nil => rfl
  | cons c rest =>
    rw [Pattern.readings_one_seq_cons, Pattern.readings_one_seq_cons, readings_equ_seq,
      afterSign?_cons]
    by_cases hsign : c = '='
    · subst hsign
      simp [afterEqu?_of_toLower_ne (c := '=') (by decide)]
    · by_cases hdot : c = '.'
      · subst hdot
        simp [afterEqu?_of_toLower_ne (c := '.') (by decide)]
      · simp [hsign, hdot]

/-- The suffix is the letter in both cases. -/
theorem withoutSuffix_cons :
    withoutSuffix (c :: cs) = if c.toLower = 'h' then cs else c :: cs := by
  unfold withoutSuffix
  split
  · next heq =>
    cases heq
    rfl
  · next heq =>
    cases heq
    rfl
  · next hsmall hcapital =>
    rw [if_neg]
    intro hc
    obtain rfl | rfl := (Text.toLower_eq_small_iff 'h' 'H' c).mp hc
    · exact hsmall cs rfl
    · exact hcapital cs rfl

/-- The line does not end before a character. -/
theorem readings_atEnd_cons : atEnd.readings (c :: cs) = [] := rfl

/-- A remark begins with its mark. -/
theorem readings_remark_cons : remarkPattern.readings (c :: cs) =
    if c = ';' then (seq (many (· != '\n')) atEnd).readings cs else [] := by
  simp only [remarkPattern, Pattern.readings_optional_seq, Pattern.readings_seq_seq,
    Pattern.readings_one_seq_cons, readings_atEnd_cons, List.append_nil, beq_iff_eq]

/-- A remark does not begin with a blank. -/
theorem refuses_remark : remarkPattern.Refuses isBlank := by
  intro c cs hc
  rw [readings_remark_cons, if_neg (Text.ne_of_isBlank hc rfl)]

/-- Nothing else begins a tail. -/
theorem readings_tail_cons (hblank : isBlank c = false) (hremark : c ≠ ';') :
    (seq (many isBlank) remarkPattern).readings (c :: cs) = [] := by
  rw [readings_blanks_seq refuses_remark, Text.trimStart,
    List.dropWhile_cons_of_neg (by simp [hblank]), readings_remark_cons, if_neg hremark]

/-- The pattern of a tail matches tails. -/
theorem readings_tail (hline : '\n' ∉ cs) :
    (seq (many isBlank) remarkPattern).readings cs = if isTail cs then [([], [])] else [] := by
  have hkept : '\n' ∉ Text.trimStart cs := fun hmem => hline (List.dropWhile_subset _ hmem)
  rw [readings_blanks_seq refuses_remark, isTail]
  generalize Text.trimStart cs = tail at hkept
  cases tail with
  | nil => rfl
  | cons c comment =>
    have hatEnd : atEnd.Refuses (· != '\n') := fun _ _ _ => readings_atEnd_cons
    have hall : comment.dropWhile (· != '\n') = [] := by
      rw [List.dropWhile_eq_nil_iff]
      intro d hd
      have hne := ne_of_mem_of_not_mem hd fun hmem => hkept (List.mem_cons_of_mem c hmem)
      exact bne_iff_ne.mpr hne
    rw [readings_remark_cons, hatEnd.readings_many_seq, hall]
    simp [Pattern.readings]

/-- Behind the digits a suffix may stand before the tail. -/
theorem readings_end (cs : List Char) :
    endPattern.readings cs = (seq (many isBlank) remarkPattern).readings (withoutSuffix cs) := by
  rw [endPattern, Pattern.readings_optional_seq]
  cases cs with
  | nil => rfl
  | cons c cs =>
    rw [readings_letter_seq_cons, withoutSuffix_cons]
    by_cases hc : c.toLower = 'h'
    · -- The reading that leaves the suffix out fails: it is neither a blank nor a comment.
      have hnone : (seq (many isBlank) remarkPattern).readings (c :: cs) = [] := by
        obtain rfl | rfl := (Text.toLower_eq_small_iff 'h' 'H' c).mp hc
        · exact readings_tail_cons (by decide) (by decide)
        · exact readings_tail_cons (by decide) (by decide)
      rw [if_pos hc, if_pos hc, hnone, List.append_nil]
    · rw [if_neg hc, if_neg hc, List.nil_append]

/-- A digit begins nothing that may stand behind digits. -/
theorem refuses_end : endPattern.Refuses isDigit := by
  intro c cs hc
  obtain ⟨-, -, -, hsmall, hcapital, hblank⟩ := Address.of_isSome_digit? hc
  have hsuffix : ¬ c.toLower = 'h' := by
    rw [Text.toLower_eq_small_iff 'h' 'H' c]
    exact not_or.mpr ⟨hsmall, hcapital⟩
  have hremark : c ≠ ';' := by
    rintro rfl
    exact absurd hc (by decide)
  rw [readings_end, withoutSuffix_cons, if_neg hsuffix, readings_tail_cons hblank hremark]

/-- The pattern of a number takes all digits that there are. -/
theorem readings_number (cs : List Char) :
    numberPattern.readings cs =
      if (cs.takeWhile isDigit).isEmpty then []
      else (endPattern.readings (cs.dropWhile isDigit)).map fun (groups, left) =>
        (cs.takeWhile isDigit :: groups, left) := by
  rw [numberPattern, refuses_end.readings_group_seq]

/-- A number begins with a digit. -/
theorem refuses_number : numberPattern.Refuses (fun c => !isDigit c) := by
  intro c cs hc
  have hnone : (c :: cs).takeWhile isDigit = [] := List.takeWhile_cons_of_neg (by simpa using hc)
  rw [readings_number, hnone]
  rfl

/-- The digit of `0x` is not the whole number. -/
theorem readings_number_radix (hc : c.toLower = 'x') :
    numberPattern.readings ('0' :: c :: cs) = [] := by
  have hradix := (Text.toLower_eq_small_iff 'x' 'X' c).mp hc
  have hdigit : isDigit c = false := by
    obtain rfl | rfl := hradix <;> decide
  have hnone : endPattern.readings (c :: cs) = [] := by
    obtain rfl | rfl := hradix
    all_goals
      rw [readings_end, withoutSuffix_cons, if_neg (by decide)]
      exact readings_tail_cons (by decide) (by decide)
  rw [readings_number, List.dropWhile_cons_of_pos (by decide),
    List.dropWhile_cons_of_neg (by simp [hdigit]), hnone]
  simp

/-- A blank is no digit. -/
theorem not_isDigit_of_isBlank (hc : isBlank c = true) : isDigit c = false := by
  rw [Bool.eq_false_iff]
  intro hdigit
  obtain ⟨-, -, -, -, -, hblank⟩ := Address.of_isSome_digit? hdigit
  rw [hc] at hblank
  cases hblank

/-- The mark of hexadecimal is taken where there is one, since no number begins with `$` or `0x`. -/
theorem readings_radix (cs : List Char) :
    (seq radixPattern numberPattern).readings cs =
      numberPattern.readings (Text.Hex.withoutRadix cs) := by
  rw [radixPattern, Pattern.readings_optional_seq, Pattern.readings_either_seq,
    Pattern.readings_seq_seq]
  cases cs with
  | nil => rfl
  | cons c cs =>
    rw [Pattern.readings_one_seq_cons, Pattern.readings_one_seq_cons,
      Text.Hex.withoutRadix_cons]
    by_cases hdollar : c = '$'
    · subst hdollar
      simp [refuses_number '$' cs (by decide)]
    · by_cases hzero : c = '0'
      · subst hzero
        cases cs with
        | nil => simp [readings_letter_seq_nil]
        | cons d rest =>
          have hboth := Text.toLower_eq_small_iff 'x' 'X' d
          by_cases hd : d.toLower = 'x'
          · simp [readings_letter_seq_cons, hd, hboth.mp hd, readings_number_radix hd]
          · simp [readings_letter_seq_cons, hd, mt hboth.mpr hd]
      · simp [hdollar, hzero]

/-- A number with its prefix does not begin with a blank. -/
theorem refuses_radix : (seq radixPattern numberPattern).Refuses isBlank := by
  intro c cs hc
  have hdollar : c ≠ '$' := Text.ne_of_isBlank hc rfl
  have hzero : c ≠ '0' := Text.ne_of_isBlank hc rfl
  rw [readings_radix, Text.Hex.withoutRadix_cons, if_neg hdollar,
    if_neg fun h => hzero h.1]
  exact refuses_number c cs (by simp [not_isDigit_of_isBlank hc])

/-- A sign does not begin with a blank. -/
theorem refuses_sign : (seq signPattern k).Refuses isBlank := by
  intro c cs hc
  have hsign : c ≠ '=' := Text.ne_of_isBlank hc rfl
  have hdot : c ≠ '.' := Text.ne_of_isBlank hc rfl
  have hequ : c.toLower ≠ 'e' := by
    intro hlower
    rw [Text.toLower_eq_small_iff 'e' 'E' c] at hlower
    exact hlower.elim (Text.ne_of_isBlank hc rfl) (Text.ne_of_isBlank hc rfl)
  rw [readings_sign_seq, afterSign?_cons, if_neg hsign, if_neg hdot, afterEqu?_of_toLower_ne hequ]
  rfl

/-- What stands behind the word is the end of the line. -/
theorem suffix_of_afterEqu? {rest : List Char} (h : afterEqu? cs = some rest) : rest <:+ cs := by
  unfold afterEqu? at h
  split at h
  · next e q u tail =>
    split at h
    · cases h
      exact ⟨[e, q, u], rfl⟩
    · cases h
  · cases h

/-- What stands behind a sign is the end of the line. -/
theorem suffix_of_afterSign? {rest : List Char} (h : afterSign? cs = some rest) : rest <:+ cs := by
  unfold afterSign? at h
  split at h
  · cases h
    exact List.suffix_cons _ _
  · exact (suffix_of_afterEqu? h).trans (List.suffix_cons _ _)
  · exact suffix_of_afterEqu? h

/-- What stands behind the prefix is the end of the line. -/
theorem withoutRadix_suffix (cs : List Char) : Text.Hex.withoutRadix cs <:+ cs := by
  unfold Text.Hex.withoutRadix
  split
  · exact List.suffix_cons _ _
  · exact ⟨['0', 'x'], rfl⟩
  · exact ⟨['0', 'X'], rfl⟩
  · exact List.suffix_refl _

/-- What stands behind the suffix is the end of the line. -/
theorem withoutSuffix_suffix (cs : List Char) : withoutSuffix cs <:+ cs := by
  unfold withoutSuffix
  split
  · exact List.suffix_cons _ _
  · exact List.suffix_cons _ _
  · exact List.suffix_refl _

/-- What stands behind a name is read in one way. -/
theorem readings_value (hline : '\n' ∉ cs) :
    valuePattern.readings cs = (digitsAfterName? cs).toList.map fun digits => ([digits], []) := by
  rw [valuePattern, readings_blanks_seq refuses_sign, readings_sign_seq, digitsAfterName?]
  cases hsign : afterSign? (Text.trimStart cs) with
  | none => rfl
  | some rest =>
    have hnumber : Text.Hex.withoutRadix (Text.trimStart rest) <:+ cs :=
      (withoutRadix_suffix _).trans ((List.dropWhile_suffix _).trans
        ((suffix_of_afterSign? hsign).trans (List.dropWhile_suffix _)))
    simp only [Option.elim_some, Option.bind_eq_bind, Option.bind_some]
    rw [readings_blanks_seq refuses_radix, readings_radix, readings_number]
    generalize Text.Hex.withoutRadix (Text.trimStart rest) = number at hnumber
    have htail : withoutSuffix (number.dropWhile isDigit) <:+ cs :=
      (withoutSuffix_suffix _).trans ((List.dropWhile_suffix _).trans hnumber)
    rw [readings_end, readings_tail fun hmem => hline (htail.mem hmem)]
    change _ = ((if (number.takeWhile isDigit).isEmpty then none
      else if isTail (withoutSuffix (number.dropWhile isDigit)) then
        some (number.takeWhile isDigit)
      else none : Option (List Char)).toList.map _)
    split
    · rfl
    · split <;> rfl

/-- Names are tried from the longest on. -/
theorem splitAtName?_eq (line : List Char) (n : Nat) :
    splitAtName? line n = ((List.range n).reverse.flatMap fun m =>
      (digitsAfterName? (line.drop (m + 1))).toList.map fun digits =>
        (line.take (m + 1), digits)).head? := by
  induction n with
  | zero => rfl
  | succ n ih =>
    rw [splitAtName?, List.range_succ, List.reverse_append, List.reverse_singleton,
      List.singleton_append, List.flatMap_cons, List.head?_append, ih]
    cases digitsAfterName? (line.drop (n + 1)) <;> rfl

/-- A blank starts no name. -/
theorem not_isNameStart_of_isBlank (hc : isBlank c = true) : isNameStart c = false := by
  rw [Bool.eq_false_iff]
  intro hstart
  have hcode : ((((65 ≤ c.toNat ∧ c.toNat ≤ 90) ∨ (97 ≤ c.toNat ∧ c.toNat ≤ 122)) ∨
      c.toNat = 95) ∨ c.toNat = 46) ∨ c.toNat = 0x17F ∨ c.toNat = 0x212A := by
    simpa [isNameStart, Char.isAlpha, Char.isUpper, Char.isLower, UInt32.le_iff_toNat_le,
      ← Char.toNat_inj, or_assoc] using hstart
  simp only [isBlank, Bool.or_eq_true, Bool.and_eq_true, decide_eq_true_eq, beq_iff_eq] at hc
  omega

/-- A blank stands in no name. -/
theorem not_isNameCharacter_of_isBlank (hc : isBlank c = true) : isNameCharacter c = false := by
  have hdot : c ≠ '.' := Text.ne_of_isBlank hc rfl
  rw [isNameCharacter, Text.not_isWordCharacter_of_isBlank hc, beq_eq_false_iff_ne.mpr hdot,
    Bool.or_false]

/-- The match of a trimmed line is the definition with the longest name. -/
theorem captures_definition (hblank : isBlank c = false) (hline : '\n' ∉ cs) :
    definitionPattern.captures (c :: cs) =
      if isNameStart c then
        (splitAtName? (c :: cs) (1 + (cs.takeWhile isNameCharacter).length)).map
          fun (name, digits) => [name, digits]
      else none := by
  have hname : (seq (group (seq (one isNameStart) (many isNameCharacter))) valuePattern).Refuses
      isBlank := .group_seq fun _ => not_isNameStart_of_isBlank
  rw [Pattern.captures, definitionPattern, readings_blanks_seq hname, Text.trimStart,
    List.dropWhile_cons_of_neg (by simp [hblank])]
  by_cases hstart : isNameStart c = true
  · have hvalue : ∀ n, valuePattern.readings (cs.drop n) =
        (digitsAfterName? (cs.drop n)).toList.map fun digits => ([digits], []) :=
      fun n => readings_value fun hmem => hline (List.mem_of_mem_drop hmem)
    rw [Pattern.readings_group_seq hstart, if_pos hstart, splitAtName?_eq, Nat.add_comm 1]
    simp only [hvalue, List.map_map, ← List.head?_map, List.map_flatMap, List.drop_succ_cons]
    rfl
  · have hother : (seq (group (seq (one isNameStart) (many isNameCharacter))) valuePattern).Refuses
        (!isNameStart ·) := .group_seq fun _ hc => by simpa using hc
    rw [hother c cs (by simpa using hstart), if_neg hstart]
    rfl

end Z80Debugger.Symbols.File
