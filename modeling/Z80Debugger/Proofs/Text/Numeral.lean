import Z80Debugger.Proofs.Text.Lines
import Z80Debugger.Proofs.Text.Words

/-!
# Numerals

A numeral is a row of hexadecimal digits, the most significant one first, and at most one mark on
either side that says so.  No mark has a character that could be taken for a digit where it stands,
so there is only one way to take a text apart.  `number?_eq_some_iff` says that exactly the numerals
below `2 ^ 32` are numbers, and `parse?_numeral_or_label` what becomes of a text in either case.
-/

set_option autoImplicit false

namespace Z80Debugger

namespace Text

/-- The second text is the first without the blanks at its two ends. -/
structure IsTrimmed (cs t : List Char) : Prop where
  split : ∃ lead rest, cs = lead ++ t ++ rest ∧ ∀ b ∈ lead ++ rest, isBlank b = true
  first : ∀ c, t.head? = some c → isBlank c = false
  last : ∀ c, t.getLast? = some c → isBlank c = false

/-- What `trimEnd` takes away are blanks, up to a character that is none. -/
theorem exists_trimEnd_append (cs : List Char) :
    (∃ rest, cs = trimEnd cs ++ rest ∧ ∀ b ∈ rest, isBlank b = true) ∧
      ∀ c, (trimEnd cs).getLast? = some c → isBlank c = false := by
  constructor
  · refine ⟨(cs.reverse.takeWhile isBlank).reverse, ?_, ?_⟩
    · rw [trimEnd, ← List.reverse_append, List.takeWhile_append_dropWhile, List.reverse_reverse]
    · intro b hb
      exact List.mem_takeWhile_imp (List.mem_reverse.mp hb)
  · intro c hc
    rw [trimEnd, List.getLast?_reverse] at hc
    have hkept := List.head?_dropWhile_not isBlank cs.reverse
    rw [hc] at hkept
    exact hkept

/-- Trimming leaves a trimmed text. -/
theorem isTrimmed_trim (cs : List Char) : IsTrimmed cs (trim cs) := by
  obtain ⟨⟨rest, hrest, hblank⟩, hlast⟩ := exists_trimEnd_append (trimStart cs)
  rw [← trim] at hrest hlast
  refine ⟨⟨cs.takeWhile isBlank, rest, ?_, ?_⟩, ?_, hlast⟩
  · rw [List.append_assoc, ← hrest, trimStart, List.takeWhile_append_dropWhile]
  · intro b hb
    rcases List.mem_append.mp hb with hb | hb
    · exact List.mem_takeWhile_imp hb
    · exact hblank b hb
  · intro c hc
    have hkept := List.head?_dropWhile_not isBlank cs
    rw [← trimStart, hrest, List.head?_append, hc] at hkept
    exact hkept

namespace Hex

/-- The value of a digit is its place in the row of digits, in either case. -/
def DigitOf (c : Char) (d : Nat) : Prop :=
  "0123456789abcdef".toList[d]? = some c ∨ "0123456789ABCDEF".toList[d]? = some c

/-- A numeral and its value. -/
inductive Numeral : List Char → Nat → Prop where
  | marked {radix digits suffix : List Char} {values : List Nat}
    (hradix : radix ∈ [[], ['$'], ['0', 'x'], ['0', 'X']]) (hne : digits ≠ [])
    (hdigits : List.Forall₂ DigitOf digits values) (hsuffix : suffix ∈ [[], ['h'], ['H']]) :
    Numeral (radix ++ digits ++ suffix) (Nat.ofDigits 16 values.reverse)

variable {c : Char} {cs digits : List Char} {d v : Nat} {w : UInt32}

/-- The digits by the row that they stand in. -/
theorem exists_digitOf (h : (digit? c).isSome = true) : ∃ d, DigitOf c d := by
  have hcode := toNat_of_isSome_digit? h
  have hc := Char.ofNat_toNat c
  generalize c.toNat = n at hcode hc
  subst hc
  obtain ⟨hfirst, hlast⟩ | ⟨hfirst, hlast⟩ | ⟨hfirst, hlast⟩ := hcode
  · refine ⟨n - 48, .inl ?_⟩
    interval_cases n <;> rfl
  · refine ⟨n - 55, .inr ?_⟩
    interval_cases n <;> rfl
  · refine ⟨n - 87, .inl ?_⟩
    interval_cases n <;> rfl

/-- A digit is read with its value. -/
theorem DigitOf.digit?_eq (h : DigitOf c d) : digit? c = some d := by
  have hd : d < 16 := by
    rcases h with h | h <;> exact (List.getElem?_eq_some_iff.mp h).1
  rcases h with h | h
  all_goals
    interval_cases d
    all_goals
      obtain rfl := Option.some.inj h
      rfl

/-- A character is read with a value exactly if it is a digit of that value. -/
theorem digit?_eq_some_iff : digit? c = some d ↔ DigitOf c d := by
  constructor
  · intro h
    obtain ⟨e, he⟩ := exists_digitOf (Option.isSome_of_eq_some h)
    have hsame := h.symm.trans he.digit?_eq
    rwa [Option.some.inj hsame]
  · exact DigitOf.digit?_eq

/-- The accumulator counts as one more digit in front of all others. -/
theorem valueFrom?_eq_some_iff {acc : Nat} :
    valueFrom? acc cs = some v ↔
      ∃ values, List.Forall₂ DigitOf cs values ∧ Nat.ofDigits 16 (values.reverse ++ [acc]) = v := by
  induction cs generalizing acc with
  | nil => simp [valueFrom?, List.forall₂_nil_left_iff]
  | cons c cs ih =>
    have hjoin (d : Nat) (values : List Nat) :
        Nat.ofDigits 16 (values.reverse ++ [16 * acc + d]) =
          Nat.ofDigits 16 ((d :: values).reverse ++ [acc]) := by
      rw [List.reverse_cons, List.append_assoc, Nat.ofDigits_append, Nat.ofDigits_append]
      simp [Nat.ofDigits_cons, Nat.add_comm]
    rw [valueFrom?]
    constructor
    · intro h
      cases hd : digit? c with
      | none => simp [hd] at h
      | some d =>
        rw [hd] at h
        obtain ⟨values, hvalues, hv⟩ := ih.mp h
        exact ⟨d :: values, .cons (digit?_eq_some_iff.mp hd) hvalues, by rw [← hjoin, hv]⟩
    · rintro ⟨values, hvalues, hv⟩
      cases hvalues with
      | @cons _ d _ values hd hvalues =>
        rw [digit?_eq_some_iff.mpr hd]
        exact ih.mpr ⟨values, hvalues, by rw [hjoin, hv]⟩

/-- A text has a value exactly if it is digits that have it in base 16. -/
theorem value?_eq_some_iff :
    value? cs = some v ↔
      cs ≠ [] ∧ ∃ values, List.Forall₂ DigitOf cs values ∧ Nat.ofDigits 16 values.reverse = v := by
  have hzero (values : List Nat) :
      Nat.ofDigits 16 (values.reverse ++ [0]) = Nat.ofDigits 16 values.reverse := by
    rw [Nat.ofDigits_append, Nat.ofDigits_singleton, Nat.mul_zero, Nat.add_zero]
  rw [value?]
  split
  · next h => simp [List.isEmpty_iff.mp h]
  · next h =>
    rw [valueFrom?_eq_some_iff]
    simp only [hzero, ne_eq, List.isEmpty_iff.not.mp h, not_false_eq_true, true_and]

/-- A text is a word exactly if its value fits. -/
theorem word?_eq_some_iff : word? cs = some w ↔ value? cs = some w.toNat := by
  rw [word?]
  cases value? cs with
  | none => simp
  | some v =>
    simp only [Option.some.injEq, Option.ite_none_right_eq_some, ← UInt32.toNat_inj,
      UInt32.toNat_ofNat']
    have hw := w.toNat_lt
    omega

/-- The mark that is taken away at the start. -/
theorem exists_radix_append (cs : List Char) :
    ∃ radix ∈ [[], ['$'], ['0', 'x'], ['0', 'X']], radix ++ withoutRadix cs = cs := by
  unfold withoutRadix
  split
  · exact ⟨['$'], by simp, rfl⟩
  · exact ⟨['0', 'x'], by simp, rfl⟩
  · exact ⟨['0', 'X'], by simp, rfl⟩
  · exact ⟨[], by simp, rfl⟩

end Hex

end Text

namespace Address

open Text.Hex (Numeral digit? value? word?)

variable {digits suffix : List Char} {w : UInt32}

/-- The mark that is taken away at the end. -/
theorem exists_append_suffix (cs : List Char) :
    ∃ suffix ∈ [[], ['h'], ['H']], withoutSuffix cs ++ suffix = cs := by
  unfold withoutSuffix
  split
  · next h => exact ⟨['h'], by simp, List.dropLast_append_getLast? _ h⟩
  · next h => exact ⟨['H'], by simp, List.dropLast_append_getLast? _ h⟩
  · exact ⟨[], by simp, List.append_nil cs⟩

/-- The suffix is taken off behind the digits. -/
theorem withoutSuffix_append (hdigits : ∀ c ∈ digits, (digit? c).isSome = true)
    (hsuffix : suffix ∈ [[], ['h'], ['H']]) : withoutSuffix (digits ++ suffix) = digits := by
  simp only [List.mem_cons, List.not_mem_nil, or_false] at hsuffix
  obtain rfl | rfl | rfl := hsuffix
  · rw [List.append_nil, withoutSuffix]
    split
    · next h => exact absurd rfl (of_isSome_digit? (hdigits 'h' (List.mem_of_getLast? h))).2.2.2.1
    · next h => exact absurd rfl (of_isSome_digit? (hdigits 'H' (List.mem_of_getLast? h))).2.2.2.2.1
    · rfl
  · simp [withoutSuffix]
  · simp [withoutSuffix]

/-- The prefix is taken off before the digits. -/
theorem withoutRadix_numeral {radix : List Char}
    (hradix : radix ∈ [[], ['$'], ['0', 'x'], ['0', 'X']]) (hne : digits ≠ [])
    (hdigits : ∀ c ∈ digits, (digit? c).isSome = true) (hsuffix : suffix ∈ [[], ['h'], ['H']]) :
    Text.Hex.withoutRadix (radix ++ digits ++ suffix) = digits ++ suffix := by
  have hnext : ∀ c, suffix.head? = some c → c ≠ 'x' ∧ c ≠ 'X' := by
    simp only [List.mem_cons, List.not_mem_nil, or_false] at hsuffix
    obtain rfl | rfl | rfl := hsuffix <;> simp
  simp only [List.mem_cons, List.not_mem_nil, or_false] at hradix
  obtain rfl | rfl | rfl | rfl := hradix
  · exact Text.Hex.withoutRadix_of_digits hne hdigits hnext
  · rfl
  · rfl
  · rfl

/-- Exactly the numerals below `2 ^ 32` are numbers. -/
theorem number?_eq_some_iff {cs : List Char} : number? cs = some w ↔ Numeral cs w.toNat := by
  rw [number?, Text.Hex.word?_eq_some_iff, Text.Hex.value?_eq_some_iff]
  constructor
  · rintro ⟨hne, values, hdigits, hvalue⟩
    obtain ⟨radix, hradix, hcs⟩ := Text.Hex.exists_radix_append cs
    obtain ⟨suffix, hsuffix, hrest⟩ := exists_append_suffix (Text.Hex.withoutRadix cs)
    rw [← hvalue, ← hcs, ← hrest, ← List.append_assoc]
    exact .marked hradix hne hdigits hsuffix
  · intro h
    generalize w.toNat = v at h
    cases h with
    | @marked radix digits suffix values hradix hne hdigits hsuffix =>
      have hvalue : value? digits = some (Nat.ofDigits 16 values.reverse) :=
        Text.Hex.value?_eq_some_iff.mpr ⟨hne, values, hdigits, rfl⟩
      have hall := (Text.Hex.digits_of_value? hvalue).2
      rw [withoutRadix_numeral hradix hne hall hsuffix, withoutSuffix_append hall hsuffix]
      exact ⟨hne, values, hdigits, rfl⟩

/-- A text without the blanks around it is a number if it is a numeral with a value below `2 ^ 32`,
and has this value then, whatever labels there are.  Every other text, and so a numeral with a value
of `2 ^ 32` or more, has the address of the label that it spells without the blanks, and none where
there are no labels. -/
theorem parse?_numeral_or_label (cs : List Char) :
    ∃ t, Text.IsTrimmed cs t ∧
      (∀ v, Numeral t v → v < 0x100000000 → ∀ labels, parse? labels cs = some (UInt32.ofNat v)) ∧
      ((∀ v, Numeral t v → 0x100000000 ≤ v) →
        (∀ labels, parse? labels cs = labels (String.ofList t)) ∧ parse? .none cs = none) := by
  refine ⟨Text.trim cs, Text.isTrimmed_trim cs, ?_, ?_⟩
  · intro v hv hlt labels
    apply parse?_of_number?
    rw [number?_eq_some_iff, UInt32.toNat_ofNat', Nat.mod_eq_of_lt hlt]
    exact hv
  · intro hlarge
    have hnone : number? (Text.trim cs) = none := by
      rw [Option.eq_none_iff_forall_ne_some]
      intro w hw
      exact absurd (hlarge _ (number?_eq_some_iff.mp hw)) (Nat.not_le.mpr w.toNat_lt)
    exact ⟨fun labels => parse?_of_number?_eq_none hnone, parse?_of_number?_eq_none hnone⟩

example : parse? (fun _ => some 1) " 0X0000bEEFh\t".toList = some 0xBEEF := by
  decide +kernel

example : parse? (fun _ => some 1) "0x100000000".toList = some 1 := by
  decide +kernel

end Address

end Z80Debugger
