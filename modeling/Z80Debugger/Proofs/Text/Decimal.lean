import Z80Debugger.Text.Decimal
import Z80Debugger.Proofs.Text.Words

/-!
# Reading back decimal numerals

A number is written with the digits of its absolute value, behind a minus sign if it is negative.
Reading the digits onto an accumulator is what `Nat.ofDigitChars` counts, so a written number is
read back wherever it lies in the range of what is read.
-/

set_option autoImplicit false

namespace Z80Debugger.Text.Decimal

variable {cs : List Char} {n acc value : Nat}

/-- A text of digits has their value on top of the accumulator. -/
theorem valueFrom?_of_forall_isDigit (hdigits : ∀ c ∈ cs, c.isDigit = true) (acc : Nat) :
    valueFrom? acc cs = some (Nat.ofDigitChars 10 cs acc) := by
  induction cs generalizing acc with
  | nil => rfl
  | cons c cs ih =>
    obtain ⟨hc, hrest⟩ := List.forall_mem_cons.mp hdigits
    rw [valueFrom?, if_pos hc, ih hrest, Nat.ofDigitChars_cons]
    rfl

/-- Only digits have a value. -/
theorem isDigit_of_valueFrom? (hvalue : valueFrom? acc cs = some value) :
    ∀ c ∈ cs, c.isDigit = true := by
  induction cs generalizing acc with
  | nil => exact List.forall_mem_nil _
  | cons c cs ih =>
    rw [valueFrom?] at hvalue
    split at hvalue
    · next hc => exact List.forall_mem_cons.mpr ⟨hc, ih hvalue⟩
    · cases hvalue

/-- A decimal digit is no blank. -/
theorem not_isBlank_of_isDigit {c : Char} (hc : c.isDigit = true) : isBlank c = false := by
  simp only [Char.isDigit, Bool.and_eq_true, decide_eq_true_eq, ge_iff_le,
    UInt32.le_iff_toNat_le, Char.toNat_val] at hc
  obtain ⟨hlow, hhigh⟩ := hc
  change 48 ≤ c.toNat at hlow
  change c.toNat ≤ 57 at hhigh
  grind [isBlank]

/-- A text that has a value is a word of digits. -/
theorem isWord_of_value? (hvalue : value? cs ≠ none) : IsWord cs := by
  obtain ⟨value, hvalue⟩ := Option.ne_none_iff_exists'.mp hvalue
  unfold value? at hvalue
  split at hvalue
  · cases hvalue
  · next hne =>
    refine ⟨by simpa using hne, fun c hc => ?_⟩
    exact not_isBlank_of_isDigit (isDigit_of_valueFrom? hvalue c hc)

/-- A count is written in one word, in whatever way. -/
theorem isWord_of_count? (hcount : count? cs = some n) : IsWord cs := by
  unfold count? at hcount
  obtain ⟨hvalue, -⟩ := Option.filter_eq_some_iff.mp hcount
  split at hvalue
  · exact (isWord_of_value? (by simp [hvalue])).cons rfl
  · exact isWord_of_value? (by simp [hvalue])

/-- So is a distance. -/
theorem isWord_of_signed? {i : Int} (hsigned : signed? cs = some i) : IsWord cs := by
  unfold signed? at hsigned
  obtain ⟨hnumber, -⟩ := Option.filter_eq_some_iff.mp hsigned
  split at hnumber
  · refine (isWord_of_value? fun hnone => ?_).cons rfl
    rw [hnone] at hnumber
    cases hnumber
  · refine (isWord_of_value? fun hnone => ?_).cons rfl
    rw [hnone] at hnumber
    cases hnumber
  · refine isWord_of_value? fun hnone => ?_
    rw [hnone] at hnumber
    cases hnumber

/-- A number is written with decimal digits. -/
theorem isDigit_of_mem_toDigits {c : Char} (hc : c ∈ Nat.toDigits 10 n) : c.isDigit = true :=
  Nat.isDigit_of_mem_toDigits (by omega) (by omega) hc

/-- The digits of a number have it as their value. -/
theorem value?_toDigits (n : Nat) : value? (Nat.toDigits 10 n) = some n := by
  rw [value?, if_neg (by simp), valueFrom?_of_forall_isDigit fun _ => isDigit_of_mem_toDigits,
    Nat.ofDigitChars_toDigits (by omega) (by omega)]

/-- No sign stands in front of the digits. -/
theorem toDigits_ne_cons {sign : Char} (hsign : sign.isDigit = false) (rest : List Char) :
    Nat.toDigits 10 n ≠ sign :: rest := by
  intro heq
  have hdigit : sign.isDigit = true := by
    apply isDigit_of_mem_toDigits (n := n)
    rw [heq]
    exact List.mem_cons_self
  rw [hsign] at hdigit
  cases hdigit

/-- A written count is read back. -/
theorem count?_toString (hn : n < 0x10000000000000000) : count? (toString n).toList = some n := by
  rw [Nat.toString_eq_repr, Nat.toList_repr]
  unfold count?
  split
  · next heq => exact absurd heq (toDigits_ne_cons rfl _)
  · simp only [value?_toDigits]
    exact if_pos (decide_eq_true hn)

/-- A written distance is read back. -/
theorem signed?_toString {i : Int} (hlow : -0x80000000 ≤ i) (hhigh : i < 0x80000000) :
    signed? (toString i).toList = some i := by
  have hkept : (some i).filter (fun i => decide (-0x80000000 ≤ i ∧ i < 0x80000000)) = some i := by
    rw [Option.filter_some, if_pos (decide_eq_true ⟨hlow, hhigh⟩)]
  cases i with
  | ofNat n =>
    have htext : (toString (Int.ofNat n)).toList = Nat.toDigits 10 n := Nat.toList_repr
    rw [htext]
    unfold signed?
    split
    · next heq => exact absurd heq (toDigits_ne_cons rfl _)
    · next heq => exact absurd heq (toDigits_ne_cons rfl _)
    · simp only [value?_toDigits]
      exact hkept
  | negSucc n =>
    have htext : (toString (Int.negSucc n)).toList = '-' :: Nat.toDigits 10 (n + 1) := by
      rw [Int.toString_eq_repr, Int.repr, String.toList_append, Nat.toList_repr]
      rfl
    rw [htext]
    unfold signed?
    simp only [value?_toDigits]
    exact hkept

end Z80Debugger.Text.Decimal
