import Z80Debugger.Text.Pieces

/-!
# Hexadecimal numerals

Numbers are written with capital digits, with leading zeros up to a least width, and read in either
case with any number of leading zeros.  The main statement, `value?_padded`, says that reading what
was written gives the number back.
-/

set_option autoImplicit false

namespace Z80Debugger.Text.Hex

/-- The value of a digit in either case. -/
def digit? (c : Char) : Option Nat :=
  if '0' ≤ c ∧ c ≤ '9' then some (c.toNat - 48)
  else if 'A' ≤ c ∧ c ≤ 'F' then some (c.toNat - 55)
  else if 'a' ≤ c ∧ c ≤ 'f' then some (c.toNat - 87)
  else none

/-- Reads the digits one after another onto an accumulator. -/
def valueFrom? (acc : Nat) : List Char → Option Nat
  | [] => some acc
  | c :: cs => match digit? c with
    | some d => valueFrom? (16 * acc + d) cs
    | none => none

/-- The value of a text that is one or more digits and nothing else. -/
def value? (cs : List Char) : Option Nat :=
  if cs.isEmpty then none else valueFrom? 0 cs

/-- The value of a text of digits that fits in 32 bits. -/
def word? (cs : List Char) : Option UInt32 :=
  match value? cs with
  | some v => if v < 0x100000000 then some (UInt32.ofNat v) else none
  | none => none

/-- The text without one mark of hexadecimal at its start, which is `$`, `0x` or `0X`. -/
def withoutRadix (cs : List Char) : List Char :=
  match cs with
  | '$' :: rest => rest
  | '0' :: 'x' :: rest => rest
  | '0' :: 'X' :: rest => rest
  | _ => cs

/-- The capital digit of a value below 16. -/
def digitChar (d : Nat) : Char := Char.ofNat (if d < 10 then 48 + d else 55 + d)

/-- The digits of a number, without leading zeros. -/
def digits (n : Nat) : List Char :=
  if n < 16 then [digitChar n] else digits (n / 16) ++ [digitChar (n % 16)]
termination_by n

/-- The digits of a number with leading zeros up to the width. -/
def padded (width n : Nat) : List Char :=
  List.replicate (width - (digits n).length) '0' ++ digits n

/-- The padded digits as a string. -/
def text (width n : Nat) : String := String.ofList (padded width n)

/-- The digits by their code points. -/
theorem toNat_of_isSome_digit? {c : Char} (h : (digit? c).isSome = true) :
    (48 ≤ c.toNat ∧ c.toNat ≤ 57) ∨ (65 ≤ c.toNat ∧ c.toNat ≤ 70) ∨
      (97 ≤ c.toNat ∧ c.toNat ≤ 102) := by
  simp only [digit?, Char.le_def, UInt32.le_iff_toNat_le, Char.toNat_val] at h
  grind

/-- A digit that is written is read again. -/
theorem digit?_digitChar {d : Nat} (h : d < 16) : digit? (digitChar d) = some d := by
  rcases d with _ | _ | _ | _ | _ | _ | _ | _ | _ | _ | _ | _ | _ | _ | _ | _ | d
  all_goals first | rfl | omega

/-- Every number has a digit. -/
theorem digits_ne_nil (n : Nat) : digits n ≠ [] := by
  rw [digits]
  split <;> simp

/-- Digits are read from left to right. -/
theorem valueFrom?_append (acc : Nat) (cs ds : List Char) :
    valueFrom? acc (cs ++ ds) = (valueFrom? acc cs).bind fun v => valueFrom? v ds := by
  induction cs generalizing acc with
  | nil => rfl
  | cons c cs ih =>
    simp only [List.cons_append, valueFrom?]
    cases digit? c with
    | none => rfl
    | some d => exact ih _

/-- A number that is written is read again. -/
theorem valueFrom?_digits (n : Nat) : valueFrom? 0 (digits n) = some n := by
  induction n using Nat.strongRecOn with
  | _ n ih =>
    rw [digits]
    split
    · next h => simp [valueFrom?, digit?_digitChar h]
    · next h =>
      rw [valueFrom?_append, ih (n / 16) (by omega)]
      simp only [Option.bind_some, valueFrom?, digit?_digitChar (Nat.mod_lt n (by omega))]
      congr 1
      omega

/-- Zeros in front do not matter. -/
theorem valueFrom?_replicate_zero (k : Nat) (cs : List Char) :
    valueFrom? 0 (List.replicate k '0' ++ cs) = valueFrom? 0 cs := by
  induction k with
  | zero => rfl
  | succ k ih =>
    simp only [List.replicate_succ, List.cons_append, valueFrom?]
    rw [show digit? '0' = some 0 from rfl]
    exact ih

/-- What was written is read back. -/
theorem value?_padded (width n : Nat) : value? (padded width n) = some n := by
  have hne : padded width n ≠ [] := by simp [padded, digits_ne_nil]
  rw [value?, List.isEmpty_eq_false_iff.mpr hne]
  simp [padded, valueFrom?_replicate_zero, valueFrom?_digits]

/-- Nothing but digits is written. -/
theorem isSome_digit?_of_mem_padded {width n : Nat} {c : Char} (h : c ∈ padded width n) :
    (digit? c).isSome = true := by
  have hdigits : ∀ m : Nat, ∀ d ∈ digits m, (digit? d).isSome = true := by
    intro m
    induction m using Nat.strongRecOn with
    | _ m ih =>
      intro d hd
      rw [digits] at hd
      split at hd
      · next hm => simp [List.mem_singleton.mp hd, digit?_digitChar hm]
      · next hm =>
        rcases List.mem_append.mp hd with hd | hd
        · exact ih (m / 16) (by omega) d hd
        · simp [List.mem_singleton.mp hd, digit?_digitChar (Nat.mod_lt m (by omega))]
  rcases List.mem_append.mp h with hc | hc
  · rw [(List.mem_replicate.mp hc).2]
    rfl
  · exact hdigits n c hc

/-- A word that is written with zeros in front is read again. -/
theorem word?_padded (width : Nat) (w : UInt32) : word? (padded width w.toNat) = some w := by
  simp [word?, value?_padded, w.toNat_lt]

end Z80Debugger.Text.Hex
