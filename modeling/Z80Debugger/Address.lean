import Z80Debugger.Memory.Layout
import Z80Debugger.Text.Hex

/-!
# Addresses as text

A number is one or more hexadecimal digits in either case, with an optional `$`, `0x` or `0X` before
and an optional `h` or `H` behind, and is less than `2 ^ 32`.  What does not read as a number is
looked up as a label; what does is never a label.  A physical address may also be given as a page
and an offset with a colon between them.  The main statement, `parse?_padded`, says that digits as
they are written are read back, whatever labels there are.
-/

set_option autoImplicit false

namespace Z80Debugger

/-- The addresses of labels. -/
abbrev Labels : Type := String → Option UInt32

namespace Labels

/-- No label has an address. -/
def none : Labels := fun _ => Option.none

end Labels

namespace Address

/-- The text without one mark of hexadecimal at its end. -/
def withoutSuffix (cs : List Char) : List Char :=
  match cs.getLast? with
  | some 'h' | some 'H' => cs.dropLast
  | _ => cs

/-- The value of a number. -/
def number? (cs : List Char) : Option UInt32 :=
  Text.Hex.word? (withoutSuffix (Text.Hex.withoutRadix cs))

/-- The address that a text gives, as a number or as a label. -/
def parse? (labels : Labels) (cs : List Char) : Option UInt32 :=
  let t := Text.trim cs
  (number? t).or (labels (String.ofList t))

/-- The physical address that a page and an offset give. -/
def parsePaged? (layout : Layout) (labels : Labels) (cs : List Char) : Option UInt32 := do
  let (page, offset) ← Text.splitFirst? ':' cs
  let page ← parse? labels page
  let offset ← parse? labels offset
  return layout.pageAddress page offset

/-- A number is read whatever labels there are. -/
theorem parse?_of_number? {labels : Labels} {cs : List Char} {v : UInt32}
    (h : number? (Text.trim cs) = some v) : parse? labels cs = some v := by
  simp [parse?, h]

/-- What is no number is looked up as a label. -/
theorem parse?_of_number?_eq_none {labels : Labels} {cs : List Char}
    (h : number? (Text.trim cs) = none) :
    parse? labels cs = labels (String.ofList (Text.trim cs)) := by
  simp [parse?, h]

/-- A digit is none of the characters that stand around a number, and no blank. -/
theorem of_isSome_digit? {c : Char} (h : (Text.Hex.digit? c).isSome = true) :
    c ≠ '$' ∧ c ≠ 'x' ∧ c ≠ 'X' ∧ c ≠ 'h' ∧ c ≠ 'H' ∧ Text.isBlank c = false := by
  have hvalue := Text.Hex.toNat_of_isSome_digit? h
  refine ⟨?_, ?_, ?_, ?_, ?_, ?_⟩
  case refine_6 =>
    simp only [Text.isBlank, Bool.or_eq_false_iff, Bool.and_eq_false_iff, decide_eq_false_iff_not,
      beq_eq_false_iff_ne]
    omega
  all_goals
    rintro rfl
    simp at hvalue

/-- Digits are read as the number they are, whatever labels there are. -/
theorem parse?_of_forall_digit {cs : List Char}
    (hdigit : ∀ c ∈ cs, (Text.Hex.digit? c).isSome = true) {w : UInt32}
    (h : Text.Hex.word? cs = some w) (labels : Labels) :
    parse? labels cs = some w := by
  have htrim := Text.trim_of_forall_not fun c hc => (of_isSome_digit? (hdigit c hc)).2.2.2.2.2
  have hradix : Text.Hex.withoutRadix cs = cs := by
    unfold Text.Hex.withoutRadix
    split
    · exact absurd rfl (of_isSome_digit? (hdigit '$' (by simp))).1
    · exact absurd rfl (of_isSome_digit? (hdigit 'x' (by simp))).2.1
    · exact absurd rfl (of_isSome_digit? (hdigit 'X' (by simp))).2.2.1
    · rfl
  have hsuffix : withoutSuffix cs = cs := by
    unfold withoutSuffix
    split
    · next heq =>
      exact absurd rfl (of_isSome_digit? (hdigit 'h' (List.mem_of_getLast? heq))).2.2.2.1
    · next heq =>
      exact absurd rfl (of_isSome_digit? (hdigit 'H' (List.mem_of_getLast? heq))).2.2.2.2.1
    · rfl
  apply parse?_of_number?
  rw [htrim, number?, hradix, hsuffix, h]

/-- What was written is read back, whatever labels there are. -/
theorem parse?_padded (labels : Labels) (width : Nat) (w : UInt32) :
    parse? labels (Text.Hex.padded width w.toNat) = some w :=
  parse?_of_forall_digit (fun _ hc => Text.Hex.isSome_digit?_of_mem_padded hc)
    (Text.Hex.word?_padded width w) labels

end Address

end Z80Debugger
