/-!
# Decimal numerals

Counts and signed distances as they stand in commands and options: ASCII digits after at most one
sign.  A count takes no minus sign, not even before zero.
-/

set_option autoImplicit false

namespace Z80Debugger.Text.Decimal

/-- Reads the digits one after another onto an accumulator. -/
def valueFrom? (acc : Nat) : List Char → Option Nat
  | [] => some acc
  | c :: cs => if c.isDigit then valueFrom? (10 * acc + (c.toNat - 48)) cs else none

/-- The value of a text that is one or more digits and nothing else. -/
def value? (cs : List Char) : Option Nat :=
  if cs.isEmpty then none else valueFrom? 0 cs

/-- A number below `2 ^ 64`, with an optional plus sign. -/
def count? (cs : List Char) : Option Nat :=
  let digits := match cs with
    | '+' :: rest => rest
    | _ => cs
  (value? digits).filter (· < 0x10000000000000000)

/-- A number from `-2 ^ 31` to `2 ^ 31 - 1`, with an optional sign. -/
def signed? (cs : List Char) : Option Int :=
  let number := match cs with
    | '-' :: rest => (value? rest).map fun n => -(n : Int)
    | '+' :: rest => (value? rest).map fun n => (n : Int)
    | _ => (value? cs).map fun n => (n : Int)
  number.filter fun i => decide (-0x80000000 ≤ i ∧ i < 0x80000000)

end Z80Debugger.Text.Decimal
