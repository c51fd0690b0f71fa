/-!
# Conditions

The eight conditions that a jump, a call or a return can carry, in the order of their three-bit
codes.  Each looks at one bit of the flag register: zero is 40, carry 01, parity 04 and sign 80.
-/

set_option autoImplicit false

namespace Z80Debugger

/-- A condition on the flag register. -/
inductive Condition where
  | nonZero
  | zero
  | noCarry
  | carry
  | parityOdd
  | parityEven
  | plus
  | minus
  deriving DecidableEq, Repr

namespace Condition

/-- The condition with the given three-bit code; higher bits are ignored. -/
def ofCode (code : UInt8) : Condition :=
  match code.toNat % 8 with
  | 0 => nonZero
  | 1 => zero
  | 2 => noCarry
  | 3 => carry
  | 4 => parityOdd
  | 5 => parityEven
  | 6 => plus
  | _ => minus

/-- Whether the condition holds of a flag register. -/
def holds : Condition → UInt8 → Bool
  | nonZero, f => f &&& 0x40 == 0
  | zero, f => f &&& 0x40 != 0
  | noCarry, f => f &&& 0x01 == 0
  | carry, f => f &&& 0x01 != 0
  | parityOdd, f => f &&& 0x04 == 0
  | parityEven, f => f &&& 0x04 != 0
  | plus, f => f &&& 0x80 == 0
  | minus, f => f &&& 0x80 != 0

/-- The condition as it is written in an instruction. -/
def text : Condition → String
  | nonZero => "nz"
  | zero => "z"
  | noCarry => "nc"
  | carry => "c"
  | parityOdd => "po"
  | parityEven => "pe"
  | plus => "p"
  | minus => "m"

end Condition

end Z80Debugger
