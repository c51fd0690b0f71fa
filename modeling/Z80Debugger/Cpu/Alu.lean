/-!
# Flags and byte arithmetic

The flag bits, and what the byte operations do to the accumulator and the flags, as functions on
bytes.
-/

set_option autoImplicit false

namespace Z80Debugger

namespace Flag

/-- A carry or a borrow left the top bit. -/
def carry : UInt8 := 0x01

/-- The last operation was a subtraction. -/
def subtract : UInt8 := 0x02

/-- Even parity, or a signed overflow. -/
def parity : UInt8 := 0x04

/-- A carry left bit 3. -/
def halfCarry : UInt8 := 0x10

/-- The result is zero. -/
def zero : UInt8 := 0x40

/-- The top bit of the result. -/
def sign : UInt8 := 0x80

/-- Whether a flag is set in a flag register. -/
def isSet (flag f : UInt8) : Bool := f &&& flag != 0

end Flag

namespace Alu

/-- A flag, or nothing. -/
def flagIf (condition : Bool) (flag : UInt8) : UInt8 := if condition then flag else 0

/-- The sign and zero flags of a result. -/
def signZero (r : UInt8) : UInt8 := (r &&& Flag.sign) ||| flagIf (r == 0) Flag.zero

/-- Whether a byte has an even number of ones. -/
def evenParity (r : UInt8) : Bool :=
  ((List.range 8).countP fun i => r.toNat.testBit i) % 2 == 0

/-- The result and the flags of a sum with a carry. -/
def addWithCarry (a value : UInt8) (carry : Bool) : UInt8 × UInt8 :=
  let wide := a.toNat + value.toNat + carry.toNat
  let r := UInt8.ofNat wide
  let overflow := (a ^^^ r) &&& (value ^^^ r) &&& 0x80 != 0
  (r, signZero r ||| flagIf overflow Flag.parity ||| flagIf (0xFF < wide) Flag.carry)

/-- The result and the flags of a difference with a borrow. -/
def subWithBorrow (a value : UInt8) (borrow : Bool) : UInt8 × UInt8 :=
  let r := a - value - UInt8.ofNat borrow.toNat
  let overflow := (a ^^^ value) &&& (a ^^^ r) &&& 0x80 != 0
  (r, signZero r ||| flagIf overflow Flag.parity |||
    flagIf (a.toNat < value.toNat + borrow.toNat) Flag.carry ||| Flag.subtract)

/-- The flags of a bitwise operation. -/
def logicFlags (r : UInt8) : UInt8 := signZero r ||| flagIf (evenParity r) Flag.parity

/-- The new accumulator and flags after the operation with the given three-bit code. -/
def run (code a f value : UInt8) : UInt8 × UInt8 :=
  let carry := Flag.isSet Flag.carry f
  match code with
  | 0 => addWithCarry a value false
  | 1 => addWithCarry a value carry
  | 2 => subWithBorrow a value false
  | 3 => subWithBorrow a value carry
  | 4 => let r := a &&& value; (r, logicFlags r ||| Flag.halfCarry)
  | 5 => let r := a ^^^ value; (r, logicFlags r)
  | 7 => (a, (subWithBorrow a value false).2)
  | _ => let r := a ||| value; (r, logicFlags r)

/-- The flags after a byte was counted up to `r`. -/
def incFlags (f r : UInt8) : UInt8 :=
  (f &&& Flag.carry) ||| signZero r ||| flagIf (r == 0x80) Flag.parity

/-- The flags after a byte was counted down to `r`. -/
def decFlags (f r : UInt8) : UInt8 :=
  (f &&& Flag.carry) ||| signZero r ||| flagIf (r == 0x7F) Flag.parity ||| Flag.subtract

/-- The flags that 16-bit addition and the carry instructions leave alone. -/
def keptFlags (f : UInt8) : UInt8 := f &&& (Flag.sign ||| Flag.zero ||| Flag.parity)

/-- The sum of two words and the flags after it. -/
def addWords (f : UInt8) (x y : UInt16) : UInt16 × UInt8 :=
  (x + y, keptFlags f ||| flagIf (0xFFFF < x.toNat + y.toNat) Flag.carry)

end Alu

end Z80Debugger
