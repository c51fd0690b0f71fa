/-!
# Bytes and words

A word is two bytes, the low one first in memory.  A displacement byte stands for a distance from
-128 to 127 and is added to an address modulo `2 ^ 16`.
-/

set_option autoImplicit false

namespace Z80Debugger

/-- The word with the given low and high byte. -/
def wordOf (lo hi : UInt8) : UInt16 := hi.toUInt16 * 256 + lo.toUInt16

/-- The low byte of a word. -/
def lowByte (w : UInt16) : UInt8 := w.toUInt8

/-- The high byte of a word. -/
def highByte (w : UInt16) : UInt8 := (w / 256).toUInt8

/-- The word with another high byte. -/
def withHighByte (w : UInt16) (b : UInt8) : UInt16 := wordOf (lowByte w) b

/-- The word with another low byte. -/
def withLowByte (w : UInt16) (b : UInt8) : UInt16 := wordOf b (highByte w)

/-- The distance that a displacement byte stands for. -/
def displacement (d : UInt8) : Int := Int.bmod d.toNat 256

/-- The displacement as a word, to be added to an address modulo `2 ^ 16`. -/
def signExtend (d : UInt8) : UInt16 := if d < 0x80 then d.toUInt16 else 0xFF00 + d.toUInt16

/-- A word counts its high byte 256 times. -/
theorem toNat_wordOf (lo hi : UInt8) : (wordOf lo hi).toNat = hi.toNat * 256 + lo.toNat := by
  have h₁ := lo.toNat_lt
  have h₂ := hi.toNat_lt
  simp only [wordOf, UInt16.toNat_add, UInt16.toNat_mul, UInt8.toNat_toUInt16, UInt16.reduceToNat]
  omega

/-- The low byte of a word is what remains. -/
theorem toNat_lowByte (w : UInt16) : (lowByte w).toNat = w.toNat % 256 := by
  simp [lowByte]

/-- The high byte of a word counts its multiples of 256. -/
theorem toNat_highByte (w : UInt16) : (highByte w).toNat = w.toNat / 256 := by
  have h := w.toNat_lt
  simp only [highByte, UInt16.toNat_toUInt8, UInt16.toNat_div, UInt16.reduceToNat]
  omega

/-- A word is put together from its two bytes. -/
@[simp] theorem wordOf_lowByte_highByte (w : UInt16) : wordOf (lowByte w) (highByte w) = w := by
  apply UInt16.toNat_inj.mp
  rw [toNat_wordOf, toNat_lowByte, toNat_highByte]
  omega

end Z80Debugger
