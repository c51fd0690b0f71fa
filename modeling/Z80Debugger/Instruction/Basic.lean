import Z80Debugger.Cpu.Condition

/-!
# Instructions

The instructions as a data type: what is decoded from memory, written out as text and run by the
processor.  An index register can take the place of `hl`; then `(hl)` becomes a place at a distance
from the index register, and `h` and `l` become its two halves.
-/

set_option autoImplicit false

namespace Z80Debugger

/-- The two index registers. -/
inductive IndexRegister where
  | ix
  | iy
  deriving DecidableEq, Repr

/-- The byte registers. -/
inductive Register8 where
  | b
  | c
  | d
  | e
  | h
  | l
  | a
  deriving DecidableEq, Repr

/-- The register pairs, and the 16-bit registers that can stand in their place. -/
inductive Pair where
  | bc
  | de
  | hl
  | sp
  | af
  | index (x : IndexRegister)
  deriving DecidableEq, Repr

/-- Where a byte is taken from or put to. -/
inductive Operand where
  | register (r : Register8)
  /-- The byte that `hl` points to. -/
  | atHl
  /-- The byte at a distance from an index register. -/
  | atIndex (x : IndexRegister) (d : UInt8)
  | highHalf (x : IndexRegister)
  | lowHalf (x : IndexRegister)
  deriving DecidableEq, Repr

/-- The byte operations between the accumulator and an operand. -/
inductive AluOp where
  | add
  | adc
  | sub
  | sbc
  | and
  | xor
  | or
  | cp
  deriving DecidableEq, Repr

/-- The one-byte operations on the accumulator and the flags. -/
inductive AccumulatorOp where
  | rlca
  | rrca
  | rla
  | rra
  | daa
  | cpl
  | scf
  | ccf
  deriving DecidableEq, Repr

/-- The shifts and rotations of an operand. -/
inductive ShiftOp where
  | rlc
  | rrc
  | rl
  | rr
  | sla
  | sra
  | sll
  | srl
  deriving DecidableEq, Repr

/-- What a block instruction does with each byte. -/
inductive BlockOp where
  | load
  | compare
  | input
  | output
  deriving DecidableEq, Repr

/-- The instructions behind ED that take no operand and move single registers. -/
inductive SystemOp where
  | loadIA
  | loadRA
  | loadAI
  | loadAR
  | rrd
  | rld
  | noOperation
  deriving DecidableEq, Repr

/-- An instruction with its operands. -/
inductive Instruction where
  | nop
  | exAf
  | djnz (d : UInt8)
  | jumpRelative (condition : Option Condition) (d : UInt8)
  | loadPair (dst : Pair) (value : UInt16)
  | addPair (dst src : Pair)
  /-- The instructions `ld (bc),a` and `ld (de),a`. -/
  | storeAtPair (place : Pair)
  /-- The instructions `ld a,(bc)` and `ld a,(de)`. -/
  | fetchAtPair (place : Pair)
  | storePair (address : UInt16) (src : Pair)
  | fetchPair (dst : Pair) (address : UInt16)
  | storeA (address : UInt16)
  | fetchA (address : UInt16)
  | incPair (p : Pair)
  | decPair (p : Pair)
  | inc (o : Operand)
  | dec (o : Operand)
  | load (dst : Operand) (value : UInt8)
  | accumulator (op : AccumulatorOp)
  | halt
  | move (dst src : Operand)
  | alu (op : AluOp) (src : Operand)
  | aluImmediate (op : AluOp) (value : UInt8)
  | ret (condition : Option Condition)
  | pop (p : Pair)
  | push (p : Pair)
  | exx
  /-- The instruction `jp (hl)`: the pair itself is the target. -/
  | jumpPair (p : Pair)
  | loadSp (src : Pair)
  | jump (condition : Option Condition) (target : UInt16)
  | call (condition : Option Condition) (target : UInt16)
  | restart (vector : UInt8)
  | output (port : UInt8)
  | input (port : UInt8)
  | exStack (p : Pair)
  | exDeHl
  | disableInterrupts
  | enableInterrupts
  | shift (op : ShiftOp) (o : Operand)
  | testBit (bit : Nat) (o : Operand)
  | resetBit (bit : Nat) (o : Operand)
  | setBit (bit : Nat) (o : Operand)
  /-- The instruction `in r,(c)`; without a register only the flags change. -/
  | inputC (r : Option Register8)
  /-- The instruction `out (c),r`; without a register a zero is sent. -/
  | outputC (r : Option Register8)
  | subtractPair (src : Pair)
  | addPairCarry (src : Pair)
  | negate
  | retInterrupt
  | retNonMaskable
  | interruptMode (mode : Nat)
  | system (op : SystemOp)
  | block (op : BlockOp) (downward repeated : Bool)
  /-- A byte behind ED that stands for no instruction. -/
  | undefinedExtended (op : UInt8)
  /-- An index prefix that the next prefix makes ineffective. -/
  | strayPrefix (x : IndexRegister)
  deriving DecidableEq, Repr

namespace IndexRegister

/-- The prefix byte of an index register. -/
def prefixByte : IndexRegister → UInt8
  | ix => 0xDD
  | iy => 0xFD

/-- The index register that a byte is the prefix of. -/
def ofPrefix? (b : UInt8) : Option IndexRegister :=
  if b == 0xDD then some ix else if b == 0xFD then some iy else none

end IndexRegister

end Z80Debugger
