import Z80Debugger.Cpu.Word
import Z80Debugger.Instruction.Basic

/-!
# Decoding

Four bytes always hold one whole instruction.  `Code.decode` says which it is, how many bytes it
takes and which index prefix stands before it.  An opcode byte splits into three fields: the top two
bits, the middle three and the low three; the middle field again splits into two bits and one.
-/

set_option autoImplicit false

namespace Z80Debugger

/-- The four bytes from an instruction's address on. -/
structure Code where
  first : UInt8
  second : UInt8
  third : UInt8
  fourth : UInt8
  deriving DecidableEq, Repr

/-- An instruction with its length and the index prefix before it. -/
structure Decoded where
  instruction : Instruction
  index : Option IndexRegister := none
  size : Nat
  deriving DecidableEq, Repr

namespace Register8

/-- The register with the given code; code 6 stands for memory and is not a register. -/
def ofCode? : Nat → Option Register8
  | 0 => some b
  | 1 => some c
  | 2 => some d
  | 3 => some e
  | 4 => some h
  | 5 => some l
  | 7 => some a
  | _ => none

end Register8

namespace Pair

/-- The pair that `hl` stands for behind an index prefix. -/
def hlOr : Option IndexRegister → Pair
  | none => hl
  | some x => index x

/-- The pairs of loads and 16-bit arithmetic. -/
def ofCode (x : Option IndexRegister) : Nat → Pair
  | 0 => bc
  | 1 => de
  | 2 => hlOr x
  | _ => sp

/-- The pairs that go onto the stack. -/
def ofStackCode (x : Option IndexRegister) : Nat → Pair
  | 0 => bc
  | 1 => de
  | 2 => hlOr x
  | _ => af

end Pair

namespace Operand

/-- The place in memory that code 6 stands for. -/
def memory : Option IndexRegister → UInt8 → Operand
  | none, _ => atHl
  | some x, d => atIndex x d

/-- The operand with the given code, where `h` and `l` keep their meaning. -/
def plain (x : Option IndexRegister) (d : UInt8) (code : Nat) : Operand :=
  match Register8.ofCode? code with
  | some r => register r
  | none => memory x d

/-- The operand with the given code, where an index prefix turns `h` and `l` into its halves. -/
def ofCode (x : Option IndexRegister) (d : UInt8) (code : Nat) : Operand :=
  match x, code with
  | some x, 4 => highHalf x
  | some x, 5 => lowHalf x
  | _, _ => plain x d code

/-- The number of displacement bytes that the operand takes. -/
def size : Operand → Nat
  | atIndex _ _ => 1
  | _ => 0

end Operand

namespace AluOp

/-- The operation with the given code. -/
def ofCode : Nat → AluOp
  | 0 => add
  | 1 => adc
  | 2 => sub
  | 3 => sbc
  | 4 => and
  | 5 => xor
  | 6 => or
  | _ => cp

end AluOp

namespace AccumulatorOp

/-- The operation with the given code. -/
def ofCode : Nat → AccumulatorOp
  | 0 => rlca
  | 1 => rrca
  | 2 => rla
  | 3 => rra
  | 4 => daa
  | 5 => cpl
  | 6 => scf
  | _ => ccf

end AccumulatorOp

namespace ShiftOp

/-- The operation with the given code. -/
def ofCode : Nat → ShiftOp
  | 0 => rlc
  | 1 => rrc
  | 2 => rl
  | 3 => rr
  | 4 => sla
  | 5 => sra
  | 6 => sll
  | _ => srl

end ShiftOp

namespace BlockOp

/-- The operation with the given code. -/
def ofCode : Nat → BlockOp
  | 0 => load
  | 1 => compare
  | 2 => input
  | _ => output

end BlockOp

namespace SystemOp

/-- The operation with the given code. -/
def ofCode : Nat → SystemOp
  | 0 => loadIA
  | 1 => loadRA
  | 2 => loadAI
  | 3 => loadAR
  | 4 => rrd
  | 5 => rld
  | _ => noOperation

end SystemOp

namespace Instruction

/-- The number of bytes behind the opcode byte that hold operands. -/
def operandSize : Instruction → Nat
  | djnz _ | jumpRelative _ _ | aluImmediate _ _ | output _ | input _ => 1
  | loadPair _ _ | storePair _ _ | fetchPair _ _ | storeA _ | fetchA _ | jump _ _ | call _ _ => 2
  | inc o | dec o | alu _ o => o.size
  | load o _ => o.size + 1
  | move dst src => dst.size + src.size
  | _ => 0

/-- The condition of the relative jumps from code 4 on. -/
def relativeCondition (code : Nat) : Condition := Condition.ofCode (UInt8.ofNat (code - 4))

/-- The instruction of an opcode byte without a prefix or behind an index prefix.  The two bytes
after the opcode are `p` and `q`; a displacement, if there is one, is the first of them. -/
def ofOpcode (x : Option IndexRegister) (op p q : UInt8) : Instruction :=
  let y := op.toNat / 8 % 8
  let z := op.toNat % 8
  let pair := y / 2
  let even := y % 2 == 0
  let condition := Condition.ofCode (UInt8.ofNat y)
  let word := wordOf p q
  match op.toNat / 64 with
  | 0 => match z with
    | 0 => match y with
      | 0 => nop
      | 1 => exAf
      | 2 => djnz p
      | 3 => jumpRelative none p
      | _ => jumpRelative (some (relativeCondition y)) p
    | 1 => if even then loadPair (.ofCode x pair) word else addPair (.hlOr x) (.ofCode x pair)
    | 2 => match y with
      | 0 => storeAtPair .bc
      | 1 => fetchAtPair .bc
      | 2 => storeAtPair .de
      | 3 => fetchAtPair .de
      | 4 => storePair word (.hlOr x)
      | 5 => fetchPair (.hlOr x) word
      | 6 => storeA word
      | _ => fetchA word
    | 3 => if even then incPair (.ofCode x pair) else decPair (.ofCode x pair)
    | 4 => inc (.ofCode x p y)
    | 5 => dec (.ofCode x p y)
    | 6 =>
      let dst := Operand.ofCode x p y
      load dst (if dst.size == 0 then p else q)
    | _ => accumulator (.ofCode y)
  | 1 =>
    if y == 6 && z == 6 then halt
    else if y == 6 || z == 6 then move (.plain x p y) (.plain x p z)
    else move (.ofCode x p y) (.ofCode x p z)
  | 2 => alu (.ofCode y) (.ofCode x p z)
  | _ => match z with
    | 0 => ret (some condition)
    | 1 => match y with
      | 1 => ret none
      | 3 => exx
      | 5 => jumpPair (.hlOr x)
      | 7 => loadSp (.hlOr x)
      | _ => pop (.ofStackCode x pair)
    | 2 => jump (some condition) word
    | 3 => match y with
      | 0 => jump none word
      | 2 => output p
      | 3 => input p
      | 4 => exStack (.hlOr x)
      | 5 => exDeHl
      | 6 => disableInterrupts
      | _ => enableInterrupts
    | 4 => call (some condition) word
    | 5 => if even then push (.ofStackCode x pair) else call none word
    | 6 => aluImmediate (.ofCode y) p
    | _ => restart (UInt8.ofNat (8 * y))

/-- The bit operation of a byte behind CB. -/
def ofBitOpcode (o : Operand) (op : UInt8) : Instruction :=
  let y := op.toNat / 8 % 8
  match op.toNat / 64 with
  | 0 => shift (.ofCode y) o
  | 1 => testBit y o
  | 2 => resetBit y o
  | _ => setBit y o

/-- The interrupt mode with the given code. -/
def modeOfCode : Nat → Nat
  | 2 | 6 => 1
  | 3 | 7 => 2
  | _ => 0

/-- The instruction of a byte behind ED, with the two bytes that follow it. -/
def ofExtendedOpcode (op p q : UInt8) : Instruction :=
  let y := op.toNat / 8 % 8
  let z := op.toNat % 8
  let pair := Pair.ofCode none (y / 2)
  let even := y % 2 == 0
  match op.toNat / 64 with
  | 1 => match z with
    | 0 => inputC (Register8.ofCode? y)
    | 1 => outputC (Register8.ofCode? y)
    | 2 => if even then subtractPair pair else addPairCarry pair
    | 3 => if even then storePair (wordOf p q) pair else fetchPair pair (wordOf p q)
    | 4 => negate
    | 5 => if y == 1 then retInterrupt else retNonMaskable
    | 6 => interruptMode (modeOfCode y)
    | _ => system (.ofCode y)
  | 2 =>
    if z ≤ 3 && 4 ≤ y then block (.ofCode z) (y % 2 == 1) (6 ≤ y) else undefinedExtended op
  | _ => undefinedExtended op

end Instruction

namespace Code

/-- Whether a byte behind an index prefix starts a new prefix. -/
def overridesIndex (b : UInt8) : Bool := b == 0xDD || b == 0xFD || b == 0xED

/-- The instruction that the bytes begin with. -/
def decode (c : Code) : Decoded :=
  match IndexRegister.ofPrefix? c.first with
  | some x =>
    if overridesIndex c.second then { instruction := .strayPrefix x, size := 1 }
    else if c.second == 0xCB then
      { instruction := .ofBitOpcode (.atIndex x c.third) c.fourth, index := some x, size := 4 }
    else
      let i := Instruction.ofOpcode (some x) c.second c.third c.fourth
      { instruction := i, index := some x, size := 2 + i.operandSize }
  | none =>
    if c.first == 0xED then
      let i := Instruction.ofExtendedOpcode c.second c.third c.fourth
      { instruction := i, size := 2 + i.operandSize }
    else if c.first == 0xCB then
      { instruction := .ofBitOpcode (.plain none 0 (c.second.toNat % 8)) c.second, size := 2 }
    else
      let i := Instruction.ofOpcode none c.first c.second c.third
      { instruction := i, size := 1 + i.operandSize }

/-- The number of bytes of the instruction. -/
def size (c : Code) : Nat := c.decode.size

/-- The opcode value at the bytes: the first byte, with a prefix over the byte it stands before. -/
def opcode (c : Code) : UInt32 :=
  if c.first == 0xCB || c.first == 0xDD || c.first == 0xED || c.first == 0xFD then
    (c.first.toUInt32 <<< 8) ||| c.second.toUInt32
  else c.first.toUInt32

/-- Whether the first byte is an index prefix that the second makes ineffective. -/
def isStrayPrefix (c : Code) : Bool :=
  (c.first == 0xDD || c.first == 0xFD) &&
    (c.second == 0xDD || c.second == 0xFD || c.second == 0xED)

/-- The opcode value of the instruction that runs: a stray prefix runs alone. -/
def executedOpcode (c : Code) : UInt32 :=
  if c.isStrayPrefix then c.first.toUInt32 else c.opcode

end Code

end Z80Debugger
