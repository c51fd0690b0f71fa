import Z80Debugger.Cpu.Alu
import Z80Debugger.Cpu.Flow
import Z80Debugger.Cpu.State

/-!
# Running one instruction

An instruction runs as a sequence of register moves and accesses to memory and ports; the accesses
are noted in the order in which they happen, so that a debugger can look at them afterwards.
Reading the instruction itself is no access.

The interpreter takes the bytes of an instruction one after another from the program counter, which
moves on with each, and acts on the fields of the opcode byte: the top two bits, the middle three
and the low three.  It runs loads, byte arithmetic, jumps, calls, returns, the stack, the two simple
port instructions, `halt` and the interrupt switches.  Behind an index prefix it runs only the
loads, stack moves and jumps of the index register as a whole.  Every other instruction is skipped
over, and only then is its length taken from the decoder.
-/

set_option autoImplicit false

namespace Z80Debugger

/-- One access of an instruction to memory or to a port. -/
inductive Access where
  | memoryRead (address : UInt16)
  | memoryWrite (address : UInt16)
  | portRead (port : UInt8)
  | portWrite (port : UInt8)
  deriving DecidableEq, Repr

/-- A processor within an instruction, and the accesses made so far, oldest first. -/
structure Activity where
  cpu : Cpu
  accesses : List Access := []

/-- A part of an instruction's work. -/
abbrev Work (α : Type) : Type := StateM Activity α

namespace Work

/-- The registers as they stand. -/
def registers : Work Registers := return (← get).cpu.registers

/-- Changes registers. -/
def update (f : Registers → Registers) : Work Unit :=
  modify fun s => { s with cpu := { s.cpu with registers := f s.cpu.registers } }

/-- Notes an access. -/
def note (access : Access) : Work Unit :=
  modify fun s => { s with accesses := s.accesses ++ [access] }

/-- Reads a byte of memory. -/
def readByte (address : UInt16) : Work UInt8 := do
  note (.memoryRead address)
  return (← get).cpu.read address

/-- Writes a byte of memory. -/
def writeByte (address : UInt16) (value : UInt8) : Work Unit := do
  note (.memoryWrite address)
  modify fun s => { s with cpu := s.cpu.writeByte address value }

/-- Reads a word of memory, low byte first. -/
def readWord (address : UInt16) : Work UInt16 := do
  let lo ← readByte address
  let hi ← readByte (address + 1)
  return wordOf lo hi

/-- Writes a word of memory, low byte first. -/
def writeWord (address value : UInt16) : Work Unit := do
  writeByte address (lowByte value)
  writeByte (address + 1) (highByte value)

/-- Puts a word onto the stack. -/
def push (value : UInt16) : Work Unit := do
  update fun r => { r with sp := r.sp - 2 }
  writeWord (← registers).sp value

/-- Takes a word from the stack. -/
def pop : Work UInt16 := do
  let value ← readWord (← registers).sp
  update fun r => { r with sp := r.sp + 2 }
  return value

/-- Reads a port. -/
def input (port : UInt8) : Work UInt8 := do
  note (.portRead port)
  return (← get).cpu.inputs port

/-- Writes a port. -/
def output (port value : UInt8) : Work Unit := do
  note (.portWrite port)
  modify fun s => { s with cpu := { s.cpu with outputs := s.cpu.outputs.push (port, value) } }

/-- Sends control to an address. -/
def jumpTo (target : UInt16) : Work Unit := update fun r => { r with pc := target }

/-- Sends control on by a displacement. -/
def jumpBy (d : UInt8) : Work Unit := update fun r => { r with pc := r.pc + signExtend d }

/-- Puts the address of the next instruction onto the stack and goes elsewhere. -/
def callTo (target : UInt16) : Work Unit := do
  push (← registers).pc
  jumpTo target

end Work

namespace Registers

/-- The register pair with the given two-bit code. -/
def pair (r : Registers) (code : UInt8) : UInt16 :=
  match code with
  | 0 => r.bc
  | 1 => r.de
  | 2 => r.hl
  | _ => r.sp

/-- The registers with another value in a pair. -/
def withPair (r : Registers) (code : UInt8) (value : UInt16) : Registers :=
  match code with
  | 0 => { r with bc := value }
  | 1 => { r with de := value }
  | 2 => { r with hl := value }
  | _ => { r with sp := value }

/-- The pair that goes onto the stack: code 3 stands for the accumulator and the flags. -/
def stackPair (r : Registers) (code : UInt8) : UInt16 := if code == 3 then r.af else r.pair code

/-- The registers with another value in a pair that comes from the stack. -/
def withStackPair (r : Registers) (code : UInt8) (value : UInt16) : Registers :=
  if code == 3 then r.withAf value else r.withPair code value

/-- The index register that a prefix selects. -/
def indexed (r : Registers) (first : UInt8) : UInt16 := if first == 0xDD then r.ix else r.iy

/-- The registers with another value in the index register that a prefix selects. -/
def withIndexed (r : Registers) (first : UInt8) (value : UInt16) : Registers :=
  if first == 0xDD then { r with ix := value } else { r with iy := value }

/-- Whether the flags satisfy the condition with the given three-bit code. -/
def condition (r : Registers) (code : UInt8) : Bool :=
  match code with
  | 0 => r.f &&& Flag.zero == 0
  | 1 => r.f &&& Flag.zero != 0
  | 2 => r.f &&& Flag.carry == 0
  | 3 => r.f &&& Flag.carry != 0
  | 4 => r.f &&& Flag.parity == 0
  | 5 => r.f &&& Flag.parity != 0
  | 6 => r.f &&& Flag.sign == 0
  | _ => r.f &&& Flag.sign != 0

end Registers

namespace Interpreter

open Work

/-- Takes the next byte of the instruction. -/
def fetchByte : Work UInt8 := do
  let c := (← get).cpu
  jumpTo (c.registers.pc + 1)
  return c.read c.registers.pc

/-- Takes the next two bytes of the instruction, the low one first. -/
def fetchWord : Work UInt16 := do
  let lo ← fetchByte
  let hi ← fetchByte
  return lo.toUInt16 ||| hi.toUInt16 <<< 8

/-- The byte with the given three-bit code: a register, or the byte that `hl` points to. -/
def load (code : UInt8) : Work UInt8 := do
  let r ← registers
  match code with
  | 0 => return highByte r.bc
  | 1 => return lowByte r.bc
  | 2 => return highByte r.de
  | 3 => return lowByte r.de
  | 4 => return highByte r.hl
  | 5 => return lowByte r.hl
  | 6 => readByte r.hl
  | _ => return r.a

/-- Puts a byte where the given three-bit code says. -/
def store (code value : UInt8) : Work Unit :=
  match code with
  | 0 => update fun r => { r with bc := withHighByte r.bc value }
  | 1 => update fun r => { r with bc := withLowByte r.bc value }
  | 2 => update fun r => { r with de := withHighByte r.de value }
  | 3 => update fun r => { r with de := withLowByte r.de value }
  | 4 => update fun r => { r with hl := withHighByte r.hl value }
  | 5 => update fun r => { r with hl := withLowByte r.hl value }
  | 6 => do writeByte (← registers).hl value
  | _ => update fun r => { r with a := value }

/-- Gives the accumulator a value. -/
def storeA (value : UInt8) : Work Unit := update fun r => { r with a := value }

/-- Whether a condition holds now. -/
def holds (code : UInt8) : Work Bool := return (← registers).condition code

/-- A byte operation between the accumulator and a value. -/
def operate (code value : UInt8) : Work Unit := update fun r =>
  let (a, f) := Alu.run code r.a r.f value
  { r with a, f }

/-- Counts a byte up or down. -/
def count (code : UInt8) (down : Bool) : Work Unit := do
  let value ← load code
  let result := if down then value - 1 else value + 1
  store code result
  update fun r =>
    { r with f := if down then Alu.decFlags r.f result else Alu.incFlags r.f result }

/-- Runs an opcode byte without a prefix, once the program counter stands behind it; there is
nothing to run for an instruction that is skipped over. -/
def main (op : UInt8) : Option (Work Unit) :=
  let y := (op >>> 3) &&& 7
  let z := op &&& 7
  let p := y >>> 1
  let even := y &&& 1 == 0
  match op >>> 6, z with
  | 0, 0 => match y with
    | 0 => some (pure ())
    | 1 => none
    | 2 => some do
      let d ← fetchByte
      let count := highByte (← registers).bc - 1
      store 0 count
      if count != 0 then jumpBy d
    | 3 => some do jumpBy (← fetchByte)
    | _ => some do
      let d ← fetchByte
      if ← holds (y - 4) then jumpBy d
  | 0, 1 =>
    if even then some do
      let w ← fetchWord
      update fun r => r.withPair p w
    else some <| update fun r =>
      let (sum, flags) := Alu.addWords r.f r.hl (r.pair p)
      { r with hl := sum, f := flags }
  | 0, 2 =>
    if even then some <| match p with
      | 0 => do let r ← registers; writeByte r.bc r.a
      | 1 => do let r ← registers; writeByte r.de r.a
      | 2 => do
        let w ← fetchWord
        writeWord w (← registers).hl
      | _ => do
        let w ← fetchWord
        writeByte w (← registers).a
    else some <| match p with
      | 0 => do storeA (← readByte (← registers).bc)
      | 1 => do storeA (← readByte (← registers).de)
      | 2 => do
        let value ← readWord (← fetchWord)
        update fun r => { r with hl := value }
      | _ => do storeA (← readByte (← fetchWord))
  | 0, 3 => some <| update fun r =>
    r.withPair p (if even then r.pair p + 1 else r.pair p - 1)
  | 0, 4 => some (count y false)
  | 0, 5 => some (count y true)
  | 0, 6 => some do store y (← fetchByte)
  | 0, _ => match y with
    | 5 => some <| update fun r =>
      { r with a := ~~~r.a, f := r.f ||| Flag.halfCarry ||| Flag.subtract }
    | 6 => some <| update fun r => { r with f := Alu.keptFlags r.f ||| Flag.carry }
    | 7 => some <| update fun r =>
      { r with f := Alu.keptFlags r.f ||| Alu.flagIf (!Flag.isSet Flag.carry r.f) Flag.carry }
    | _ => none
  | 1, _ =>
    if y == 6 && z == 6 then some <| update fun r => { r with halted := true }
    else some do store y (← load z)
  | 2, _ => some do operate y (← load z)
  | _, 0 => some do if ← holds y then jumpTo (← pop)
  | _, 1 =>
    if even then some do
      let value ← pop
      update fun r => r.withStackPair p value
    else match p with
      | 0 => some do jumpTo (← pop)
      | 2 => some <| update fun r => { r with pc := r.hl }
      | 3 => some <| update fun r => { r with sp := r.hl }
      | _ => none
  | _, 2 => some do
    let w ← fetchWord
    if ← holds y then jumpTo w
  | _, 3 => match y with
    | 0 => some do jumpTo (← fetchWord)
    | 2 => some do
      let port ← fetchByte
      output port (← registers).a
    | 3 => some do storeA (← input (← fetchByte))
    | 5 => some <| update fun r => { r with de := r.hl, hl := r.de }
    | 6 => some <| update fun r => { r with iff1 := false, iff2 := false }
    | 7 => some <| update fun r => { r with iff1 := true, iff2 := true }
    | _ => none
  | _, 4 => some do
    let w ← fetchWord
    if ← holds y then callTo w
  | _, 5 =>
    if even then some do push ((← registers).stackPair p)
    else if p == 0 then some do callTo (← fetchWord)
    else none
  | _, 6 => some do operate y (← fetchByte)
  | _, _ => some (callTo (y.toUInt16 * 8))

/-- Runs an opcode byte behind ED. -/
def extended (op : UInt8) : Option (Work Unit) :=
  let y := (op >>> 3) &&& 7
  let p := y >>> 1
  match op >>> 6, op &&& 7 with
  | 1, 3 =>
    if y &&& 1 == 0 then some do
      let w ← fetchWord
      writeWord w ((← registers).pair p)
    else some do
      let value ← readWord (← fetchWord)
      update fun r => r.withPair p value
  | 1, 4 => some <| update fun r =>
    let (a, f) := Alu.run 2 0 r.f r.a
    { r with a, f }
  | 1, 5 => some do
    jumpTo (← pop)
    update fun r => { r with iff1 := r.iff2 }
  | _, _ => none

/-- Runs an opcode byte behind an index prefix. -/
def indexed (first op : UInt8) : Option (Work Unit) :=
  match op with
  | 0x21 => some do
    let w ← fetchWord
    update fun r => r.withIndexed first w
  | 0xE1 => some do
    let value ← pop
    update fun r => r.withIndexed first value
  | 0xE5 => some do push ((← registers).indexed first)
  | 0xE9 => some <| update fun r => { r with pc := r.indexed first }
  | 0xF9 => some <| update fun r => { r with sp := r.indexed first }
  | _ => none

/-- Runs the instruction at the program counter.  A stray prefix does nothing by itself. -/
def instruction : Work Unit := do
  let c := (← get).cpu
  let skip := jumpTo (c.registers.pc + UInt16.ofNat c.code.size)
  let first ← fetchByte
  if c.code.isStrayPrefix then pure ()
  else if first == 0xDD || first == 0xFD then
    let op ← fetchByte
    (indexed first op).getD skip
  else if first == 0xED then
    let op ← fetchByte
    (extended op).getD skip
  else if first == 0xCB then skip
  else (main first).getD skip

end Interpreter

namespace Cpu

/-- Where an interrupt sends control. -/
def interruptVector : UInt16 := 0x0038

/-- The opcode value of what `step` runs: a halted processor keeps running `halt`. -/
def stepOpcode (c : Cpu) : UInt32 := if c.registers.halted then 0x76 else c.code.executedOpcode

/-- Runs the instruction at the program counter, if the processor is not halted. -/
def step (c : Cpu) : Activity :=
  if c.registers.halted then { cpu := c } else (Interpreter.instruction.run { cpu := c }).2

/-- Serves a pending interrupt if interrupts are on: control goes to the vector, and what it came
from goes onto the stack. -/
def serveInterrupt (c : Cpu) : Cpu :=
  if c.interruptPending && c.registers.iff1 then
    let r := c.registers
    let ready := { c with
      interruptPending := false
      registers := { r with halted := false, iff1 := false, iff2 := false } }
    ((Work.callTo interruptVector).run { cpu := ready }).2.cpu
  else c

end Cpu

end Z80Debugger
