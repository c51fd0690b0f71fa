import Z80Debugger.Cpu.Run

/-!
# What a decoded instruction does

The interpreter acts on the bytes of an instruction as it takes them.  `Instruction.work` says the
same of the instruction that the decoder makes of them: what is left to do once the program counter
stands behind it.  Operands are named here, and not numbered.
-/

set_option autoImplicit false

namespace Z80Debugger

namespace Work

/-- Whether a condition holds, where no condition always does. -/
def holds : Option Condition → Work Bool
  | none => return true
  | some c => return c.holds (← registers).f

end Work

namespace Register8

/-- The register's value. -/
def get (r : Registers) : Register8 → UInt8
  | b => highByte r.bc
  | c => lowByte r.bc
  | d => highByte r.de
  | e => lowByte r.de
  | h => highByte r.hl
  | l => lowByte r.hl
  | a => r.a

/-- The registers with another value in one of them. -/
def set (r : Registers) (value : UInt8) : Register8 → Registers
  | b => { r with bc := withHighByte r.bc value }
  | c => { r with bc := withLowByte r.bc value }
  | d => { r with de := withHighByte r.de value }
  | e => { r with de := withLowByte r.de value }
  | h => { r with hl := withHighByte r.hl value }
  | l => { r with hl := withLowByte r.hl value }
  | a => { r with a := value }

end Register8

namespace IndexRegister

/-- The register's value. -/
def get (r : Registers) : IndexRegister → UInt16
  | ix => r.ix
  | iy => r.iy

/-- The registers with another value in one of them. -/
def set (r : Registers) (value : UInt16) : IndexRegister → Registers
  | ix => { r with ix := value }
  | iy => { r with iy := value }

end IndexRegister

namespace Pair

/-- The pair's value. -/
def get (r : Registers) : Pair → UInt16
  | bc => r.bc
  | de => r.de
  | hl => r.hl
  | sp => r.sp
  | af => r.af
  | index x => x.get r

/-- The registers with another value in one pair. -/
def set (r : Registers) (value : UInt16) : Pair → Registers
  | bc => { r with bc := value }
  | de => { r with de := value }
  | hl => { r with hl := value }
  | sp => { r with sp := value }
  | af => r.withAf value
  | index x => x.set r value

end Pair

namespace Operand

/-- The value of an operand, with the access that takes. -/
def fetch : Operand → Work UInt8
  | register r => return r.get (← Work.registers)
  | highHalf x => return highByte (x.get (← Work.registers))
  | lowHalf x => return lowByte (x.get (← Work.registers))
  | atHl => do Work.readByte (← Work.registers).hl
  | atIndex x d => do Work.readByte (x.get (← Work.registers) + signExtend d)

/-- Gives an operand a value, with the access that takes. -/
def store (value : UInt8) : Operand → Work Unit
  | register r => Work.update fun rs => r.set rs value
  | highHalf x => Work.update fun rs => x.set rs (withHighByte (x.get rs) value)
  | lowHalf x => Work.update fun rs => x.set rs (withLowByte (x.get rs) value)
  | atHl => do Work.writeByte (← Work.registers).hl value
  | atIndex x d => do Work.writeByte (x.get (← Work.registers) + signExtend d) value

end Operand

namespace AluOp

/-- The new accumulator and flags after an operation with a value. -/
def run (op : AluOp) (a f value : UInt8) : UInt8 × UInt8 :=
  let carry := Flag.isSet Flag.carry f
  match op with
  | add => Alu.addWithCarry a value false
  | adc => Alu.addWithCarry a value carry
  | sub => Alu.subWithBorrow a value false
  | sbc => Alu.subWithBorrow a value carry
  | and => let r := a &&& value; (r, Alu.logicFlags r ||| Flag.halfCarry)
  | xor => let r := a ^^^ value; (r, Alu.logicFlags r)
  | or => let r := a ||| value; (r, Alu.logicFlags r)
  | cp => (a, (Alu.subWithBorrow a value false).2)

end AluOp

namespace Instruction

open Work in
/-- The work of an instruction, once the program counter stands behind it.  Nothing is done for an
instruction that the processor skips over. -/
def work : Instruction → Work Unit
  | djnz d => do
    let count := highByte (← registers).bc - 1
    update fun r => Register8.b.set r count
    if count != 0 then jumpBy d
  | jumpRelative c d => do if ← holds c then jumpBy d
  | loadPair p w => update fun r => p.set r w
  | addPair dst src => update fun r =>
    let (sum, flags) := Alu.addWords r.f (dst.get r) (src.get r)
    { dst.set r sum with f := flags }
  | storeAtPair p => do let r ← registers; writeByte (p.get r) r.a
  | fetchAtPair p => do
    let value ← readByte (p.get (← registers))
    update fun r => { r with a := value }
  | storePair w p => do writeWord w (p.get (← registers))
  | fetchPair p w => do
    let value ← readWord w
    update fun r => p.set r value
  | storeA w => do writeByte w (← registers).a
  | fetchA w => do
    let value ← readByte w
    update fun r => { r with a := value }
  | incPair p => update fun r => p.set r (p.get r + 1)
  | decPair p => update fun r => p.set r (p.get r - 1)
  | inc o => do
    let value := (← o.fetch) + 1
    o.store value
    update fun r => { r with f := Alu.incFlags r.f value }
  | dec o => do
    let value := (← o.fetch) - 1
    o.store value
    update fun r => { r with f := Alu.decFlags r.f value }
  | load o n => o.store n
  | accumulator .cpl => update fun r =>
    { r with a := ~~~r.a, f := r.f ||| Flag.halfCarry ||| Flag.subtract }
  | accumulator .scf => update fun r => { r with f := Alu.keptFlags r.f ||| Flag.carry }
  | accumulator .ccf => update fun r =>
    { r with f := Alu.keptFlags r.f ||| Alu.flagIf (!Flag.isSet Flag.carry r.f) Flag.carry }
  | halt => update fun r => { r with halted := true }
  | move dst src => do dst.store (← src.fetch)
  | alu op o => do operate op (← o.fetch)
  | aluImmediate op n => operate op n
  | ret c => do if ← holds c then jumpTo (← Work.pop)
  | pop p => do
    let value ← Work.pop
    update fun r => p.set r value
  | push p => do Work.push (p.get (← registers))
  | jumpPair p => update fun r => { r with pc := p.get r }
  | loadSp p => update fun r => { r with sp := p.get r }
  | jump c w => do if ← holds c then jumpTo w
  | call c w => do if ← holds c then callTo w
  | restart v => callTo v.toUInt16
  | output port => do Work.output port (← registers).a
  | input port => do
    let value ← Work.input port
    update fun r => { r with a := value }
  | exDeHl => update fun r => { r with de := r.hl, hl := r.de }
  | disableInterrupts => update fun r => { r with iff1 := false, iff2 := false }
  | enableInterrupts => update fun r => { r with iff1 := true, iff2 := true }
  | negate => update fun r =>
    let (a, f) := AluOp.sub.run 0 r.f r.a
    { r with a, f }
  | retInterrupt | retNonMaskable => do
    jumpTo (← Work.pop)
    update fun r => { r with iff1 := r.iff2 }
  | _ => pure ()
where
  /-- A byte operation between the accumulator and a value. -/
  operate (op : AluOp) (value : UInt8) : Work Unit := Work.update fun r =>
    let (a, f) := op.run r.a r.f value
    { r with a, f }

/-- The work of an instruction behind an index prefix. -/
def indexedWork : Instruction → Work Unit
  | loadPair (.index x) w => work (loadPair (.index x) w)
  | pop (.index x) => work (pop (.index x))
  | push (.index x) => work (push (.index x))
  | jumpPair (.index x) => work (jumpPair (.index x))
  | loadSp (.index x) => work (loadSp (.index x))
  | _ => pure ()

end Instruction

namespace Decoded

/-- The work of a decoded instruction. -/
def work (d : Decoded) : Work Unit :=
  if d.index.isSome then d.instruction.indexedWork else d.instruction.work

end Decoded

end Z80Debugger
