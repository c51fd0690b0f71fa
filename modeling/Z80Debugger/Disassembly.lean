import Z80Debugger.Cpu.State
import Z80Debugger.Instruction.Text
import Z80Debugger.Symbols.Table

/-!
# Disassembly

Memory can be looked at through the processor's banks or as it is.  A disassembler gives the
instruction at an address as text, together with the address behind it, unless the address cannot be
read.
-/

set_option autoImplicit false

namespace Z80Debugger

/-- How memory is looked at. -/
inductive View where
  | logical
  | physical
  deriving DecidableEq, Repr, Inhabited

namespace View

/-- The bits of an address in the view. -/
def mask : View → UInt32
  | logical => 0xFFFF
  | physical => 0xFFFFFFFF

end View

/-- A disassembled instruction. -/
structure Line where
  /-- The address behind the instruction. -/
  next : UInt32
  text : String
  deriving DecidableEq, Repr

/-- Something that disassembles single instructions. -/
abbrev Disassembler : Type := Cpu → View → UInt32 → Option Line

namespace Code

/-- The instruction that the bytes hold at an address. -/
def line (names : UInt32 → Option String) (address : UInt32) (c : Code) : Line :=
  let next := address + UInt32.ofNat c.size
  { next, text := c.decode.instruction.text names next }

/-- At a 16-bit address the address behind the instruction is counted in 16 bits. -/
theorem toUInt16_next_line (names : UInt32 → Option String) (address : UInt16) (c : Code) :
    (c.line names address.toUInt32).next.toUInt16 = address + UInt16.ofNat c.size := by
  simp [line]

end Code

namespace Cpu

/-- The bytes from an address on.  Logical addresses count modulo `2 ^ 16`; a physical address
beyond the end of memory has none. -/
def codeIn? (c : Cpu) (view : View) (address : UInt32) : Option Code :=
  match view with
  | .logical => some (c.codeAt address.toUInt16)
  | .physical =>
    if address < c.layout.memorySize then
      some {
        first := c.memory.read address
        second := c.memory.read (address + 1)
        third := c.memory.read (address + 2)
        fourth := c.memory.read (address + 3) }
    else none

end Cpu

namespace Symbols

/-- The disassembler that writes operands with the names of a table. -/
def disassembler (s : Symbols) : Disassembler := fun cpu view address =>
  (cpu.codeIn? view address).map (Code.line s.nameAt address)

/-- At the program counter the disassembler reads the instruction that is about to run. -/
theorem disassembler_pc (s : Symbols) (c : Cpu) :
    s.disassembler c .logical c.registers.pc.toUInt32 =
      some (c.code.line s.nameAt c.registers.pc.toUInt32) := by
  simp [disassembler, Cpu.codeIn?, Cpu.code]

end Symbols

end Z80Debugger
