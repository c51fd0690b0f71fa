import Z80Debugger.Cpu.Registers
import Z80Debugger.Instruction.Decode
import Z80Debugger.Memory.Bytes

/-!
# The processor's state

All that a running program can observe or change: registers, memory, the four banks through which
memory is seen, the pending interrupt, the ports and the count of instructions.  Breakpoints are no
part of it.  A logical address has 16 bits; its top two select a bank, and the bank's physical base
plus the other 14 bits is the physical address.
-/

set_option autoImplicit false

namespace Z80Debugger

/-- A processor with its memory and ports. -/
structure Cpu where
  registers : Registers
  memory : Memory
  /-- The physical address of the page in each bank. -/
  banks : Vector UInt32 4
  /-- An interrupt has been raised and not yet been served. -/
  interruptPending : Bool := false
  /-- The value that each port gives when it is read. -/
  inputs : UInt8 → UInt8 := fun _ => 0xFF
  /-- The ports written so far with the values sent, oldest first. -/
  outputs : Array (UInt8 × UInt8) := #[]
  /-- The number of instructions that have run. -/
  instructions : Nat := 0

namespace Cpu

/-- The sizes of the memory and the first RAM page. -/
def layout (c : Cpu) : Layout := c.memory.layout

/-- Shows a page in a bank; banks are counted modulo four. -/
def mapPage (c : Cpu) (bank : Nat) (page : UInt32) : Cpu :=
  { c with banks := c.banks.set (bank % 4) (c.layout.pageAddress page 0) }

/-- A processor as it starts: memory is zero, the stack begins at FFF0, and the banks show the first
two ROM pages, the second RAM page and the first RAM page.  There is none for a layout whose second
RAM page has no 32-bit number. -/
def ofLayout? (layout : Layout) : Option Cpu :=
  if layout.ramPageBase.toNat + 1 < 0x100000000 then
    some {
      registers := { sp := 0xFFF0 }
      memory := { layout }
      banks := #v[
        layout.pageAddress 0 0,
        layout.pageAddress 1 0,
        layout.pageAddress (layout.ramPageBase + 1) 0,
        layout.pageAddress layout.ramPageBase 0] }
  else none

/-- The processor as it starts with the standard layout. -/
def standard : Cpu := (ofLayout? .standard).get rfl

/-- The bank that shows a logical address. -/
def bankOf (address : UInt16) : Fin 4 :=
  ⟨address.toNat / 0x4000, by have := address.toNat_lt; omega⟩

/-- The physical address that a logical address shows. -/
def physical (c : Cpu) (address : UInt16) : UInt32 :=
  c.banks[bankOf address] + (address % 0x4000).toUInt32

/-- The byte at a logical address. -/
def read (c : Cpu) (address : UInt16) : UInt8 := c.memory.read (c.physical address)

/-- The word whose low byte is at a logical address. -/
def readWord (c : Cpu) (address : UInt16) : UInt16 :=
  wordOf (c.read address) (c.read (address + 1))

/-- The four bytes from a logical address on. -/
def codeAt (c : Cpu) (address : UInt16) : Code where
  first := c.read address
  second := c.read (address + 1)
  third := c.read (address + 2)
  fourth := c.read (address + 3)

/-- The bytes at the program counter. -/
def code (c : Cpu) : Code := c.codeAt c.registers.pc

/-- Puts a byte at a logical address, into ROM too. -/
def loadByte (c : Cpu) (address : UInt16) (value : UInt8) : Cpu :=
  { c with memory := c.memory.load (c.physical address) value }

/-- Puts bytes from a logical address on, into ROM too; addresses wrap around. -/
def load (c : Cpu) (address : UInt16) : List UInt8 → Cpu
  | [] => c
  | b :: bs => (c.loadByte address b).load (address + 1) bs

/-- Puts bytes from a physical address on; what would lie beyond the end of memory is dropped. -/
def loadPhysical (c : Cpu) (address : Nat) : List UInt8 → Cpu
  | [] => c
  | b :: bs =>
    if address < c.layout.memorySize.toNat then
      { c with memory := c.memory.load (UInt32.ofNat address) b }.loadPhysical (address + 1) bs
    else c

/-- Writes a byte as a program does: ROM stays as it is. -/
def writeByte (c : Cpu) (address : UInt16) (value : UInt8) : Cpu :=
  { c with memory := c.memory.write (c.physical address) value }

/-- Sets the value that a port gives. -/
def setInput (c : Cpu) (port value : UInt8) : Cpu :=
  { c with inputs := fun p => if p = port then value else c.inputs p }

/-- Asks for an interrupt. -/
def raiseInterrupt (c : Cpu) : Cpu := { c with interruptPending := true }

/-- Mapping a page leaves the layout. -/
@[simp] theorem layout_mapPage (c : Cpu) (bank : Nat) (page : UInt32) :
    (c.mapPage bank page).layout = c.layout := rfl

/-- Writing a byte leaves the layout. -/
@[simp] theorem layout_writeByte (c : Cpu) (address : UInt16) (value : UInt8) :
    (c.writeByte address value).layout = c.layout := by
  simp [writeByte, layout]

/-- Loading a byte leaves the layout. -/
@[simp] theorem layout_loadByte (c : Cpu) (address : UInt16) (value : UInt8) :
    (c.loadByte address value).layout = c.layout := by
  simp [loadByte, layout]

/-- Loading bytes does not change the layout of the memory. -/
@[simp] theorem layout_load (c : Cpu) (address : UInt16) (bytes : List UInt8) :
    (c.load address bytes).layout = c.layout := by
  induction bytes generalizing c address with
  | nil => rfl
  | cons b bs ih => rw [load, ih, layout_loadByte]

/-- Loading bytes does not change the banks. -/
@[simp] theorem banks_load (c : Cpu) (address : UInt16) (bytes : List UInt8) :
    (c.load address bytes).banks = c.banks := by
  induction bytes generalizing c address with
  | nil => rfl
  | cons b bs ih => rw [load, ih, loadByte]

/-- A program's write is read back at the addresses that show the same byte of RAM; no other byte
changes. -/
theorem read_writeByte (c : Cpu) (address other : UInt16) (value : UInt8) :
    (c.writeByte address value).read other =
      if c.physical other = c.physical address ∧ c.layout.romSize ≤ c.physical address ∧
        c.physical address < c.layout.memorySize then value
      else c.read other :=
  Memory.read_write c.memory (c.physical address) (c.physical other) value

end Cpu

end Z80Debugger
