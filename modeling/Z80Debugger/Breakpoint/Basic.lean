import Z80Debugger.Trap

/-!
# Breakpoints

A breakpoint is what a user asks to stop at: a masked range of addresses, ports or opcode values in
one of four spaces, and the modes of access that count.  Where a space knows a mode, the breakpoint
has a trap for it.
-/

set_option autoImplicit false

namespace Z80Debugger

/-- What the range of a breakpoint counts. -/
inductive Space where
  /-- The 16-bit addresses that a program uses. -/
  | logical
  /-- The addresses of ROM and RAM. -/
  | physical
  | port
  /-- The opcode values of instructions. -/
  | opcode
  deriving DecidableEq, Repr, Inhabited

/-- The three modes of access. -/
inductive Mode where
  | exec
  | write
  | read
  deriving DecidableEq, Repr

/-- A set of modes. -/
structure Modes where
  exec : Bool := false
  write : Bool := false
  read : Bool := false
  deriving DecidableEq, Repr, Inhabited

namespace Modes

/-- No mode. -/
def empty : Modes := {}

/-- Every mode. -/
def all : Modes := { exec := true, write := true, read := true }

/-- The set of one mode. -/
def only : Mode → Modes
  | .exec => { exec := true }
  | .write => { write := true }
  | .read => { read := true }

/-- Whether a mode is in the set. -/
def contains (m : Modes) : Mode → Bool
  | .exec => m.exec
  | .write => m.write
  | .read => m.read

/-- Whether the set has no mode. -/
def isEmpty (m : Modes) : Bool := !(m.exec || m.write || m.read)

/-- The modes of either set. -/
def union (m n : Modes) : Modes where
  exec := m.exec || n.exec
  write := m.write || n.write
  read := m.read || n.read

/-- The modes of both sets. -/
def inter (m n : Modes) : Modes where
  exec := m.exec && n.exec
  write := m.write && n.write
  read := m.read && n.read

end Modes

namespace Space

/-- The bits of a value in the space. -/
def defaultMask : Space → UInt32
  | logical => 0xFFFF
  | port => 0xFF
  | physical | opcode => 0xFFFFFFFF

/-- The space as it is written in a breakpoint. -/
def label : Space → String
  | logical => "L"
  | physical => "P"
  | port => "IO"
  | opcode => "OP"

/-- The modes that the space knows. -/
def legalModes : Space → Modes
  | logical | physical => .all
  | port => { write := true, read := true }
  | opcode => { exec := true }

/-- The kind of trap that watches a mode of the space. -/
def trapKind? : Space → Mode → Option TrapKind
  | logical, .exec | physical, .exec => some .memoryExec
  | logical, .write | physical, .write => some .memoryWrite
  | logical, .read | physical, .read => some .memoryRead
  | port, .write => some .portWrite
  | port, .read => some .portRead
  | opcode, .exec => some .opcode
  | port, .exec | opcode, .write | opcode, .read => none

end Space

/-- A breakpoint. -/
structure Breakpoint where
  space : Space
  modes : Modes
  first : UInt32
  last : UInt32
  mask : UInt32
  enabled : Bool
  deriving DecidableEq, Repr

namespace Breakpoint

/-- An enabled breakpoint with the mask of its space, to which the range is cut. -/
def ofRange (space : Space) (modes : Modes) (first last : UInt32) : Breakpoint where
  space
  modes
  first := first &&& space.defaultMask
  last := last &&& space.defaultMask
  mask := space.defaultMask
  enabled := true

/-- An enabled breakpoint on running the instruction at one address. -/
def execAt (space : Space) (address : UInt32) : Breakpoint :=
  ofRange space (.only .exec) address address

/-- The breakpoint with another mask, to which the range is cut again. -/
def withMask (b : Breakpoint) (mask : UInt32) : Breakpoint :=
  { b with mask, first := b.first &&& mask, last := b.last &&& mask }

/-- The breakpoint, enabled or not. -/
def withEnabled (b : Breakpoint) (enabled : Bool) : Breakpoint := { b with enabled }

/-- Whether a masked value lies in a range. -/
def inRange (value first last mask : UInt32) : Bool :=
  first ≤ (value &&& mask) && (value &&& mask) ≤ last

/-- Whether a value lies in the breakpoint's range. -/
def covers (b : Breakpoint) (value : UInt32) : Bool := inRange value b.first b.last b.mask

/-- The trap for a mode, if the space knows the mode. -/
def trap? (b : Breakpoint) (mode : Mode) : Option Trap :=
  (b.space.trapKind? mode).map fun kind =>
    { kind, physical := b.space = .physical, first := b.first, last := b.last, mask := b.mask }

/-- The trap of a mode covers what the breakpoint covers. -/
theorem covers_of_trap? {b : Breakpoint} {mode : Mode} {t : Trap} (h : b.trap? mode = some t)
    (value : UInt32) : t.covers value = b.covers value := by
  obtain ⟨kind, _, rfl⟩ := Option.map_eq_some_iff.mp h
  rfl

end Breakpoint

namespace Space

/-- The value by which a space knows a 16-bit address. -/
def ofLogical (s : Space) (c : Cpu) (address : UInt16) : UInt32 :=
  match s with
  | physical => c.physical address
  | _ => address.toUInt32

end Space

end Z80Debugger
