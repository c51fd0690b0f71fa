import Std.Data.TreeMap.Lemmas
import Z80Debugger.Memory.Layout

/-!
# Memory contents

The bytes of ROM and RAM by physical address.  Memory starts out as zeros, so only the bytes that
were written are kept.  A byte beyond the end reads as zero and cannot be written.  `load` puts
bytes anywhere, as a loader does; `write` is what a running program can do, and leaves ROM alone.
-/

set_option autoImplicit false

namespace Z80Debugger

/-- The bytes of a memory with a given layout. -/
structure Memory where
  layout : Layout
  /-- The bytes that have been written, by physical address. -/
  written : Std.TreeMap UInt32 UInt8 := ∅

namespace Memory

/-- The byte at a physical address. -/
def read (m : Memory) (address : UInt32) : UInt8 :=
  if address < m.layout.memorySize then m.written.getD address 0 else 0

/-- Puts a byte into ROM or RAM. -/
def load (m : Memory) (address : UInt32) (value : UInt8) : Memory :=
  if address < m.layout.memorySize then
    { m with written := m.written.insert address value }
  else m

/-- Puts a byte into RAM; ROM stays as it is. -/
def write (m : Memory) (address : UInt32) (value : UInt8) : Memory :=
  if m.layout.romSize ≤ address then m.load address value else m

/-- Loading a byte leaves the layout. -/
@[simp] theorem layout_load (m : Memory) (address : UInt32) (value : UInt8) :
    (m.load address value).layout = m.layout := by
  unfold load
  split <;> rfl

/-- Writing a byte leaves the layout. -/
@[simp] theorem layout_write (m : Memory) (address : UInt32) (value : UInt8) :
    (m.write address value).layout = m.layout := by
  unfold write
  split <;> simp

/-- A loaded byte is read back, and no other byte changes. -/
theorem read_load (m : Memory) (address other : UInt32) (value : UInt8) :
    (m.load address value).read other =
      if other = address ∧ address < m.layout.memorySize then value else m.read other := by
  unfold load read
  by_cases h : address < m.layout.memorySize
  · simp only [h, if_true, and_true, Std.TreeMap.getD_insert, Std.compare_eq_iff_eq]
    by_cases ho : other = address
    · simp [ho, h]
    · simp [ho, Ne.symm ho]
  · simp [h]

/-- A write to RAM is read back, and no other byte changes. -/
theorem read_write (m : Memory) (address other : UInt32) (value : UInt8) :
    (m.write address value).read other =
      if other = address ∧ m.layout.romSize ≤ address ∧ address < m.layout.memorySize then value
      else m.read other := by
  unfold write
  by_cases h : m.layout.romSize ≤ address
  · simp [h, read_load]
  · simp [h]

end Memory

end Z80Debugger
