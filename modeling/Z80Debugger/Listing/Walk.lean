import Z80Debugger.Disassembly

/-!
# Walking through a listing

A listing is memory seen as a sequence of instructions.  Only a disassembler knows where an
instruction ends, so walking forward is asking it, and walking back is finding a place some bytes
before from which a walk forward arrives.  Where the disassembler does not help, an instruction is
taken to be one byte.
-/

set_option autoImplicit false

namespace Z80Debugger

/-- Memory in one view, as a disassembler reads it. -/
structure Listing where
  view : View
  line? : UInt32 → Option Line

namespace Listing

/-- The listing that a disassembler gives of a processor's memory. -/
def of (disassembler : Disassembler) (c : Cpu) (view : View) : Listing where
  view
  line? := disassembler c view

/-- An address cut to the view. -/
def cut (l : Listing) (address : UInt32) : UInt32 := address &&& l.view.mask

/-- The address of the next instruction.  It never is the address itself. -/
def next (l : Listing) (address : UInt32) : UInt32 :=
  match l.line? address with
  | some line =>
    if l.cut line.next ≠ l.cut address then l.cut line.next else l.cut (address + 1)
  | none => l.cut (address + 1)

/-- The distance to the next instruction, forward through the view. -/
def stride (l : Listing) (address : UInt32) : UInt32 := l.cut (l.next address - address)

/-- Walks forward from `position` and gives the last instruction before `target`, if the walk
arrives there.  `last` is the instruction that the walk has just passed. -/
def lastBefore? (l : Listing) (target : Nat) : Nat → Nat → Nat → Option Nat
  | 0, position, last => if position = target then some last else none
  | steps + 1, position, last =>
    if position = target then some last
    else if target < position then none
    else lastBefore? l target steps (position + (l.stride (UInt32.ofNat position)).toNat) position

/-- The number of bytes that a walk back looks at. -/
def lookBack : Nat := 6

/-- Tries the starting points from the farthest one to the nearest. -/
def previousFrom? (l : Listing) (target : Nat) : Nat → Option Nat
  | 0 => none
  | back + 1 =>
    let start := target - (back + 1)
    (l.lastBefore? target (back + 1) start start).or (previousFrom? l target back)

/-- The address of the previous instruction.  The farthest starting point from which a walk arrives
decides; if there is none, it is one byte back.  Nothing comes before address zero. -/
def previous (l : Listing) (address : UInt32) : UInt32 :=
  let target := (l.cut address).toNat
  UInt32.ofNat ((l.previousFrom? target (min lookBack target)).getD (target - 1))

/-- The address of a line, counted from a first address. -/
def addressAt (l : Listing) (base : UInt32) (line : Nat) : UInt32 :=
  line.repeat l.next (l.cut base)

/-- Looks for an address among the lines from `position` on. -/
def findLine? (l : Listing) (target : UInt32) : Nat → UInt32 → Option Nat
  | 0, _ => none
  | lines + 1, position =>
    if position = target then some 0
    else (findLine? l target lines (l.next position)).map (· + 1)

/-- The first of a number of lines at which an address stands. -/
def lineOf? (l : Listing) (base : UInt32) (lines : Nat) (address : UInt32) : Option Nat :=
  l.findLine? (l.cut address) lines (l.cut base)

/-- Cutting an address a second time changes nothing. -/
@[simp] theorem cut_cut (l : Listing) (address : UInt32) :
    l.cut (l.cut address) = l.cut address := by
  simp [cut, UInt32.and_assoc]

/-- The next instruction has an address of the view. -/
@[simp] theorem cut_next (l : Listing) (address : UInt32) :
    l.cut (l.next address) = l.next address := by
  unfold next
  split
  · split <;> simp
  · simp

/-- The first line starts at the base. -/
@[simp] theorem addressAt_zero (l : Listing) (base : UInt32) :
    l.addressAt base 0 = l.cut base := rfl

/-- Each line starts behind the one before it. -/
@[simp] theorem addressAt_succ (l : Listing) (base : UInt32) (line : Nat) :
    l.addressAt base (line + 1) = l.next (l.addressAt base line) := rfl

/-- Every line has an address of the view. -/
theorem cut_addressAt (l : Listing) (base : UInt32) (line : Nat) :
    l.cut (l.addressAt base line) = l.addressAt base line := by
  cases line <;> simp

end Listing

end Z80Debugger
