import Z80Debugger.Cpu.Word

/-!
# Registers

The programmer's registers with the two interrupt flip-flops and the halt state.  The accumulator
and the flags are kept as two bytes; `af` is the pair that `push` and `pop` move.
-/

set_option autoImplicit false

namespace Z80Debugger

/-- The register file. -/
structure Registers where
  /-- The accumulator. -/
  a : UInt8 := 0
  /-- The flags. -/
  f : UInt8 := 0
  bc : UInt16 := 0
  de : UInt16 := 0
  hl : UInt16 := 0
  ix : UInt16 := 0
  iy : UInt16 := 0
  sp : UInt16 := 0
  pc : UInt16 := 0
  /-- Maskable interrupts are accepted. -/
  iff1 : Bool := false
  /-- The copy of `iff1` that a return from an interrupt restores. -/
  iff2 : Bool := false
  /-- Execution waits for an interrupt. -/
  halted : Bool := false
  deriving DecidableEq, Repr, Inhabited

namespace Registers

/-- The accumulator over the flags. -/
def af (r : Registers) : UInt16 := wordOf r.f r.a

/-- Loads the accumulator and the flags from one word. -/
def withAf (r : Registers) (w : UInt16) : Registers := { r with a := highByte w, f := lowByte w }

end Registers

end Z80Debugger
