import Z80Debugger.Breakpoint.Store
import Z80Debugger.Stepping

/-!
# The machine

A machine is a core, if one is attached, with the breakpoints of the user and the step session, and
it is either paused or running.  Steps start only while it is paused.  Whenever a trap stops it, the
session ends and the machine is paused.  Without a core it is always paused.
-/

set_option autoImplicit false

namespace Z80Debugger

/-- A core under the control of a debugger. -/
structure Machine where
  core : Option Core := none
  paused : Bool := true
  stepper : Stepper := none
  store : Store := {}
  /-- The handle that stopped the machine last. -/
  lastStop : Option Handle := none

namespace Machine

/-- A paused machine with a core or without one. -/
def ofCore (core : Option Core) : Machine := { core }

/-- The processor, if a core is attached. -/
def cpu? (m : Machine) : Option Cpu := m.core.map (·.cpu)

/-- The machine with its traps and breakpoints changed; nothing changes without a core. -/
def updateStore {α : Type} (m : Machine) (f : Store → Traps → α × Store × Traps) :
    Option (α × Machine) :=
  m.core.map fun core =>
    let (a, store, traps) := f m.store core.traps
    (a, { m with store, core := some { core with traps } })

/-- The machine with its traps and breakpoints changed, if a core is attached and the change can be
made. -/
def updateStore? (m : Machine) (f : Store → Traps → Option (Store × Traps)) : Option Machine :=
  m.core.bind fun core =>
    (f m.store core.traps).map fun (store, traps) =>
      { m with store, core := some { core with traps } }

/-- Ends the session. -/
def cancelStep (m : Machine) : Machine :=
  { m with
    core := m.core.map fun core => { core with traps := m.stepper.cancel core.traps }
    stepper := none }

/-- Removes all breakpoints and the session. -/
def reset (m : Machine) : Machine :=
  let m := m.cancelStep
  match m.core with
  | some core =>
    let (store, traps) := m.store.clear core.traps
    { m with store, core := some { core with traps } }
  | none => { m with store := m.store.forget }

/-- Attaches another core or none and gives back the one that was attached, from which every
breakpoint has been removed. -/
def replaceCore (m : Machine) (core : Option Core) : Option Core × Machine :=
  let m := m.reset
  (m.core, { m with core, paused := true, lastStop := none })

/-- Starts a session and runs, if a core is attached, the machine is paused and the core takes the
trampoline. -/
def startStep (m : Machine) (start : Stepper → Core → Stepper × Traps) : Bool × Machine :=
  match m.core, m.paused with
  | some core, true =>
    let (stepper, traps) := start m.stepper core
    (stepper.isSome,
      { m with stepper, core := some { core with traps }, paused := !stepper.isSome })
  | _, _ => (false, m)

/-- Steps into the next instruction. -/
def stepInto (m : Machine) : Bool × Machine :=
  m.startStep fun stepper core => stepper.stepInto core.traps

/-- Steps over the next instruction. -/
def stepOver (m : Machine) (disassembler : Disassembler) : Bool × Machine :=
  m.startStep fun stepper core => stepper.stepOver disassembler core.cpu core.traps

/-- Runs until the routine returns. -/
def finish (m : Machine) : Bool × Machine :=
  m.startStep fun stepper core => stepper.finish core.cpu core.traps

/-- Ends the session and runs, if a core is attached. -/
def run (m : Machine) : Machine :=
  if m.core.isSome then { m.cancelStep with paused := false } else m

/-- Ends the session and pauses. -/
def pause (m : Machine) : Machine :=
  if m.core.isSome then { m.cancelStep with paused := true } else { m with paused := true }

/-- Runs one instruction, unless the machine is paused. -/
def executeOne (m : Machine) : Option Outcome × Machine :=
  if m.paused then (none, m)
  else match m.core with
    | none => (none, { m with paused := true })
    | some core =>
      match core.execute Stepper.test m.stepper with
      | (.continued, core, stepper) => (some .continued, { m with core := some core, stepper })
      | (.stopped h, core, stepper) =>
        let m := { m with core := some core, stepper }
        (some (.stopped h), { m.cancelStep with paused := true, lastStop := some h })

/-- What came of running a number of instructions. -/
inductive Progress where
  | stopped (h : Handle)
  /-- All instructions have run, and the machine still runs. -/
  | outOfBudget
  | idle
  deriving DecidableEq, Repr

/-- Runs up to a number of instructions. -/
def runFor (m : Machine) : Nat → Progress × Machine
  | 0 => (.outOfBudget, m)
  | n + 1 => match m.executeOne with
    | (none, m) => (.idle, m)
    | (some (.stopped h), m) => (.stopped h, m)
    | (some .continued, m) => runFor m n

/-- Whether nothing that decides about the next instructions has changed: such a machine goes on for
ever.  An instruction that leaves every register as it was, the program counter too, writes no
memory. -/
def standsStill (before after : Machine) : Bool :=
  match before.core, after.core with
  | some b, some a =>
    b.cpu.registers = a.cpu.registers && b.cpu.interruptPending == a.cpu.interruptPending &&
      b.resumeAt == a.resumeAt && decide (b.traps = a.traps) &&
      decide (before.stepper = after.stepper) && before.paused == after.paused
  | _, _ => false

/-- Runs until the machine is paused, it stands still, or a number of instructions have run. -/
def runUntilPaused (m : Machine) : Nat → Machine
  | 0 => m
  | n + 1 =>
    if m.paused then m
    else
      let next := m.executeOne.2
      if m.standsStill next then next else runUntilPaused next n

end Machine

end Z80Debugger
