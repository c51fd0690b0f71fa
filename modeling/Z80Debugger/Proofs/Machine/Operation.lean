import Z80Debugger.Machine

/-!
# Operations on a machine

All that a user or a running program can do to a machine, as data, so that statements can speak
about any sequence of operations in any order.  An operation that cannot be carried out leaves the
machine as it was.
-/

set_option autoImplicit false

namespace Z80Debugger

/-- A core in which no trap is registered. -/
structure FreeCore where
  core : Core
  free : core.traps.entries = []

namespace Machine

/-- One thing that can be done to a machine. -/
inductive Operation where
  | add (b : Breakpoint)
  | replace (id : BreakpointId) (b : Breakpoint)
  | remove (id : BreakpointId)
  | setEnabled (id : BreakpointId) (enabled : Bool)
  | toggle (address : UInt32) (space : Space)
  | clear
  | stepInto
  | stepOver (disassembler : Disassembler)
  | finish
  | run
  | pause
  | executeOne
  | runFor (instructions : Nat)
  | reset
  /-- Another core is attached, or none. -/
  | replaceCore (core : Option FreeCore)
  /-- The number of traps that the core takes is limited anew. -/
  | limit (traps : Option Nat)
  /-- The processor is changed from outside: registers or memory are set, or an interrupt raised. -/
  | change (f : Cpu → Cpu)

namespace Operation

/-- The machine after a change of its breakpoints, which is the same machine without a core. -/
def storeChanged {α : Type} (m : Machine) (f : Store → Traps → α × Store × Traps) : Machine :=
  ((m.updateStore f).map (·.2)).getD m

/-- The machine after an operation. -/
def apply (m : Machine) : Operation → Machine
  | add b => storeChanged m fun store traps => store.add traps b
  | replace id b => (m.updateStore? fun store traps => store.replace? traps id b).getD m
  | remove id => (m.updateStore? fun store traps => store.remove? traps id).getD m
  | setEnabled id enabled =>
    (m.updateStore? fun store traps => store.setEnabled? traps id enabled).getD m
  | toggle address space => storeChanged m fun store traps => store.toggle traps address space
  | clear => storeChanged m fun store traps => ((), store.clear traps)
  | stepInto => m.stepInto.2
  | stepOver disassembler => (m.stepOver disassembler).2
  | finish => m.finish.2
  | run => m.run
  | pause => m.pause
  | executeOne => m.executeOne.2
  | runFor instructions => (m.runFor instructions).2
  | reset => m.reset
  | replaceCore core => (m.replaceCore (core.map (·.core))).2
  | limit traps =>
    { m with
      core := m.core.map fun core => { core with traps := { core.traps with limit := traps } } }
  | change f => { m with core := m.core.map fun core => { core with cpu := f core.cpu } }

end Operation

/-- The machine after operations in order. -/
def applyAll (m : Machine) (ops : List Operation) : Machine := ops.foldl Operation.apply m

/-- A machine as it starts: paused, without breakpoints, with a free core or none. -/
def start (core : Option FreeCore) : Machine := .ofCore (core.map (·.core))

/-- What the call for one instruction keeps is kept while any number of instructions run. -/
theorem runFor_induction {P : Machine → Prop} (hstep : ∀ m, P m → P m.executeOne.2) {m : Machine}
    (hm : P m) (instructions : Nat) : P (m.runFor instructions).2 := by
  induction instructions generalizing m with
  | zero => exact hm
  | succ n ih =>
    have hnext := hstep m hm
    rw [runFor]
    generalize m.executeOne = result at hnext
    obtain ⟨outcome?, next⟩ := result
    match outcome? with
    | none => exact hnext
    | some (.stopped _) => exact hnext
    | some .continued => exact ih hnext

/-- What operations of some kind keep is kept by any such operations in order. -/
theorem applyAll_induction_of {P : Machine → Prop} {Q : Operation → Prop}
    (hstep : ∀ m op, Q op → P m → P (Operation.apply m op)) {m : Machine} (hm : P m)
    {ops : List Operation} (hops : ∀ op ∈ ops, Q op) : P (m.applyAll ops) := by
  induction ops generalizing m with
  | nil => exact hm
  | cons op ops ih =>
    exact ih (hstep m op (hops op List.mem_cons_self) hm)
      fun next hnext => hops next (List.mem_cons_of_mem op hnext)

/-- What holds at the start and is kept by every operation holds after any operations. -/
theorem applyAll_induction {P : Machine → Prop} (hstep : ∀ m op, P m → P (Operation.apply m op))
    {m : Machine} (hm : P m) (ops : List Operation) : P (m.applyAll ops) :=
  applyAll_induction_of (Q := fun _ => True) (fun m op _ => hstep m op) hm fun _ _ => trivial

end Machine

end Z80Debugger
