import Z80Debugger.Proofs.Debugger.Armed

/-!
# A debugger at rest

A debugger is in order when its traps are accounted for and its machine is controlled; everything
that is done with it and everything that its program does keeps it so.  It is at rest when its
machine is paused besides.  Then there is no session, and no trampoline is left in the core.
Looking around and changing breakpoints leaves a debugger at rest, pausing it brings it to rest, and
a step that cannot be started leaves it paused.
-/

set_option autoImplicit false

namespace Z80Debugger

namespace Machine

/-- A step that is not started leaves the machine paused. -/
theorem paused_of_not_started {m : Machine} {start : Stepper → Core → Stepper × Traps}
    (hpaused : m.paused = true) (hfailed : (m.startStep start).1 = false) :
    (m.startStep start).2.paused = true := by
  unfold Machine.startStep at hfailed ⊢
  split at hfailed
  · simp only at hfailed ⊢
    rw [hfailed]
    rfl
  · exact hpaused

/-- A change of the breakpoints leaves the pause as it is. -/
theorem paused_storeChanged {α : Type} (m : Machine) (f : Store → Traps → α × Store × Traps) :
    (Operation.storeChanged m f).paused = m.paused := by
  obtain ⟨core, paused, stepper, store, lastStop⟩ := m
  cases core <;> rfl

/-- So does a change that may fail. -/
theorem paused_updateStore? (m : Machine) (f : Store → Traps → Option (Store × Traps)) :
    ((m.updateStore? f).getD m).paused = m.paused := by
  obtain ⟨core, paused, stepper, store, lastStop⟩ := m
  cases core with
  | none => rfl
  | some core =>
    simp only [updateStore?, Option.bind_some]
    cases f store core.traps <;> rfl

end Machine

namespace Debugger

variable {d after : Debugger} {op : Operation}

/-- The traps are accounted for, and pause, session and core belong together. -/
structure InOrder (d : Debugger) : Prop where
  accounted : d.machine.Accounted
  controlled : d.machine.Controlled

/-- The machine is paused, and all is in order. -/
structure AtRest (d : Debugger) : Prop extends InOrder d where
  paused : d.machine.paused = true

/-- The debugger after the worker has had its machine once. -/
def work (d : Debugger) : Debugger := { d with machine := d.machine.executeOne.2 }

/-- The worker's turn keeps all in order. -/
theorem InOrder.work (h : d.InOrder) : d.work.InOrder where
  accounted := h.accounted.apply .executeOne
  controlled := h.controlled.apply .executeOne

/-- A regular operation keeps all in order. -/
theorem InOrder.perform (h : d.InOrder) (hop : op.Regular) : (d.perform op).2.InOrder where
  accounted := by
    obtain ⟨ops, -, hmachine⟩ := d.comesTo_perform hop
    rw [← hmachine]
    exact Machine.applyAll_induction (fun _ op hm => hm.apply op) h.accounted ops
  controlled := controlled_perform h.controlled op

/-- Running on keeps all in order. -/
theorem InOrder.run (h : d.InOrder) : d.run.InOrder := by
  have hop : Operation.Regular .run := trivial
  exact h.perform hop

/-- A pause brings a debugger to rest. -/
theorem InOrder.pause (h : d.InOrder) : d.pause.AtRest where
  toInOrder := by
    have hop : Operation.Regular .pause := trivial
    exact h.perform hop
  paused := by
    unfold Debugger.pause Machine.pause
    split <;> rfl

/-- No session goes on at rest, and every trap in the core is one of the breakpoints' and is taken
without a test. -/
theorem AtRest.traps (h : d.AtRest) :
    d.machine.stepper = none ∧ ∀ c ∈ d.machine.core,
      c.traps.handles.Perm d.machine.store.handles ∧
      ∀ handle t, c.traps.find? handle = some t → t.tested = false := by
  have hstepper := h.controlled.stepper_eq_none h.paused
  refine ⟨hstepper, fun c hc => ?_⟩
  have haccounts := h.accounted.accounts hc
  have htable : c.traps.Holds d.machine.store.armed := by
    rw [hstepper] at haccounts
    exact haccounts.table
  constructor
  · have hperm := htable.handles_perm
    rwa [h.accounted.store_wellFormed.map_armed] at hperm
  · intro handle t hfind
    exact Store.untested_of_mem_armed (htable.find?_eq_some_iff.mp hfind)

/-- The worker does nothing with a debugger at rest. -/
theorem AtRest.work_eq (h : d.AtRest) : d.work = d := by
  rw [Debugger.work, Machine.executeOne, if_pos h.paused]

/-- The operation looks around, or changes breakpoints or symbols. -/
def Operation.Edits : Operation → Prop
  | .setBreakpoint _ _ | .removeBreakpoint _ | .setEnabled _ _ | .toggle _ | .toggleSelected => True
  | .goTo _ | .goToPc | .goToStack _ | .scroll _ | .move _ | .setView _ => True
  | .disassembly | .loadSymbols _ _ => True
  | _ => False

/-- An operation that only edits is regular. -/
theorem Operation.Edits.regular (hop : op.Edits) : op.Regular := by
  cases op <;> first | exact trivial | exact hop.elim

/-- An operation that only edits leaves the pause as it is. -/
theorem paused_perform (d : Debugger) (hop : op.Edits) :
    (d.perform op).2.machine.paused = d.machine.paused := by
  rw [machine_perform]
  cases op with
  | setBreakpoint text existing =>
    simp only [Operation.action?]
    split
    · rfl
    · next b _ =>
      rw [Option.elim_some, Machine.Action.apply, ← storeChanged_putBreakpoint]
      exact d.machine.paused_storeChanged _
  | removeBreakpoint | setEnabled => exact d.machine.paused_updateStore? _
  | toggle | toggleSelected => exact d.machine.paused_storeChanged _
  | goTo | goToPc | goToStack | scroll | move | setView | disassembly | loadSymbols => rfl
  | _ => exact hop.elim

/-- Looking around and changing breakpoints or symbols leaves a debugger at rest. -/
theorem AtRest.perform (h : d.AtRest) (hop : op.Edits) : (d.perform op).2.AtRest where
  toInOrder := h.toInOrder.perform hop.regular
  paused := (d.paused_perform hop).trans h.paused

/-- Starting a step, or trying to, leaves everything in order, and paused if it does not start. -/
theorem AtRest.starts (h : d.AtRest) (hop : op.Regular)
    (start : Stepper → Core → Stepper × Traps) {result : Bool × Debugger}
    (hperform : d.perform op = concludeStart result)
    (hstarted : result.1 = (d.machine.startStep start).1)
    (hmachine : result.2.machine = (d.machine.startStep start).2) :
    result.2.InOrder ∧ (result.1 = false → result.2.machine.paused = true) := by
  have horder := h.toInOrder.perform hop
  rw [hperform] at horder
  refine ⟨horder, fun hfailed => ?_⟩
  rw [hmachine]
  rw [hstarted] at hfailed
  exact Machine.paused_of_not_started h.paused hfailed

/-- A step into keeps all in order, and the machine paused if it does not start. -/
theorem AtRest.stepInto (h : d.AtRest) :
    d.stepInto.2.InOrder ∧ (d.stepInto.1 = false → d.stepInto.2.machine.paused = true) :=
  have hop : Operation.Regular .stepInto := trivial
  h.starts hop (fun stepper core => stepper.stepInto core.traps) rfl rfl rfl

/-- So does a step over. -/
theorem AtRest.stepOver (h : d.AtRest) :
    d.stepOver.2.InOrder ∧ (d.stepOver.1 = false → d.stepOver.2.machine.paused = true) :=
  have hop : Operation.Regular .stepOver := trivial
  h.starts hop (fun stepper core => stepper.stepOver d.symbols.disassembler core.cpu core.traps)
    rfl rfl rfl

/-- So does a step out. -/
theorem AtRest.finish (h : d.AtRest) :
    d.finish.2.InOrder ∧ (d.finish.1 = false → d.finish.2.machine.paused = true) :=
  have hop : Operation.Regular .finish := trivial
  h.starts hop (fun stepper core => stepper.finish core.cpu core.traps) rfl rfl rfl

end Debugger

end Z80Debugger
