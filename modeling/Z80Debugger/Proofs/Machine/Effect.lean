import Mathlib.Logic.Relation
import Z80Debugger.Proofs.Breakpoint.Change
import Z80Debugger.Proofs.Machine.Operation
import Z80Debugger.Proofs.Stepping.Trampoline

/-!
# What an operation does to a machine

Seventeen operations act on a machine, but what they do to it comes in nine kinds of effects, some
of them in a row: a reset ends the session before it removes the breakpoints, and running a number
of instructions runs one after the other.  `Operation.Effect` lists the effects with what they need,
and `Operation.effects` says that each operation is a row of its effects.  What every effect of an
operation keeps is then kept by the operation: `Operation.preserves`.
-/

set_option autoImplicit false

namespace Z80Debugger.Machine

/-- What the operation does to the store. -/
def Operation.onStore? : Operation → Option Store.Operation
  | add b => some (.add b)
  | replace id b => some (.replace id b)
  | remove id => some (.remove id)
  | setEnabled id enabled => some (.setEnabled id enabled)
  | toggle address space => some (.toggle address space)
  | clear | reset | replaceCore _ => some .clear
  | _ => none

/-- The operation runs instructions. -/
def Operation.Executes : Operation → Prop
  | executeOne | runFor _ => True
  | _ => False

/-- What an operation may do to a machine at once. -/
inductive Operation.Effect (op : Operation) (m : Machine) : Machine → Prop where
  | store {change : Store.Operation} {core : Core} (hop : op.onStore? = some change)
    (hcore : m.core = some core) :
    op.Effect m
      { m with
        store := (change.apply (m.store, core.traps)).1
        core := some { core with traps := (change.apply (m.store, core.traps)).2 } }
  /-- A session starts, unless the core refuses its trampoline. -/
  | start {core : Core} {kind : StepKind} (hkind : kind.trap = .everyOpcode)
    (hcore : m.core = some core) (hpaused : m.paused = true) :
    op.Effect m
      { m with
        stepper := (m.stepper.start core.traps kind).1
        core := some { core with traps := (m.stepper.start core.traps kind).2 }
        paused := !(m.stepper.start core.traps kind).1.isSome }
  /-- The session ends, and the machine is paused or set running. -/
  | cancel (paused : Bool) (lastStop : Option Handle) (hcore : m.core.isSome = true) :
    op.Effect m { m.cancelStep with paused, lastStop }
  | pause (hcore : m.core = none) : op.Effect m { m with paused := true }
  | forget (hcore : m.core = none) :
    op.Effect m { m with stepper := none, store := m.store.forget }
  | execute {core after : Core} {stepper : Stepper} {outcome : Outcome} (hop : op.Executes)
    (hcore : m.core = some core) (hrunning : m.paused = false)
    (hresult : core.execute Stepper.test m.stepper = (outcome, after, stepper)) :
    op.Effect m { m with core := some after, stepper }
  /-- A core takes the place of one that has been reset. -/
  | attach {core : Option FreeCore} (hop : op = .replaceCore core)
    (hstore : m.store.entries = []) (hstepper : m.stepper = none) :
    op.Effect m { m with core := core.map (·.core), paused := true, lastStop := none }
  | limit {traps : Option Nat} {core : Core} (hop : op = .limit traps)
    (hcore : m.core = some core) :
    op.Effect m { m with core := some { core with traps := { core.traps with limit := traps } } }
  | change {f : Cpu → Cpu} {core : Core} (hop : op = .change f) (hcore : m.core = some core) :
    op.Effect m { m with core := some { core with cpu := f core.cpu } }

variable {op : Operation} {m : Machine}

/-- After a reset there are no breakpoints and no session. -/
theorem reset_store_stepper (m : Machine) :
    m.reset.store.entries = [] ∧ m.reset.stepper = none := by
  obtain ⟨core, paused, stepper, store, lastStop⟩ := m
  cases core <;> exact ⟨rfl, rfl⟩

namespace Operation

open Relation

/-- A change of the store that can be made is an effect, and one that cannot be made is none. -/
theorem effects_updateStore? (m : Machine) {change : Store.Operation}
    (hop : op.onStore? = some change) {f : Store → Traps → Option (Store × Traps)}
    (hf : ∀ store traps, change.apply (store, traps) = (f store traps).getD (store, traps)) :
    ReflTransGen op.Effect m ((m.updateStore? f).getD m) := by
  obtain ⟨core, paused, stepper, store, lastStop⟩ := m
  cases core with
  | none => exact .refl
  | some core =>
    apply ReflTransGen.single
    have heffect := Effect.store (m := ⟨some core, paused, stepper, store, lastStop⟩) hop rfl
    rw [hf] at heffect
    simp only [updateStore?, Option.bind_some]
    cases hresult : f store core.traps with
    | none => simpa [hresult] using heffect
    | some pair => simpa [hresult] using heffect

/-- A change of the store that can always be made is an effect, if there is a core. -/
theorem effects_storeChanged (m : Machine) {change : Store.Operation}
    (hop : op.onStore? = some change) {α : Type} {f : Store → Traps → α × Store × Traps}
    (hf : ∀ store traps, change.apply (store, traps) = (f store traps).2) :
    ReflTransGen op.Effect m (storeChanged m f) := by
  obtain ⟨core, paused, stepper, store, lastStop⟩ := m
  cases core with
  | none => exact .refl
  | some core =>
    apply ReflTransGen.single
    have heffect := Effect.store (m := ⟨some core, paused, stepper, store, lastStop⟩) hop rfl
    rw [hf] at heffect
    exact heffect

/-- A session starts in a machine that is paused, if there is a core. -/
theorem effects_startStep (m : Machine) {kind : Core → StepKind}
    (hkind : ∀ core, (kind core).trap = .everyOpcode) :
    ReflTransGen op.Effect m
      (m.startStep fun stepper core => stepper.start core.traps (kind core)).2 := by
  obtain ⟨core, paused, stepper, store, lastStop⟩ := m
  match core, paused with
  | none, _ => exact .refl
  | some _, false => exact .refl
  | some core, true => exact .single (.start (hkind core) rfl rfl)

/-- A stop ends the session after the call. -/
theorem effects_executeOne (hop : op.Executes) (m : Machine) :
    ReflTransGen op.Effect m m.executeOne.2 := by
  unfold Machine.executeOne
  split
  · exact .refl
  · next hpaused =>
    have hrunning : m.paused = false := Bool.not_eq_true _ ▸ hpaused
    split
    · next hcore => exact .single (.pause hcore)
    · next core hcore =>
      have hran : ∀ outcome after stepper,
          core.execute Stepper.test m.stepper = (outcome, after, stepper) →
            op.Effect m { m with core := some after, stepper } :=
        fun _ _ _ => .execute hop hcore hrunning
      split
      · next hresult => exact .single (hran _ _ _ hresult)
      · next h _ _ hresult =>
        exact (ReflTransGen.single (hran _ _ _ hresult)).tail (.cancel true (some h) rfl)

/-- A reset ends the session and then removes the breakpoints. -/
theorem effects_reset (hop : op.onStore? = some .clear) (m : Machine) :
    ReflTransGen op.Effect m m.reset := by
  obtain ⟨core, paused, stepper, store, lastStop⟩ := m
  cases core with
  | none => exact .single (.forget rfl)
  | some core =>
    exact (ReflTransGen.single (.cancel paused lastStop rfl)).tail (.store hop rfl)

/-- Every operation is a row of its effects. -/
theorem effects (op : Operation) (m : Machine) : ReflTransGen op.Effect m (op.apply m) := by
  cases op with
  | add | toggle | clear => exact effects_storeChanged m rfl fun _ _ => rfl
  | replace | remove | setEnabled => exact effects_updateStore? m rfl fun _ _ => rfl
  | stepInto | stepOver | finish => exact effects_startStep m fun _ => rfl
  | run =>
    simp only [apply, Machine.run]
    split
    · next hcore => exact .single (.cancel false m.lastStop hcore)
    · exact .refl
  | pause =>
    simp only [apply, Machine.pause]
    split
    · next hcore => exact .single (.cancel true m.lastStop hcore)
    · next hcore => exact .single (.pause (Option.not_isSome_iff_eq_none.mp hcore))
  | executeOne =>
    have hexecutes : executeOne.Executes := trivial
    exact effects_executeOne hexecutes m
  | runFor instructions =>
    have hexecutes : (runFor instructions).Executes := trivial
    have hcall := fun n (hn : ReflTransGen (Effect _) m n) =>
      hn.trans (effects_executeOne hexecutes n)
    exact runFor_induction hcall .refl instructions
  | reset => exact effects_reset rfl m
  | replaceCore core =>
    obtain ⟨hstore, hstepper⟩ := reset_store_stepper m
    exact (effects_reset rfl m).tail (.attach rfl hstore hstepper)
  | limit traps =>
    obtain ⟨core, paused, stepper, store, lastStop⟩ := m
    cases core with
    | none => exact .refl
    | some core => exact .single (.limit rfl rfl)
  | change f =>
    obtain ⟨core, paused, stepper, store, lastStop⟩ := m
    cases core with
    | none => exact .refl
    | some core => exact .single (.change rfl rfl)

/-- What every effect of an operation keeps is kept by the operation. -/
theorem preserves {P : Machine → Prop} (hstep : ∀ m n, P m → op.Effect m n → P n) (hm : P m) :
    P (op.apply m) := by
  have hrow := effects op m
  generalize op.apply m = after at hrow
  induction hrow with
  | refl => exact hm
  | tail _ heffect ih => exact hstep _ _ ih heffect

end Operation

end Z80Debugger.Machine
