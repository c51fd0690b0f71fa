import Z80Debugger.Proofs.Core.Stops
import Z80Debugger.Proofs.Machine.Account

/-!
# What controls a machine

Whether a machine is paused, its step session, its breakpoints and its core are changed one by one,
by commands and by the running program.  `Machine.Controlled` says how they belong together at every
moment, whatever is attached and whatever is done to the core from outside.  A trap that stops the
machine was registered when the call began, so in a core without foreign traps it belongs to a
breakpoint or to the session, and the session's test is never asked about anything else.
-/

set_option autoImplicit false

namespace Z80Debugger

/-- A handle that is hit is in the table. -/
theorem Traps.mem_handles_of_mem_hits {ts : Traps} {c : Cpu} {e : Event} {h : Handle}
    (hhit : h ∈ ts.hits c e) : h ∈ ts.handles := by
  obtain ⟨t, hentry, _⟩ := mem_hits_iff.mp hhit
  exact List.mem_map_of_mem hentry

namespace Core

/-- The fetch is all that can stop a call before the instruction. -/
theorem mem_hits_of_stopBefore {σ : Type} {test : Test σ} {c : Core} {state : σ} {h : Handle}
    (hstop : stopBefore test c state = some h) :
    h ∈ c.traps.hits c.cpu (.fetch c.cpu.registers.pc) := by
  by_cases hquiet : (c.cpu.registers.halted || c.resumes) = true
  · rw [stopBefore, eventsBefore, if_pos hquiet] at hstop
    cases hstop
  · rw [Bool.or_eq_true, not_or, Bool.not_eq_true, Bool.not_eq_true] at hquiet
    rw [stopBefore_of_fetch test state hquiet.1 hquiet.2] at hstop
    exact Traps.mem_of_firstStop_eq_some hstop

/-- Nothing that happens once the instruction runs is a fetch. -/
theorem kind_ne_memoryExec {c : Cpu} {e : Event} (he : e ∈ (runInstruction c).2) :
    e.kind ≠ .memoryExec := by
  rcases List.mem_append.mp he with he | he
  · obtain ⟨a, _, rfl⟩ := List.mem_map.mp he
    cases a <;> simp [Event.kind]
  · rw [List.mem_singleton.mp he]
    simp [Event.kind]

end Core

namespace Stepper

/-- Beside what was in a table, tests of sessions put only traps on reaching an address there. -/
theorem preserves_registered (before : Traps) :
    Test.Preserves test fun state =>
      ∀ entry ∈ state.1.entries, entry ∈ before.entries ∨ entry.2.kind = .memoryExec := by
  intro c h opcode ⟨ts, s⟩ _ _ _ hts entry hentry
  rcases traps_test c h opcode ts s with hsame | herased | ⟨trampoline, target, hmoved⟩
  · rw [hsame] at hentry
    exact hts entry hentry
  · rw [herased] at hentry
    exact hts entry (List.mem_filter.mp hentry).1
  · obtain ⟨_, _, _, hafter⟩ := Traps.add?_eq_some_iff.mp hmoved
    rw [hafter] at hentry
    rcases List.mem_append.mp hentry with hentry | hentry
    · exact hts entry (List.mem_filter.mp hentry).1
    · rw [List.mem_singleton.mp hentry]
      exact Or.inr rfl

/-- What stops a call was in the table when the call began. -/
theorem mem_handles_of_stopped {c : Core} {s : Stepper} {h : Handle}
    (hstopped : (c.execute test s).1 = .stopped h) : h ∈ c.traps.handles := by
  rcases Core.execute_cases test c s with ⟨k, between, hfirst, hresult⟩ |
    ⟨between, stop?, after, hfirst, hsecond, hresult⟩
  · rw [hresult] at hstopped
    cases hstopped
    have hstop : Core.stopBefore test c s = some h := congrArg (·.1) hfirst
    exact Traps.mem_handles_of_mem_hits (Core.mem_hits_of_stopBefore hstop)
  · rw [hresult] at hstopped
    cases stop? with
    | none => cases hstopped
    | some k =>
      cases hstopped
      have hbetween := Traps.check_preserves (preserves_registered c.traps) c.cpu
        c.cpu.code.opcode c.eventsBefore (c.traps, s) fun _ => Or.inl
      rw [hfirst] at hbetween
      obtain ⟨state, hstate, e, he, hhit⟩ := Traps.exists_hit_of_check_eq_some
        (preserves_registered c.traps) hbetween (congrArg (·.1) hsecond)
      obtain ⟨t, hentry, hhit⟩ := Traps.mem_hits_iff.mp hhit
      rcases hstate _ hentry with hentry | hkind
      · exact List.mem_map_of_mem hentry
      · -- A trap that a test has put there waits for a fetch, and none happens any more.
        have hsame : t.kind = e.kind := by simpa using (Bool.and_eq_true_iff.mp hhit).1
        exact absurd (hsame.symm.trans hkind) (Core.kind_ne_memoryExec he)

end Stepper

namespace Machine

/-- One thing that happens to a machine, to which any core may be attached. -/
inductive Action where
  | operation (op : Operation)
  /-- A core is attached, whatever traps it has, or none. -/
  | attach (core : Option Core)
  /-- The core is changed from outside in any way, its traps too. -/
  | outside (f : Core → Core)

/-- The machine after an action. -/
def Action.apply (m : Machine) : Action → Machine
  | operation op => op.apply m
  | attach core => (m.replaceCore core).2
  | outside f => { m with core := m.core.map f }

/-- The machine after actions in order. -/
def runAll (m : Machine) (actions : List Action) : Machine := actions.foldl Action.apply m

/-- How core, pause, session and breakpoints belong together. -/
structure Controlled (m : Machine) : Prop where
  /-- A session goes on only in a machine that runs. -/
  session : m.stepper.isSome = true → m.core.isSome = true ∧ m.paused = false
  /-- Without a core there is nothing to run and nothing to break on. -/
  detached : m.core = none → m.paused = true ∧ m.stepper = none ∧ m.store.entries = []

variable {m n : Machine}

/-- A machine that starts is controlled. -/
theorem controlled_ofCore (core : Option Core) : (ofCore core).Controlled where
  session h := by cases h
  detached _ := ⟨rfl, rfl, rfl⟩

/-- A paused machine has no session. -/
theorem Controlled.stepper_eq_none (hm : m.Controlled) (hpaused : m.paused = true) :
    m.stepper = none := by
  cases hstepper : m.stepper with
  | none => rfl
  | some session =>
    have hruns := (hm.session (by rw [hstepper]; rfl)).2
    rw [hpaused] at hruns
    cases hruns

/-- With a core, a machine is controlled if a session only goes on while it runs. -/
theorem controlled_of_core (hcore : m.core.isSome = true)
    (hsession : m.stepper.isSome = true → m.paused = false) : m.Controlled where
  session h := ⟨hcore, hsession h⟩
  detached hnone := by
    rw [hnone] at hcore
    cases hcore

/-- With a core and without a session a machine is controlled. -/
theorem controlled_of_core_of_stepper_eq_none (hcore : m.core.isSome = true)
    (hstepper : m.stepper = none) : m.Controlled := by
  apply controlled_of_core hcore
  intro hsession
  rw [hstepper] at hsession
  cases hsession

/-- Without a session a machine is controlled if without a core it is paused and has no breakpoints.
-/
theorem controlled_of_stepper_eq_none (hstepper : m.stepper = none)
    (hnone : m.core = none → m.paused = true ∧ m.store.entries = []) : m.Controlled where
  session h := by
    rw [hstepper] at h
    cases h
  detached h := ⟨(hnone h).1, hstepper, (hnone h).2⟩

/-- The second machine is the first one, or a core is attached and at most that core and the
breakpoints have changed. -/
def EditedTo (m n : Machine) : Prop :=
  n = m ∨ ∃ core store, m.core.isSome = true ∧ n = { m with core := some core, store }

/-- An edit keeps a machine controlled. -/
theorem Controlled.edited (hm : m.Controlled) (hedited : m.EditedTo n) : n.Controlled := by
  rcases hedited with rfl | ⟨core, store, hcore, rfl⟩
  · exact hm
  · exact controlled_of_core rfl fun hsession => (hm.session hsession).2

/-- A change of the core is an edit. -/
theorem editedTo_map_core (m : Machine) (f : Core → Core) :
    m.EditedTo { m with core := m.core.map f } := by
  obtain ⟨core, paused, stepper, store, lastStop⟩ := m
  cases core with
  | none => exact Or.inl rfl
  | some core => exact Or.inr ⟨_, _, rfl, rfl⟩

/-- A machine whose core was replaced is controlled. -/
theorem controlled_replaceCore (m : Machine) (core : Option Core) :
    (m.replaceCore core).2.Controlled := by
  obtain ⟨hentries, hstepper⟩ := m.reset_store_stepper
  exact controlled_of_stepper_eq_none hstepper fun _ => ⟨rfl, hentries⟩

/-- Every effect of an operation keeps the machine controlled: only starting, ending and running
through a session touches it or the pause. -/
theorem Controlled.effect (hm : m.Controlled) {op : Operation} (heffect : op.Effect m n) :
    n.Controlled := by
  cases heffect with
  | store _ hcore =>
    exact hm.edited (Or.inr ⟨_, _, Option.isSome_of_eq_some hcore, rfl⟩)
  | limit _ hcore | change _ hcore =>
    exact hm.edited (Or.inr ⟨_, m.store, Option.isSome_of_eq_some hcore, rfl⟩)
  | start =>
    apply controlled_of_core rfl
    intro hstarted
    exact congrArg not hstarted
  | cancel paused lastStop hcore =>
    exact controlled_of_core_of_stepper_eq_none (Option.isSome_map.trans hcore) rfl
  | pause hcore =>
    obtain ⟨_, hstepper, hstore⟩ := hm.detached hcore
    exact controlled_of_stepper_eq_none hstepper fun _ => ⟨rfl, hstore⟩
  | forget hcore => exact controlled_of_stepper_eq_none rfl fun _ => ⟨(hm.detached hcore).1, rfl⟩
  | execute _ _ hrunning => exact controlled_of_core rfl fun _ => hrunning
  | attach _ hstore hstepper =>
    exact controlled_of_stepper_eq_none hstepper fun _ => ⟨rfl, hstore⟩

/-- Every operation keeps the machine controlled. -/
theorem Controlled.apply (hm : m.Controlled) (op : Operation) : (op.apply m).Controlled :=
  Operation.preserves (fun _ _ hn heffect => hn.effect heffect) hm

/-- Every action keeps a machine controlled. -/
theorem Controlled.act (hm : m.Controlled) (action : Action) : (action.apply m).Controlled := by
  cases action with
  | operation op => exact hm.apply op
  | attach core => exact controlled_replaceCore m core
  | outside f => exact hm.edited (editedTo_map_core m f)

/-- Any actions keep a machine controlled. -/
theorem Controlled.runAll (hm : m.Controlled) (actions : List Action) :
    (m.runAll actions).Controlled := by
  induction actions generalizing m with
  | nil => exact hm
  | cons action actions ih => exact ih (hm.act action)

/-- What a call that is stopped has found and what it leaves. -/
theorem of_executeOne_eq_stopped {h : Handle} (hstopped : m.executeOne.1 = some (.stopped h)) :
    (∃ core, m.core = some core ∧ (core.execute Stepper.test m.stepper).1 = .stopped h) ∧
      m.executeOne.2.paused = true ∧ m.executeOne.2.stepper = none ∧
      m.executeOne.2.lastStop = some h := by
  obtain ⟨core, paused, stepper, store, lastStop⟩ := m
  match paused, core with
  | true, _ => cases hstopped
  | false, none => cases hstopped
  | false, some core =>
    simp only [Machine.executeOne] at hstopped ⊢
    generalize hresult : core.execute Stepper.test stepper = result at hstopped
    obtain ⟨outcome, after, session⟩ := result
    cases outcome with
    | continued => cases hstopped
    | stopped k =>
      cases hstopped
      exact ⟨⟨core, rfl, congrArg (·.1) hresult⟩, rfl, rfl, rfl⟩

/-- Whatever is done to a machine that may be attached to any core: a session goes on only in a
machine that runs with a core attached, a machine without a core is paused and has neither session
nor breakpoints, and the call that a trap stops leaves the machine paused without a session, with
that trap as the last stop.

If the cores came without traps, then what stops a call is the handle of a breakpoint or the
trampoline of the session, as they were before the call.  And the call would be the same with any
test that differs from the one of sessions where there is no session or the handle is not its
trampoline: it is never asked there. -/
theorem control_state :
    (∀ (core : Option Core) (actions : List Action),
      let m := (ofCore core).runAll actions
      (m.stepper.isSome = true → m.core.isSome = true ∧ m.paused = false) ∧
      (m.core = none → m.paused = true ∧ m.stepper = none ∧ m.store.entries = []) ∧
      ∀ h, m.executeOne.1 = some (.stopped h) →
        let after := m.executeOne.2
        after.paused = true ∧ after.stepper = none ∧ after.lastStop = some h) ∧
    ∀ (core : Option FreeCore) (ops : List Operation),
      let m := (start core).applyAll ops
      (∀ h, m.executeOne.1 = some (.stopped h) →
        h ∈ m.store.handles ∨ ∃ session, m.stepper = some session ∧ session.trampoline = h) ∧
      ∀ c ∈ m.core, ∀ other, Stepper.AgreesOnOwn other →
        c.execute other m.stepper = c.execute Stepper.test m.stepper := by
  constructor
  · intro core actions m
    have hm : m.Controlled := (controlled_ofCore core).runAll actions
    refine ⟨hm.session, hm.detached, ?_⟩
    intro h hstopped
    exact (of_executeOne_eq_stopped hstopped).2
  · intro core ops m
    have hm : m.Accounted := accounted_applyAll core ops
    constructor
    · intro h hstopped
      obtain ⟨⟨c, hc, hcall⟩, _⟩ := of_executeOne_eq_stopped hstopped
      have hregistered := Stepper.mem_handles_of_stopped hcall
      have hlisted := (hm.accounts hc).table.handles_perm.mem_iff.mp hregistered
      rw [List.map_append, Stepper.map_armed, hm.store_wellFormed.map_armed] at hlisted
      rcases List.mem_append.mp hlisted with hsession | hstore
      · right
        simpa using hsession
      · exact Or.inl hstore
    · intro c hc other hother
      have huntested : ∀ entry ∈ m.store.armed, entry.2.tested = false :=
        fun _ => Store.untested_of_mem_armed
      exact Stepper.execute_eq_of_agreesOnOwn hother huntested c (hm.accounts hc).table

end Machine

end Z80Debugger
