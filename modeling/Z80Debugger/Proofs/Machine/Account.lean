import Z80Debugger.Debugger
import Z80Debugger.Proofs.Breakpoint.Account
import Z80Debugger.Proofs.Machine.Effect

/-!
# The account of a machine

The operations on a machine register traps in the core and remove them, a running program moves the
trampoline of a session, and the core may refuse any registration.  `Machine.Accounted` is the
account that all of them keep: the core holds the traps behind the handles of the store and the
trampoline of the session, each once, and nothing else.
-/

set_option autoImplicit false

namespace Z80Debugger.Machine

/-- The attached core holds the traps of the store and of the session and no others; without a core
there are none. -/
def Accounted (m : Machine) : Prop :=
  match m.core with
  | some core => m.store.Accounts m.stepper.armed core.traps
  | none => m.store.entries = [] ∧ m.stepper = none

variable {m : Machine}

/-- With a core, the store accounts for its table beside the session's trampoline. -/
theorem Accounted.accounts (hm : m.Accounted) {core : Core} (hcore : m.core = some core) :
    m.store.Accounts m.stepper.armed core.traps := by
  unfold Accounted at hm
  rwa [hcore] at hm

/-- A store that is accounted for is well formed. -/
theorem Accounted.store_wellFormed (hm : m.Accounted) : m.store.WellFormed := by
  cases hcore : m.core with
  | some core => exact (hm.accounts hcore).toWellFormed
  | none =>
    unfold Accounted at hm
    rw [hcore] at hm
    exact Store.wellFormed_of_entries_eq_nil hm.1

/-- Breakpoints are only listed while a core is attached. -/
theorem Accounted.exists_core (hm : m.Accounted) {e : Entry} (he : e ∈ m.store.entries) :
    ∃ core, m.core = some core := by
  cases hcore : m.core with
  | some core => exact ⟨core, rfl⟩
  | none =>
    unfold Accounted at hm
    rw [hcore] at hm
    rw [hm.1] at he
    cases he

/-- A machine that starts has no traps to account for. -/
theorem accounted_start (core : Option FreeCore) : (start core).Accounted := by
  cases core with
  | none => exact ⟨rfl, rfl⟩
  | some free => exact Store.accounts_of_entries_eq_nil rfl (Traps.holds_nil free.free)

/-- The end of a session takes its trampoline out of table and account. -/
theorem Accounted.cancelStep (hm : m.Accounted) : m.cancelStep.Accounted := by
  obtain ⟨core, paused, stepper, store, lastStop⟩ := m
  cases core with
  | none => exact ⟨hm.1, rfl⟩
  | some core => exact ⟨hm.toWellFormed, Stepper.holds_cancel hm.table⟩

/-- Whether the machine is paused and what stopped it last do not matter. -/
theorem Accounted.congr {n : Machine} (hm : m.Accounted) (hcore : n.core = m.core)
    (hstepper : n.stepper = m.stepper) (hstore : n.store = m.store) : n.Accounted := by
  unfold Accounted at hm ⊢
  rw [hcore, hstepper, hstore]
  exact hm

/-- A reset removes every trap from the core and changes nothing else in it. -/
theorem Accounted.reset_core (hm : m.Accounted) : m.reset.core = m.core.map Core.withoutTraps := by
  have hcancelled := hm.cancelStep
  obtain ⟨core, paused, stepper, store, lastStop⟩ := m
  cases core with
  | none => rfl
  | some core =>
    have hcleared : (store.clear (stepper.cancel core.traps)).1.Accounts []
        (store.clear (stepper.cancel core.traps)).2 := Store.Accounts.clear hcancelled
    have hempty : ((stepper.cancel core.traps).disarm store.handles).entries = [] :=
      hcleared.table.entries_eq_nil
    have htable : (stepper.cancel core.traps).disarm store.handles =
        { core.traps with entries := [] } := by
      rw [Traps.disarm_eq, hempty, Stepper.nextHandle_cancel, Stepper.limit_cancel]
    simp only [Machine.reset, Machine.cancelStep, Store.clear, Core.withoutTraps, Option.map_some,
      htable]

/-- Every effect of an operation keeps the account.  While an instruction runs, the session's test
may move the trampoline. -/
theorem Accounted.effect (hm : m.Accounted) {op : Operation} {n : Machine}
    (heffect : op.Effect m n) : n.Accounted := by
  cases heffect with
  | @store change core _ hcore =>
    exact (hm.accounts hcore).change (Store.change_apply m.store core.traps change)
  | start hkind hcore =>
    have haccounts := hm.accounts hcore
    exact ⟨haccounts.toWellFormed, Stepper.holds_start haccounts.table hkind⟩
  | cancel => exact hm.cancelStep.congr rfl rfl rfl
  | pause => exact hm.congr rfl rfl rfl
  | forget hcore =>
    unfold Accounted
    rw [hcore]
    exact ⟨rfl, rfl⟩
  | @execute core after stepper _ _ hcore _ hresult =>
    have haccounts := hm.accounts hcore
    have hafter := Core.execute_preserves
      (P := fun state => state.1.Holds (state.2.armed ++ m.store.armed))
      (fun c h opcode s _ _ _ hts => Stepper.holds_test c h opcode s hts) core m.stepper
      haccounts.table
    rw [hresult] at hafter
    exact ⟨haccounts.toWellFormed, hafter⟩
  | @attach core _ hstore hstepper =>
    cases core with
    | none => exact ⟨hstore, hstepper⟩
    | some free =>
      simp only [Accounted, Option.map_some, hstepper]
      exact Store.accounts_of_entries_eq_nil hstore (Traps.holds_nil free.free)
  | limit _ hcore =>
    have haccounts := hm.accounts hcore
    exact { haccounts with table := { haccounts.table with } }
  | change _ hcore =>
    have haccounts := hm.accounts hcore
    exact haccounts

/-- Every operation keeps the account. -/
theorem Accounted.apply (hm : m.Accounted) (op : Operation) : (op.apply m).Accounted :=
  Operation.preserves (fun _ _ hn heffect => hn.effect heffect) hm

/-- Whatever is done to a machine, and in whatever order, its traps are accounted for. -/
theorem accounted_applyAll (core : Option FreeCore) (ops : List Operation) :
    ((start core).applyAll ops).Accounted :=
  applyAll_induction (fun _ op hm => hm.apply op) (accounted_start core) ops

/-- After any operations in any order, whichever registrations the core refused, the core holds
exactly the handles of the store and the trampoline of the session, each once.  The trap behind a
handle of the store is the one that the breakpoint asks for in that mode; disabled breakpoints have
no handle; and the trampoline is the only trap that is tested.  So a reset, and the end of a
debugger, leave the core with no trap at all and otherwise as it was. -/
theorem registered_traps_accounted (core : Option FreeCore) (ops : List Operation) :
    let m := (start core).applyAll ops
    (∀ c ∈ m.core,
      c.traps.handles.Nodup ∧
      c.traps.handles.Perm (m.store.handles ++ m.stepper.toList.map (·.trampoline)) ∧
      (∀ e ∈ m.store.entries, ∀ mode h, e.handles.get mode = some h →
        e.breakpoint.modes.contains mode = true ∧
          ∃ t, c.traps.find? h = some t ∧ t.Watches e.breakpoint mode) ∧
      ∀ h t, c.traps.find? h = some t →
        (t.tested = true ↔ ∃ session, m.stepper = some session ∧ session.trampoline = h)) ∧
    (∀ e ∈ m.store.entries, e.breakpoint.enabled = false → e.handles.toList = []) ∧
    m.reset.core = m.core.map Core.withoutTraps ∧
    ∀ d : Debugger, d.machine = m → d.close.core = m.core.map Core.withoutTraps := by
  intro m
  have hm : m.Accounted := accounted_applyAll core ops
  have hstore : m.store.WellFormed := hm.store_wellFormed
  refine ⟨?_, ?_, hm.reset_core, ?_⟩
  · intro c hc
    have haccounts := hm.accounts hc
    refine ⟨haccounts.table.toOrdered.nodup, ?_, ?_, ?_⟩
    · have hperm := haccounts.table.handles_perm
      rw [List.map_append, Stepper.map_armed, hstore.map_armed] at hperm
      exact hperm.trans List.perm_append_comm
    · intro e he mode h hget
      obtain ⟨_, hmode, ht⟩ := hstore.fit e he mode h hget
      obtain ⟨t, ht⟩ := Option.isSome_iff_exists.mp ht
      refine ⟨hmode, t, haccounts.find?_eq_some he hget ht, Trap.watches_of_trap? ht⟩
    · intro h t hfind
      constructor
      · intro htested
        rcases List.mem_append.mp (haccounts.table.find?_eq_some_iff.mp hfind) with hmem | hmem
        · obtain ⟨session, hsession, hh, _⟩ := Stepper.mem_armed_iff.mp hmem
          exact ⟨session, hsession, hh⟩
        · have huntested : t.tested = false := Store.untested_of_mem_armed hmem
          simp [huntested] at htested
      · rintro ⟨session, hsession, rfl⟩
        have hmem : (session.trampoline, session.kind.trap) ∈ m.stepper.armed :=
          Stepper.mem_armed_iff.mpr ⟨session, hsession, rfl, rfl⟩
        have hown := haccounts.table.find?_eq_some_iff.mpr (List.mem_append_left _ hmem)
        rw [hfind] at hown
        rw [Option.some.inj hown]
        exact session.kind.tested_trap
  · intro e he hdisabled
    exact (hstore.fit e he).toList_eq_nil hdisabled
  · intro d hd
    have hclose : d.close = d.machine.reset := rfl
    rw [hclose, hd, hm.reset_core]

end Z80Debugger.Machine
