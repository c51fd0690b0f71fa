import Z80Debugger.Proofs.Breakpoint.Canonical
import Z80Debugger.Proofs.Breakpoint.History
import Z80Debugger.Proofs.Core.Stops
import Z80Debugger.Proofs.Machine.Account

/-!
# Machines that arm every breakpoint

A table of traps without a limit refuses nothing but empty ranges, and a breakpoint in the form in
which text is read has no empty range.  While only such breakpoints get into a machine and its cores
have no limit, each enabled breakpoint has all of its traps.  A running program and the sessions of
steps change the table, but they change neither its limit nor the breakpoints, and that is all that
`Machine.Equipped.of_limit_eq` asks of them.
-/

set_option autoImplicit false

namespace Z80Debugger

/-- A mode that the space of a breakpoint knows has a trap. -/
theorem Breakpoint.isSome_trap?_of_legal {b : Breakpoint} {mode : Mode}
    (hlegal : b.space.legalModes.contains mode = true) : (b.trap? mode).isSome = true := by
  rw [trap?, Option.isSome_map]
  cases hspace : b.space <;> cases mode <;> rw [hspace] at hlegal <;> first | rfl | cases hlegal

namespace Store

/-- The table has no limit, every breakpoint has the form in which text is read, and the handles of
each are full. -/
structure Equipped (s : Store) (ts : Traps) : Prop extends s.Supplied ts where
  canonical : ∀ e ∈ s.entries, e.breakpoint.Canonical

variable {s : Store} {ts traps : Traps}

/-- An enabled breakpoint has a handle and a trap in each of its modes. -/
theorem Equipped.exists_trap? (hs : s.Equipped ts) {e : Entry} (he : e ∈ s.entries)
    (henabled : e.breakpoint.enabled = true) {mode : Mode}
    (hmode : e.breakpoint.modes.contains mode = true) :
    ∃ h t, e.handles.get mode = some h ∧ e.breakpoint.trap? mode = some t := by
  have hsound := (hs.canonical e he).sound
  have htrap := Breakpoint.isSome_trap?_of_legal (hsound.modes_legal mode hmode)
  have hhandle := hs.full e he mode ⟨henabled, hmode, htrap⟩ hsound.ordered
  obtain ⟨h, hget⟩ := Option.isSome_iff_exists.mp hhandle
  obtain ⟨t, ht⟩ := Option.isSome_iff_exists.mp htrap
  exact ⟨h, t, hget, ht⟩

/-- Only the limit of a table matters. -/
theorem Equipped.of_limit_eq (hs : s.Equipped ts) (hlimit : traps.limit = ts.limit) :
    s.Equipped traps where
  unlimited := hlimit.trans hs.unlimited
  full := hs.full
  canonical := hs.canonical

/-- Without breakpoints, a table without a limit equips the store. -/
theorem equipped_of_entries_eq_nil (hs : s.entries = []) (hunlimited : ts.limit = none) :
    s.Equipped ts where
  unlimited := hunlimited
  full := by simp [hs]
  canonical := by simp [hs]

/-- A change that brings only breakpoints in the form in which text is read keeps a store equipped:
such a breakpoint has that form as well when it is switched on or off. -/
theorem Equipped.change (hs : s.Equipped ts) {Brings : Breakpoint → Prop} {after : Store × Traps}
    (hchange : Change Brings s ts after) (hbrings : ∀ b, Brings b → b.Canonical) :
    after.1.Equipped after.2 where
  toSupplied := hs.toSupplied.change hchange
  canonical := by
    intro x hx
    rcases hchange.mem_entries hx with hold | ⟨_, hnew | ⟨e, he, enabled, hswitched⟩⟩
    · exact hs.canonical x hold
    · exact hbrings x.breakpoint hnew
    · rw [hswitched]
      exact Breakpoint.canonical_withEnabled (hs.canonical e he) enabled

end Store

/-- A call leaves the limit. -/
theorem Core.limit_execute (c : Core) (s : Stepper) :
    (c.execute Stepper.test s).2.1.traps.limit = c.traps.limit := by
  apply Core.execute_preserves (P := fun state => state.1.limit = c.traps.limit) _ c s rfl
  intro cpu h opcode state _ _ _ hlimit
  exact (Stepper.sparesOthers_test cpu h opcode state).limit_eq.trans hlimit

namespace Machine

/-- The operation brings only breakpoints in the form in which text is read, and no limit. -/
def Operation.Regular : Operation → Prop
  | add b | replace _ b => b.Canonical
  | toggle _ space => space = .logical ∨ space = .physical
  | replaceCore core => ∀ free ∈ core, free.core.traps.limit = none
  | limit traps => traps = none
  | _ => True

/-- The attached core equips the store. -/
def Equipped (m : Machine) : Prop := ∀ core ∈ m.core, m.store.Equipped core.traps

variable {m n : Machine}

/-- A regular operation brings only breakpoints in the form in which text is read into the store. -/
theorem Operation.Regular.canonical {op : Operation} (hop : op.Regular) {change : Store.Operation}
    (hchange : op.onStore? = some change) : ∀ b, change.Brings b → b.Canonical := by
  intro b hb
  cases op with
  | add added =>
    cases hchange
    have hb : b = added := hb
    rw [hb]
    exact hop
  | replace =>
    cases hchange
    obtain ⟨enabled, rfl⟩ := hb
    exact Breakpoint.canonical_withEnabled hop enabled
  | toggle address space =>
    cases hchange
    have hb : b = .execAt space address := hb
    rw [hb]
    exact Breakpoint.canonical_execAt hop address
  | remove | setEnabled | clear | reset | replaceCore =>
    cases hchange
    cases hb
  | stepInto | stepOver | finish | run | pause | executeOne | runFor | limit | change =>
    cases hchange

/-- What keeps the store and the limit keeps the machine equipped. -/
theorem Equipped.of_limit_eq (hm : m.Equipped) (hstore : n.store = m.store)
    (hlimit : n.core.map (·.traps.limit) = m.core.map (·.traps.limit)) : n.Equipped := by
  intro core hcore
  rw [Option.mem_def.mp hcore] at hlimit
  obtain ⟨c, hc, hsame⟩ := Option.map_eq_some_iff.mp hlimit.symm
  rw [hstore]
  exact (hm c hc).of_limit_eq hsame.symm

/-- The end of a session leaves the limit. -/
theorem limit_cancelStep (m : Machine) :
    m.cancelStep.core.map (·.traps.limit) = m.core.map (·.traps.limit) := by
  obtain ⟨core, paused, stepper, store, lastStop⟩ := m
  cases core with
  | none => rfl
  | some core => simp [Machine.cancelStep]

/-- Every effect of a regular operation keeps the machine equipped. -/
theorem Equipped.effect (hm : m.Equipped) {op : Operation} (hop : op.Regular)
    (heffect : op.Effect m n) : n.Equipped := by
  cases heffect with
  | @store change core honStore hcore =>
    rintro _ ⟨⟩
    have hchange := Store.change_apply m.store core.traps change
    exact (hm core hcore).change hchange (hop.canonical honStore)
  | @start core kind _ hcore =>
    apply hm.of_limit_eq
    · rfl
    · simp [hcore]
  | cancel =>
    apply hm.of_limit_eq
    · rfl
    · exact limit_cancelStep m
  | pause => exact hm.of_limit_eq rfl rfl
  | forget hcore =>
    intro core hnone
    rw [hcore] at hnone
    cases hnone
  | @execute core after stepper _ _ hcore _ hresult =>
    have hlimit := core.limit_execute m.stepper
    rw [hresult] at hlimit
    apply hm.of_limit_eq
    · rfl
    · rw [hcore]
      exact congrArg some hlimit
  | @attach core hreplace hstore =>
    subst hreplace
    intro c hc
    obtain ⟨free, hfree, rfl⟩ := Option.map_eq_some_iff.mp hc
    exact Store.equipped_of_entries_eq_nil hstore (hop free hfree)
  | @limit _ core hlimit hcore =>
    subst hlimit
    rintro _ ⟨⟩
    exact { hm core hcore with unlimited := hop }
  | change _ hcore =>
    apply hm.of_limit_eq
    · rfl
    · rw [hcore]
      rfl

/-- Every regular operation keeps the machine equipped. -/
theorem Equipped.apply (hm : m.Equipped) {op : Operation} (hop : op.Regular) :
    (op.apply m).Equipped :=
  Operation.preserves (fun _ _ hn heffect => hn.effect hop heffect) hm

/-- Any regular operations keep the machine equipped. -/
theorem Equipped.applyAll (hm : m.Equipped) {ops : List Operation}
    (hops : ∀ op ∈ ops, op.Regular) : (m.applyAll ops).Equipped :=
  applyAll_induction_of (fun _ _ hop hm => hm.apply hop) hm hops

end Machine

end Z80Debugger
