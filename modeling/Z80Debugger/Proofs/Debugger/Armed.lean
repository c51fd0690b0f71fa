import Z80Debugger.Proofs.Debugger.Operation
import Z80Debugger.Proofs.Machine.Supply
import Z80Debugger.Proofs.Stepping.Hits

/-!
# A debugger arms what it lists

Every operation of a debugger changes its machine as some operations on machines do, and the
breakpoints that it brings were read from text or stand at an address of a view.  So on cores
without a limit a debugger never lists an enabled breakpoint that the core does not watch for in
each of its modes: `enabled_breakpoints_are_armed`.
-/

set_option autoImplicit false

namespace Z80Debugger

namespace Machine

variable {m n after : Machine}

/-- The machine comes from another one by regular operations. -/
def ComesTo (m after : Machine) : Prop :=
  ∃ ops : List Operation, (∀ op ∈ ops, op.Regular) ∧ m.applyAll ops = after

/-- A machine comes to itself by no operation. -/
theorem ComesTo.refl : m.ComesTo m := ⟨[], List.forall_mem_nil _, rfl⟩

/-- Operations may follow on others. -/
theorem ComesTo.trans (hfirst : m.ComesTo n) (hsecond : n.ComesTo after) : m.ComesTo after := by
  obtain ⟨ops, hops, rfl⟩ := hfirst
  obtain ⟨more, hmore, rfl⟩ := hsecond
  refine ⟨ops ++ more, ?_, List.foldl_append⟩
  intro op hop
  exact (List.mem_append.mp hop).elim (hops op) (hmore op)

/-- One regular operation is enough. -/
theorem comesTo_of_apply (op : Operation) (hop : op.Regular) (happly : op.apply m = after) :
    m.ComesTo after :=
  ⟨[op], List.forall_mem_singleton.mpr hop, happly⟩

/-- The action attaches only cores without traps and without a limit, and is else a regular
operation on the machine. -/
def Action.Regular : Action → Prop
  | operation op => op.Regular
  | attach core => ∀ c ∈ core, c.traps.entries = [] ∧ c.traps.limit = none
  | outside _ => False

/-- A regular action does what a regular operation does. -/
theorem comesTo_action {action : Action} (haction : action.Regular) :
    m.ComesTo (action.apply m) := by
  cases action with
  | operation op => exact comesTo_of_apply op haction rfl
  | attach core =>
    cases core with
    | none =>
      apply comesTo_of_apply (.replaceCore none) _ rfl
      rintro _ ⟨⟩
    | some core =>
      obtain ⟨hfree, hunlimited⟩ := haction core rfl
      apply comesTo_of_apply (.replaceCore (some ⟨core, hfree⟩)) _ rfl
      rintro _ ⟨⟩
      exact hunlimited
  | outside => exact haction.elim

end Machine

namespace Debugger

/-- The operation attaches only cores without traps and without a limit, and nothing but operations
on the machine, regular ones, acts on it from outside. -/
def Operation.Regular : Operation → Prop
  | attach core => core.traps.entries = [] ∧ core.traps.limit = none
  | machine (.operation op) => op.Regular
  | machine (.attach core) => ∀ c ∈ core, c.traps.entries = [] ∧ c.traps.limit = none
  | machine (.outside _) => False
  | _ => True

variable {d : Debugger}

/-- A view shows logical or physical addresses. -/
theorem viewSpace_cases (d : Debugger) : d.viewSpace = .logical ∨ d.viewSpace = .physical := by
  unfold viewSpace
  cases d.cursor.view
  · exact Or.inl rfl
  · exact Or.inr rfl

/-- A breakpoint that was read is put in a regular way. -/
theorem regular_putting {b : Breakpoint} (hb : b.Canonical) (existing : Option BreakpointId) :
    (d.putting b existing).Regular := by
  unfold putting
  split
  · exact hb
  · split
    · exact hb
    · exact hb

/-- What a regular operation does to the machine is regular. -/
theorem Operation.Regular.action {op : Operation} (hop : op.Regular) {action : Machine.Action}
    (haction : op.action? d = some action) : action.Regular := by
  cases op with
  | setBreakpoint text existing =>
    simp only [Operation.action?] at haction
    split at haction
    · cases haction
    · next b hparse =>
      cases haction
      exact regular_putting (Breakpoint.canonical_of_parse hparse) existing
  | toggle | toggleSelected =>
    cases haction
    exact d.viewSpace_cases
  | removeBreakpoint | setEnabled | stepInto | stepOver | finish | run | pause | coreChanged =>
    cases haction
    trivial
  | attach core =>
    cases haction
    rintro _ ⟨⟩
    exact hop
  | machine action =>
    cases haction
    cases action <;> exact hop
  | goTo | goToPc | goToStack | scroll | move | setView | disassembly | loadSymbols =>
    cases haction

/-- A regular operation changes the machine as regular operations on machines do. -/
theorem comesTo_perform (d : Debugger) {op : Operation} (hop : op.Regular) :
    d.machine.ComesTo (d.perform op).2.machine := by
  rw [machine_perform]
  cases haction : op.action? d with
  | none => exact .refl
  | some action => exact Machine.comesTo_action (hop.action haction)

/-- Any regular operations of a debugger act on its machine by regular ones. -/
theorem comesTo_performAll (d : Debugger) {ops : List Operation} (hops : ∀ op ∈ ops, op.Regular) :
    d.machine.ComesTo (d.performAll ops).machine := by
  induction ops generalizing d with
  | nil => exact .refl
  | cons op ops ih =>
    have hfirst := d.comesTo_perform (hops op List.mem_cons_self)
    exact hfirst.trans (ih _ fun next hnext => hops next (List.mem_cons_of_mem op hnext))

/-- Text is read as a sound breakpoint or refused, whatever was read before it.  After any
operations on a debugger whose cores have no limit, every breakpoint is sound, every enabled one has
a handle of a trap that watches for it in each of its modes and in no other mode, and a disabled one
has no handle. -/
theorem enabled_breakpoints_are_armed (options : DebuggerOptions) :
    (∀ (defaults : Breakpoint.Defaults) (context : Breakpoint.Context) (text : String),
      (∃ cause, Breakpoint.parse defaults context text = .error cause) ∨
        ∃ b, Breakpoint.parse defaults context text = .ok b ∧ b.Sound) ∧
    ∀ (core : FreeCore) (ops : List Operation),
      core.core.traps.limit = none → (∀ op ∈ ops, op.Regular) →
      let m := ((ofCore (some core.core) options).performAll ops).machine
      ∀ e ∈ m.store.entries,
        e.breakpoint.Sound ∧
        (e.breakpoint.enabled = true → ∃ c, m.core = some c ∧ ∀ mode,
          (e.breakpoint.modes.contains mode = true →
            ∃ h t, e.handles.get mode = some h ∧ c.traps.find? h = some t ∧
              t.Watches e.breakpoint mode) ∧
          (e.breakpoint.modes.contains mode = false → e.handles.get mode = none)) ∧
        (e.breakpoint.enabled = false → ∀ mode, e.handles.get mode = none) := by
  constructor
  · intro defaults context text
    cases hparse : Breakpoint.parse defaults context text with
    | error cause => exact Or.inl ⟨cause, rfl⟩
    | ok b => exact Or.inr ⟨b, rfl, (Breakpoint.canonical_of_parse hparse).sound⟩
  intro core ops hunlimited hops m e he
  have hequipped : (Machine.start (some core)).Equipped := by
    rintro _ ⟨⟩
    exact Store.equipped_of_entries_eq_nil rfl hunlimited
  obtain ⟨steps, hsteps, hm⟩ := comesTo_performAll (ofCore (some core.core) options) hops
  rw [machine_ofCore] at hm
  change (Machine.start (some core)).applyAll steps = m at hm
  have haccounted : m.Accounted := by
    rw [← hm]
    exact Machine.accounted_applyAll (some core) steps
  replace hequipped : m.Equipped := by
    rw [← hm]
    exact hequipped.applyAll hsteps
  obtain ⟨c, hcore⟩ := haccounted.exists_core he
  have haccounts := haccounted.accounts hcore
  have hfit : e.handles.Fit e.breakpoint := haccounts.fit e he
  have hsound : e.breakpoint.Sound := ((hequipped c hcore).canonical e he).sound
  refine ⟨hsound, ?_, ?_⟩
  · intro henabled
    refine ⟨c, hcore, fun mode => ⟨?_, ?_⟩⟩
    · intro hmode
      obtain ⟨h, t, hget, ht⟩ := (hequipped c hcore).exists_trap? he henabled hmode
      exact ⟨h, t, hget, haccounts.find?_eq_some he hget ht, Trap.watches_of_trap? ht⟩
    · intro hmode
      apply hfit.get_eq_none
      rintro ⟨_, hcontains, _⟩
      rw [hmode] at hcontains
      cases hcontains
  · intro hdisabled mode
    apply hfit.get_eq_none
    rintro ⟨henabled, _, _⟩
    rw [hdisabled] at henabled
    cases henabled

/-- A breakpoint on ports, a disabled one in the logical view and one in the physical view, after a
step. -/
theorem enabled_breakpoints_are_armed_in_ports :
    let m := ((ofCore (some (Stepper.routineCore 0xFFF0 [0x00, 0x00])) {}).performAll
      [.setBreakpoint "io r 10-1F" none, .toggle 0x9001, .setView .physical, .toggleSelected,
        .setEnabled 2 false, .stepInto, .machine (.operation .executeOne)]).machine
    m.store.entries.map (fun e => (e.breakpoint.space, e.breakpoint.enabled)) =
        [(.port, true), (.logical, false), (.physical, true)] ∧
      ∀ e ∈ m.store.entries, e.breakpoint.enabled = true → ∃ c, m.core = some c ∧
        ∀ mode, e.breakpoint.modes.contains mode = true → ∃ h t,
          e.handles.get mode = some h ∧ c.traps.find? h = some t ∧ t.Watches e.breakpoint mode := by
  refine ⟨by decide +kernel, ?_⟩
  intro e he henabled
  obtain ⟨_, harmed, _⟩ := (enabled_breakpoints_are_armed {}).2
    ⟨Stepper.routineCore 0xFFF0 [0x00, 0x00], rfl⟩ _ rfl
    (by simp [Operation.Regular, Machine.Operation.Regular]) e he
  obtain ⟨c, hcore, hmodes⟩ := harmed henabled
  exact ⟨c, hcore, fun mode => (hmodes mode).1⟩

end Debugger

end Z80Debugger
