import Z80Debugger.Proofs.Breakpoint.History
import Z80Debugger.Proofs.Core.Stops

/-!
# The marker of a breakpoint and the core

A store says from its definitions whether an enabled breakpoint marks the instruction at an address,
and a core stops there if a registered trap covers the address.  `marker_agrees_with_core` states
that the two agree, whatever was done to the store and however the banks are mapped: a call that
fetches an instruction stops before it exactly if the store finds a breakpoint for the logical or
for the physical address, and it stops by the trap of a breakpoint that marks the instruction.
-/

set_option autoImplicit false

namespace Z80Debugger

variable {s : Store} {ts : Traps} {b : Breakpoint} {e : Entry} {cpu : Cpu} {pc : UInt16}
  {h : Handle} {t : Trap}

/-- The breakpoint is enabled and covers the instruction at an address of memory. -/
structure Breakpoint.Marks (b : Breakpoint) (cpu : Cpu) (pc : UInt16) : Prop where
  enabled : b.enabled = true
  exec : b.modes.exec = true
  inMemory : b.space = .logical ∨ b.space = .physical
  covers : b.covers (b.space.ofLogical cpu pc) = true

/-- What is armed for a breakpoint is a handle that it keeps for a mode, with the trap of that mode.
-/
theorem Breakpoint.mem_armed_iff {hs : Handles} :
    (h, t) ∈ b.armed hs ↔ ∃ mode, hs.get mode = some h ∧ b.trap? mode = some t := by
  have hslot : ∀ mode h?, (h, t) ∈ b.slot mode h? → h? = some h ∧ b.trap? mode = some t := by
    intro mode h? hmem
    unfold Breakpoint.slot at hmem
    split at hmem
    · next k u _ hu =>
      cases List.mem_singleton.mp hmem
      exact ⟨rfl, hu⟩
    · cases hmem
  constructor
  · intro hmem
    rw [Breakpoint.armed, List.mem_append, List.mem_append] at hmem
    rcases hmem with (hmem | hmem) | hmem
    · exact ⟨.exec, hslot .exec _ hmem⟩
    · exact ⟨.write, hslot .write _ hmem⟩
    · exact ⟨.read, hslot .read _ hmem⟩
  · rintro ⟨mode, hget, ht⟩
    exact Handles.mem_armed hget ht

/-- Only the traps on running instructions of memory have the kind that a fetch hits. -/
theorem Space.trapKind?_eq_memoryExec_iff {space : Space} {mode : Mode} :
    space.trapKind? mode = some .memoryExec ↔
      mode = .exec ∧ (space = .logical ∨ space = .physical) := by
  cases space <;> cases mode <;> simp [trapKind?]

/-- A fetch hits the trap of a mode exactly if the mode is execution in memory and the breakpoint
covers the address, as its space knows it. -/
theorem Breakpoint.isHitBy_fetch_iff {mode : Mode} (ht : b.trap? mode = some t) :
    t.isHitBy cpu (.fetch pc) = true ↔
      (mode = .exec ∧ (b.space = .logical ∨ b.space = .physical)) ∧
        b.covers (b.space.ofLogical cpu pc) = true := by
  have hwatches := Trap.watches_of_trap? ht
  have hkind : t.kind = .memoryExec ↔
      mode = .exec ∧ (b.space = .logical ∨ b.space = .physical) := by
    rw [← Space.trapKind?_eq_memoryExec_iff, hwatches.kind, Option.some_inj]
  have hvalue : Event.valueFor cpu t.physical (.fetch pc) = b.space.ofLogical cpu pc := by
    have hphysical := hwatches.physical
    cases hspace : b.space with
    | physical =>
      rw [hphysical.mpr hspace]
      rfl
    | logical | port | opcode =>
      have hlogical : t.physical = false := by
        rw [← Bool.not_eq_true, hphysical, hspace]
        simp
      rw [hlogical]
      rfl
  rw [Trap.isHitBy, Bool.and_eq_true, hvalue, Breakpoint.covers_of_trap? ht, ← hkind]
  simp [Event.kind]

namespace Store

/-- In a table that a store accounts for, a fetch that hits none of the other traps hits the traps
on execution of those breakpoints that mark the instruction. -/
theorem Accounts.mem_hits_iff {others : List (Handle × Trap)} (hs : s.Accounts others ts)
    (hothers : ∀ entry ∈ others, entry.2.isHitBy cpu (.fetch pc) = false) :
    h ∈ ts.hits cpu (.fetch pc) ↔
      ∃ e ∈ s.entries, e.breakpoint.Marks cpu pc ∧ e.handles.exec = some h := by
  have hregistered : ∀ t, (h, t) ∈ ts.entries ↔ (h, t) ∈ others ∨ ∃ e ∈ s.entries, ∃ mode,
      e.handles.get mode = some h ∧ e.breakpoint.trap? mode = some t := by
    intro t
    rw [hs.table.perm.mem_iff, List.mem_append, armed, List.mem_flatMap]
    simp only [Breakpoint.mem_armed_iff]
  rw [Traps.mem_hits_iff]
  constructor
  · rintro ⟨t, hmem, hhit⟩
    rcases (hregistered t).mp hmem with hother | ⟨e, he, mode, hget, ht⟩
    · rw [hothers _ hother] at hhit
      cases hhit
    · obtain ⟨⟨rfl, hmemory⟩, hcovers⟩ := (Breakpoint.isHitBy_fetch_iff ht).mp hhit
      obtain ⟨henabled, hexec, _⟩ := hs.fit e he .exec h hget
      exact ⟨e, he, ⟨henabled, hexec, hmemory, hcovers⟩, hget⟩
  · rintro ⟨e, he, hmarks, hget⟩
    obtain ⟨_, _, htrap⟩ := hs.fit e he .exec h hget
    obtain ⟨t, ht⟩ := Option.isSome_iff_exists.mp htrap
    refine ⟨t, (hregistered t).mpr (Or.inr ⟨e, he, .exec, hget, ht⟩), ?_⟩
    exact (Breakpoint.isHitBy_fetch_iff ht).mpr ⟨⟨rfl, hmarks.inMemory⟩, hmarks.covers⟩

/-- In step with a store, a fetch hits the traps on execution of those breakpoints that mark the
instruction. -/
theorem InStep.mem_hits_iff (hs : s.InStep ts) :
    h ∈ ts.hits cpu (.fetch pc) ↔
      ∃ e ∈ s.entries, e.breakpoint.Marks cpu pc ∧ e.handles.exec = some h :=
  hs.accounts.mem_hits_iff (List.forall_mem_nil _)

/-- A breakpoint that marks an instruction has a range, so it was registered. -/
theorem InStep.isSome_exec (hs : s.InStep ts) (he : e ∈ s.entries)
    (hmarks : e.breakpoint.Marks cpu pc) : e.handles.exec.isSome = true := by
  have htrap : (e.breakpoint.trap? .exec).isSome = true := by
    rw [Breakpoint.trap?, Space.trapKind?_eq_memoryExec_iff.mpr ⟨rfl, hmarks.inMemory⟩]
    rfl
  have hrange : e.breakpoint.first ≤ e.breakpoint.last := by
    have hcovers := hmarks.covers
    simp only [Breakpoint.covers, Breakpoint.inRange, Bool.and_eq_true, decide_eq_true_eq]
      at hcovers
    exact UInt32.le_trans hcovers.1 hcovers.2
  exact hs.supplied.full e he .exec ⟨hmarks.enabled, hmarks.exec, htrap⟩ hrange

/-- The store finds a breakpoint exactly if an enabled one on execution covers the address in the
space. -/
theorem isSome_findExec?_iff {address : UInt32} {space : Space} :
    (s.findExec? address space).isSome = true ↔
      ∃ e ∈ s.entries, e.breakpoint.enabled = true ∧ e.breakpoint.space = space ∧
        e.breakpoint.modes.exec = true ∧ e.breakpoint.covers address = true := by
  simp only [findExec?, Option.isSome_map, List.find?_isSome, Bool.and_eq_true, beq_iff_eq,
    and_assoc]

/-- The store finds a breakpoint for the logical or the physical address exactly if one of its
breakpoints marks the instruction. -/
theorem isSome_findExec?_or_iff :
    (s.findExec? pc.toUInt32 .logical).isSome = true ∨
        (s.findExec? (cpu.physical pc) .physical).isSome = true ↔
      ∃ e ∈ s.entries, e.breakpoint.Marks cpu pc := by
  rw [isSome_findExec?_iff, isSome_findExec?_iff]
  constructor
  · rintro (⟨e, he, henabled, hspace, hexec, hcovers⟩ | ⟨e, he, henabled, hspace, hexec, hcovers⟩)
    · exact ⟨e, he, henabled, hexec, Or.inl hspace, by rwa [hspace]⟩
    · exact ⟨e, he, henabled, hexec, Or.inr hspace, by rwa [hspace]⟩
  · rintro ⟨e, he, henabled, hexec, hspace | hspace, hcovers⟩
    · rw [hspace] at hcovers
      exact Or.inl ⟨e, he, henabled, hspace, hexec, hcovers⟩
    · rw [hspace] at hcovers
      exact Or.inr ⟨e, he, henabled, hspace, hexec, hcovers⟩

/-- In step with a store, a call that fetches an instruction stops by the first of the traps on
execution of the breakpoints that mark it. -/
theorem InStep.stopBefore_eq {σ : Type} {c : Core} (hs : s.InStep c.traps)
    (hrunning : c.cpu.registers.halted = false) (hresumes : c.resumes = false) (test : Test σ)
    (state : σ) :
    Core.stopBefore test c state = (c.traps.hits c.cpu (.fetch c.cpu.registers.pc)).head? := by
  have huntested : ∀ entry ∈ c.traps.entries, entry.2.tested = false := by
    intro entry hentry
    have harmed := hs.accounts.table.perm.mem_iff.mp hentry
    exact untested_of_mem_armed harmed
  rw [Core.stopBefore_of_fetch test state hrunning hresumes,
    Traps.firstStop_of_untested hs.accounts.table.toOrdered huntested]

/-- Build a store by any operations with a core that has no trap and no limit on traps.  Whenever
the core is not halted and not about to resume from a stop, a call stops before the instruction at
the program counter exactly if the store finds a breakpoint on execution for its logical or its
physical address.  The handle that it reports is in the table, and the store keeps it as the handle
for execution of a breakpoint that marks the instruction. -/
theorem marker_agrees_with_core {σ : Type} {free : Traps} (hfree : free.entries = [])
    (hunlimited : free.limit = none) (ops : List Operation) {c : Core}
    (htraps : c.traps = (built free ops).2) (hrunning : c.cpu.registers.halted = false)
    (hresumes : c.resumes = false) (test : Test σ) (state : σ) :
    let store := (built free ops).1
    let pc := c.cpu.registers.pc
    let StopsBefore := fun h =>
      (c.execute test state).1 = .stopped h ∧ (c.execute test state).2.1.cpu = c.cpu
    ((∃ h, StopsBefore h) ↔
      (store.findExec? pc.toUInt32 .logical).isSome = true ∨
        (store.findExec? (c.cpu.physical pc) .physical).isSome = true) ∧
    ∀ h, StopsBefore h → h ∈ c.traps.handles ∧
      ∃ e ∈ store.entries, e.breakpoint.Marks c.cpu pc ∧ e.handles.get .exec = some h := by
  intro store pc StopsBefore
  have hs : store.InStep c.traps := by
    rw [htraps]
    exact inStep_built hfree hunlimited ops
  have hstops : ∀ h, StopsBefore h ↔ (c.traps.hits c.cpu (.fetch pc)).head? = some h := by
    intro h
    rw [← hs.stopBefore_eq hrunning hresumes test state]
    exact Core.stopped_before_iff test c state h
  constructor
  · rw [isSome_findExec?_or_iff]
    constructor
    · rintro ⟨h, hh⟩
      obtain ⟨e, he, hmarks, _⟩ := hs.mem_hits_iff.mp (List.mem_of_head? ((hstops h).mp hh))
      exact ⟨e, he, hmarks⟩
    · rintro ⟨e, he, hmarks⟩
      obtain ⟨k, hk⟩ := Option.isSome_iff_exists.mp (hs.isSome_exec he hmarks)
      have hhit : k ∈ c.traps.hits c.cpu (.fetch pc) := hs.mem_hits_iff.mpr ⟨e, he, hmarks, hk⟩
      have hfirst := List.isSome_head?.mpr (List.ne_nil_of_mem hhit)
      obtain ⟨h, hh⟩ := Option.isSome_iff_exists.mp hfirst
      exact ⟨h, (hstops h).mpr hh⟩
  · intro h hh
    have hhit := List.mem_of_head? ((hstops h).mp hh)
    obtain ⟨t, hregistered, _⟩ := Traps.mem_hits_iff.mp hhit
    exact ⟨List.mem_map_of_mem hregistered, hs.mem_hits_iff.mp hhit⟩

/-- Breakpoints on the page that shows at 8000: one by its physical addresses, which is disabled and
enabled again, and one with an empty range. -/
def markedPage : List Operation :=
  [.add (.ofRange .physical (.only .exec) 0x85000 0x850FF),
    .add { space := .logical, modes := .all, first := 2, last := 1, mask := 0, enabled := true },
    .setEnabled 1 false, .setEnabled 1 true]

/-- A core at 9000, which shows the physical address 85000. -/
def markedCore : Core where
  cpu := { Cpu.standard with registers := { pc := 0x9000 } }
  traps := (built {} markedPage).2

/-- The store marks the instruction at 9000, and a call stops before it. -/
theorem marker_agrees_with_core_physical :
    (built {} markedPage).1.findExec? 0x85000 .physical = some 1 ∧
      ∃ h, (markedCore.execute Stepper.test none).1 = .stopped h ∧
        (markedCore.execute Stepper.test none).2.1.cpu = markedCore.cpu := by
  have hfound : (built {} markedPage).1.findExec? 0x85000 .physical = some 1 := by
    decide +kernel
  have hphysical : markedCore.cpu.physical markedCore.cpu.registers.pc = 0x85000 := by
    decide +kernel
  have hfree : ({} : Traps).entries = [] := rfl
  have htraps : markedCore.traps = (built {} markedPage).2 := rfl
  have hrunning : markedCore.cpu.registers.halted = false := rfl
  have hresumes : markedCore.resumes = false := by
    decide +kernel
  have hagree := marker_agrees_with_core hfree rfl markedPage htraps hrunning hresumes Stepper.test
    none
  refine ⟨hfound, hagree.1.mpr (Or.inr ?_)⟩
  rw [hphysical, hfound]
  rfl

end Store

end Z80Debugger
