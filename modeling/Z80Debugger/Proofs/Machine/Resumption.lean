import Z80Debugger.Proofs.Breakpoint.Marker
import Z80Debugger.Proofs.Core.Resumption
import Z80Debugger.Proofs.Machine.Control
import Z80Debugger.Proofs.Stepping.Hits

/-!
# A machine that goes on makes progress

A paused machine goes on when it is run or when a step starts.  If the core has stopped at the
program counter, the fetch there is let through, so the next call runs an instruction, whatever was
done to the breakpoints meanwhile.  A machine that was paused in another way, by hand or because its
core has just been attached, has no such stop behind it: a breakpoint on the instruction at the
program counter is new to it, and stops it at once.  `resuming_makes_progress` says which of the two
happens for every machine and any breakpoints, and how long a stop is remembered.
-/

set_option autoImplicit false

namespace Z80Debugger

/-- The handle belongs to a breakpoint that marks the instruction at the program counter. -/
def Store.HoldsBack (s : Store) (c : Cpu) (h : Handle) : Prop :=
  ∃ e ∈ s.entries, e.breakpoint.Marks c c.registers.pc ∧ e.handles.exec = some h

namespace Stepper

/-- The session, if there is one, waits for the end of an instruction. -/
def Waiting (s : Stepper) : Prop := ∀ entry ∈ s.armed, entry.2 = .everyOpcode

variable {s : Stepper}

/-- Without a session nothing but the end of an instruction is waited for. -/
theorem waiting_none : Waiting none := by
  intro entry hentry
  cases hentry

/-- A session that starts waits for the end of an instruction. -/
theorem waiting_start (s : Stepper) (ts : Traps) {kind : StepKind}
    (hkind : kind.trap = .everyOpcode) : (s.start ts kind).1.Waiting := by
  cases hresult : s.start ts kind with
  | mk started after =>
    cases started with
    | none => exact waiting_none
    | some session =>
      intro entry hentry
      rw [List.mem_singleton.mp hentry, kind_of_start_eq_some hresult, hkind]

/-- The trampoline of a session that waits for the end of an instruction is not hit by a fetch. -/
theorem Waiting.isHitBy_fetch (hwaiting : s.Waiting) (c : Cpu) (pc : UInt16) :
    ∀ entry ∈ s.armed, entry.2.isHitBy c (.fetch pc) = false := by
  intro entry hentry
  rw [hwaiting entry hentry, Trap.isHitBy_everyOpcode]
  rfl

end Stepper

namespace Core

variable {c : Core} {s : Store} {stepper : Stepper} {h : Handle}

/-- While a session waits like this, a fetch hits exactly the breakpoints that hold the machine
back. -/
theorem mem_hits_of_waiting (hwaiting : stepper.Waiting) (hs : s.Accounts stepper.armed c.traps) :
    h ∈ c.traps.hits c.cpu (.fetch c.cpu.registers.pc) ↔ s.HoldsBack c.cpu h :=
  hs.mem_hits_iff (hwaiting.isHitBy_fetch _ _)

/-- What stops a call before the instruction while a session waits for the end of one belongs to a
breakpoint that marks the instruction. -/
theorem holdsBack_of_stopBefore (hwaiting : stepper.Waiting)
    (hs : s.Accounts stepper.armed c.traps) (hstop : stopBefore Stepper.test c stepper = some h) :
    s.HoldsBack c.cpu h :=
  (mem_hits_of_waiting hwaiting hs).mp (mem_hits_of_stopBefore hstop)

/-- Such a breakpoint stops the call, unless the processor is halted or the core resumes. -/
theorem isSome_stopBefore_of_holdsBack (hwaiting : stepper.Waiting)
    (hs : s.Accounts stepper.armed c.traps) (hrunning : c.cpu.registers.halted = false)
    (hresumes : c.resumes = false) (hholds : s.HoldsBack c.cpu h) :
    (stopBefore Stepper.test c stepper).isSome = true := by
  obtain ⟨t, hmem, hhit⟩ := Traps.mem_hits_iff.mp ((mem_hits_of_waiting hwaiting hs).mpr hholds)
  have huntested : t.tested = false := by
    rcases List.mem_append.mp (hs.table.perm.mem_iff.mp hmem) with hown | hstore
    · rw [hwaiting.isHitBy_fetch _ _ _ hown] at hhit
      cases hhit
    · exact Store.untested_of_mem_armed hstore
  exact isSome_stopBefore Stepper.sparesOthers_test hs.table.toOrdered hmem huntested hhit hrunning
    hresumes stepper

/-- A halted processor fetches nothing, and a core that resumes lets the fetch through. -/
theorem stopBefore_eq_none {σ : Type} {test : Test σ} {state : σ}
    (hquiet : c.cpu.registers.halted = true ∨ c.resumes = true) :
    stopBefore test c state = none := by
  rw [stopBefore, eventsBefore, if_pos (Bool.or_eq_true_iff.mpr hquiet)]
  rfl

/-- A call takes back no instruction. -/
theorem instructions_le_execute {σ : Type} (test : Test σ) (c : Core) (state : σ) :
    c.cpu.instructions ≤ (c.execute test state).2.1.cpu.instructions := by
  rcases stopped_or_ran test c state with ⟨_, _, hsame⟩ | hran
  · rw [hsame]
  · rw [hran, instructions_ran]
    exact Nat.le_succ _

end Core

namespace Machine

/-- A machine goes on: it runs, or a step has started. -/
inductive GoesOn (m : Machine) : Machine → Prop where
  | run : GoesOn m m.run
  | stepInto (hstarted : m.stepInto.1 = true) : GoesOn m m.stepInto.2
  | stepOver {disassembler : Disassembler} (hstarted : (m.stepOver disassembler).1 = true) :
    GoesOn m (m.stepOver disassembler).2
  | finish (hstarted : m.finish.1 = true) : GoesOn m m.finish.2

/-- The operation runs nothing and leaves the core attached and its program counter where it is. -/
def Operation.KeepsPlace : Operation → Prop
  | executeOne | runFor _ | replaceCore _ => False
  | change f => ∀ c, (f c).registers.pc = c.registers.pc
  | _ => True

/-- At least `k` instructions have run in the attached core. -/
def HasRun (k : Nat) (m : Machine) : Prop := ∃ c, m.core = some c ∧ k ≤ c.cpu.instructions

variable {m after : Machine} {c : Core} {h : Handle} {k : Nat}

/-- One call of a machine that runs: what the core reports, and the core with other traps. -/
theorem executeOne_of_core (hrunning : m.paused = false) (hcore : m.core = some c) :
    m.executeOne.1 = some (c.execute Stepper.test m.stepper).1 ∧
      ∃ ts, m.executeOne.2.core =
        some { (c.execute Stepper.test m.stepper).2.1 with traps := ts } := by
  obtain ⟨core, paused, stepper, store, lastStop⟩ := m
  cases hrunning
  cases hcore
  simp only [executeOne, Bool.false_eq_true, if_false]
  generalize c.execute Stepper.test stepper = result
  obtain ⟨outcome, core, stepper⟩ := result
  cases outcome <;> exact ⟨rfl, _, rfl⟩

/-- A machine that has run some instructions has run fewer. -/
theorem HasRun.mono {j : Nat} (hm : m.HasRun k) (hle : j ≤ k) : m.HasRun j := by
  obtain ⟨c, hcore, hk⟩ := hm
  exact ⟨c, hcore, Nat.le_trans hle hk⟩

/-- A call keeps what has run. -/
theorem HasRun.executeOne (hm : m.HasRun k) : m.executeOne.2.HasRun k := by
  obtain ⟨c, hcore, hk⟩ := hm
  cases hpaused : m.paused with
  | true =>
    rw [Machine.executeOne, if_pos hpaused]
    exact ⟨c, hcore, hk⟩
  | false =>
    obtain ⟨_, ts, hafter⟩ := executeOne_of_core hpaused hcore
    exact ⟨_, hafter, Nat.le_trans hk (Core.instructions_le_execute Stepper.test c m.stepper)⟩

/-- What has run after one call has run after more. -/
theorem HasRun.runFor_succ (hm : m.executeOne.2.HasRun k) (n : Nat) :
    (m.runFor (n + 1)).2.HasRun k := by
  rw [runFor]
  generalize m.executeOne = result at hm
  obtain ⟨outcome?, next⟩ := result
  cases outcome? with
  | none => exact hm
  | some outcome =>
    cases outcome with
    | stopped => exact hm
    | continued => exact runFor_induction (fun _ hnext => hnext.executeOne) hm n

/-- A step that starts leaves the machine running with the new session. -/
theorem startStep_eq_of_started {start : Stepper → Core → Stepper × Traps}
    (hcore : m.core = some c) (hstarted : (m.startStep start).1 = true) :
    (m.startStep start).2 =
      { m with
        stepper := (start m.stepper c).1
        core := some { c with traps := (start m.stepper c).2 }
        paused := false } := by
  obtain ⟨core, paused, stepper, store, lastStop⟩ := m
  cases hcore
  cases paused with
  | false => cases hstarted
  | true =>
    have hsome : (start stepper c).1.isSome = true := hstarted
    simp only [startStep, hsome, Bool.not_true]

/-- A machine that goes on runs with the core and the breakpoints that it had, and its session, if
it has one, waits for the end of an instruction. -/
structure Going (m after : Machine) (c : Core) : Prop where
  running : after.paused = false
  store : after.store = m.store
  waiting : after.stepper.Waiting
  core : ∃ ts, after.core = some { c with traps := ts }

/-- A machine that goes on runs with what it had. -/
theorem GoesOn.going (hgoes : m.GoesOn after) (hcore : m.core = some c) : m.Going after c := by
  have hstep : ∀ {kind : Core → StepKind}, (kind c).trap = .everyOpcode →
      (m.startStep fun stepper core => stepper.start core.traps (kind core)).1 = true →
      m.Going (m.startStep fun stepper core => stepper.start core.traps (kind core)).2 c := by
    intro kind hkind hstarted
    rw [startStep_eq_of_started hcore hstarted]
    exact ⟨rfl, rfl, Stepper.waiting_start _ _ hkind, _, rfl⟩
  cases hgoes with
  | run =>
    obtain ⟨core, paused, stepper, store, lastStop⟩ := m
    cases hcore
    exact ⟨rfl, rfl, Stepper.waiting_none, _, rfl⟩
  | stepInto hstarted => exact @hstep (fun _ => .into) rfl hstarted
  | stepOver hstarted =>
    exact @hstep (fun core => .over (Stepper.addressAfter _ core.cpu)) rfl hstarted
  | finish hstarted => exact @hstep (fun core => .finish core.cpu.registers.sp) rfl hstarted

/-- A machine that goes on is accounted for. -/
theorem GoesOn.accounted (hgoes : m.GoesOn after) (hm : m.Accounted) : after.Accounted := by
  cases hgoes with
  | run => exact hm.apply .run
  | stepInto => exact hm.apply .stepInto
  | stepOver => exact hm.apply (.stepOver _)
  | finish => exact hm.apply .finish

/-- The core has stopped at the program counter. -/
def AtStop (m : Machine) : Prop := ∃ c, m.core = some c ∧ c.resumes = true

/-- After a call that is stopped the core has stopped at the program counter. -/
theorem atStop_of_stopped (hstopped : m.executeOne.1 = some (.stopped h)) :
    m.executeOne.2.AtStop := by
  obtain ⟨⟨c, hcore, hcall⟩, _⟩ := of_executeOne_eq_stopped hstopped
  have hrunning : m.paused = false := by
    rw [← Bool.not_eq_true]
    intro hpaused
    rw [executeOne, if_pos hpaused] at hstopped
    cases hstopped
  obtain ⟨_, ts, hafter⟩ := executeOne_of_core hrunning hcore
  refine ⟨_, hafter, ?_⟩
  rw [Core.resumes, beq_iff_eq]
  exact (Core.resumeAt_execute_eq_some_iff Stepper.test c m.stepper).mpr ⟨⟨h, hcall⟩, rfl⟩

/-- A stop is remembered until something runs, the program counter moves or the core is replaced. -/
theorem AtStop.effect (hm : m.AtStop) {op : Operation} (hkeeps : op.KeepsPlace)
    (heffect : op.Effect m after) : after.AtStop := by
  obtain ⟨c, hcore, hresumes⟩ := hm
  cases heffect with
  | store _ hsame | start _ hsame | limit _ hsame =>
    rw [hcore] at hsame
    cases hsame
    exact ⟨_, rfl, hresumes⟩
  | cancel =>
    refine ⟨{ c with traps := m.stepper.cancel c.traps }, ?_, hresumes⟩
    simp only [cancelStep, hcore, Option.map_some]
  | pause => exact ⟨c, hcore, hresumes⟩
  | forget => exact ⟨c, hcore, hresumes⟩
  | execute hexecutes =>
    cases op with
    | executeOne | runFor => exact hkeeps.elim
    | _ => exact hexecutes.elim
  | attach hreplace =>
    subst hreplace
    exact hkeeps.elim
  | change hchange hsame =>
    subst hchange
    rw [hcore] at hsame
    cases hsame
    refine ⟨_, rfl, ?_⟩
    rw [Core.resumes, hkeeps c.cpu]
    exact hresumes

/-- What leaves the place keeps the stop remembered. -/
theorem AtStop.apply (hm : m.AtStop) {op : Operation} (hkeeps : op.KeepsPlace) :
    (op.apply m).AtStop :=
  Operation.preserves (fun _ _ hn heffect => hn.effect hkeeps heffect) hm

/-- Any operations that leave the place keep the stop remembered. -/
theorem AtStop.applyAll (hm : m.AtStop) {ops : List Operation}
    (hkeeps : ∀ op ∈ ops, op.KeepsPlace) : (m.applyAll ops).AtStop :=
  applyAll_induction_of (fun _ _ hop hm => hm.apply hop) hm hkeeps

/-- A breakpoint on the instruction at the program counter is about to stop the machine: the
processor is not halted, and the core has not stopped there. -/
def HeldBack (m : Machine) (c : Core) : Prop :=
  c.cpu.registers.halted = false ∧ c.resumes = false ∧ ∃ h, m.store.HoldsBack c.cpu h

/-- Do anything to a machine whose core came without traps, and let it go on, by a run or by a step
that has started.  If no breakpoint holds it back, one call more has counted an instruction, so it
does not stop before that.  If a breakpoint on the instruction at the program counter holds it back,
though the processor is not halted and the core has not stopped there, the first call stops by such
a breakpoint and runs nothing.  After every stop the core has stopped at the program counter, and so
it stays, whatever is done to breakpoints and sessions, until something runs, the program counter is
moved or the core is replaced; then no breakpoint holds the machine back. -/
theorem resuming_makes_progress (core : Option FreeCore) (ops : List Operation) :
    let m := (start core).applyAll ops
    (∀ c after, m.core = some c → m.GoesOn after →
      (¬ m.HeldBack c → ∀ n, (after.runFor (n + 1)).2.HasRun (c.cpu.instructions + 1)) ∧
      (m.HeldBack c → ∃ h d, m.store.HoldsBack c.cpu h ∧
        after.executeOne.1 = some (.stopped h) ∧ after.executeOne.2.core = some d ∧
        d.cpu = c.cpu)) ∧
    ∀ h between, m.executeOne.1 = some (.stopped h) → (∀ op ∈ between, op.KeepsPlace) →
      ∃ c, (m.executeOne.2.applyAll between).core = some c ∧ c.resumes = true := by
  intro m
  have hm : m.Accounted := accounted_applyAll core ops
  constructor
  · intro c after hcore hgoes
    obtain ⟨hrunning, hstore, hwaiting, ts, hafter⟩ := hgoes.going hcore
    have haccounts := (hgoes.accounted hm).accounts hafter
    rw [hstore] at haccounts
    obtain ⟨hreports, traps, hnext⟩ := executeOne_of_core hrunning hafter
    cases hstop : Core.stopBefore Stepper.test { c with traps := ts } after.stepper with
    | none =>
      -- The call runs its instruction, so no breakpoint held the machine back.
      have hran := (Core.cpu_execute_eq_ran_iff Stepper.test _ _).mpr hstop
      refine ⟨?_, ?_⟩
      · intro _ n
        apply HasRun.runFor_succ
        refine ⟨_, hnext, ?_⟩
        simp only [hran, Core.instructions_ran]
        exact Nat.le_refl _
      · rintro ⟨hactive, hresumes, h, hholds⟩
        have hsome := Core.isSome_stopBefore_of_holdsBack hwaiting haccounts hactive hresumes hholds
        rw [hstop] at hsome
        cases hsome
    | some h =>
      -- The session's own trap waits for the end of an instruction, so a breakpoint stops the call.
      have hholds := Core.holdsBack_of_stopBefore (c := { c with traps := ts }) hwaiting haccounts
        hstop
      obtain ⟨hstopped, hsame⟩ := (Core.stopped_before_iff Stepper.test _ _ h).mpr hstop
      rw [hstopped] at hreports
      refine ⟨?_, fun _ => ⟨h, _, hholds, hreports, hnext, hsame⟩⟩
      intro hfree
      -- Without a breakpoint that holds it back the machine does not look at the fetch at all.
      have hquiet : c.cpu.registers.halted = true ∨ c.resumes = true := by
        by_contra hnot
        rw [not_or, Bool.not_eq_true, Bool.not_eq_true] at hnot
        exact hfree ⟨hnot.1, hnot.2, h, hholds⟩
      have hnone : Core.stopBefore Stepper.test { c with traps := ts } after.stepper = none :=
        Core.stopBefore_eq_none hquiet
      rw [hnone] at hstop
      cases hstop
  · intro h between hstopped hkeeps
    exact (atStop_of_stopped hstopped).applyAll hkeeps

/-- A machine paused at an instruction that does nothing, without breakpoints. -/
def idling : FreeCore := ⟨Stepper.routineCore 0xFFF0 [0x00, 0x00], rfl⟩

/-- The machine stops before the instruction at the program counter by a breakpoint that was added
there.  A step started at that stop, with a second breakpoint on the same instruction by then, runs
the instruction. -/
theorem resuming_makes_progress_from_stop :
    let m := (start (some idling)).applyAll
      [.add (.execAt .logical 0x9000), .run, .executeOne, .add (.execAt .logical 0x9000)]
    m.lastStop = some 1 ∧ m.stepInto.1 = true ∧ m.stepInto.2.store.size = 2 ∧
      ∀ n, (m.stepInto.2.runFor (n + 1)).2.HasRun 1 := by
  intro m
  have hstarted : m.stepInto.1 = true := by decide +kernel
  refine ⟨by decide +kernel, hstarted, by decide +kernel, ?_⟩
  obtain ⟨c, hcore, hresumes⟩ := (resuming_makes_progress (some idling)
    [.add (.execAt .logical 0x9000), .run]).2 1 [.add (.execAt .logical 0x9000)]
    (by decide +kernel) (by simp [Operation.KeepsPlace])
  have hfree : ¬ m.HeldBack c := by
    rintro ⟨_, hnew, _⟩
    rw [hnew] at hresumes
    cases hresumes
  have hprogress := ((resuming_makes_progress (some idling)
    [.add (.execAt .logical 0x9000), .run, .executeOne, .add (.execAt .logical 0x9000)]).1 c _ hcore
    (.stepInto hstarted)).1 hfree
  exact fun n => (hprogress n).mono (Nat.le_add_left 1 c.cpu.instructions)

/-- A breakpoint is added on the instruction at the program counter of a machine that has just been
attached to its core, and of one that was paused by hand behind the first instruction.  A run and a
step both stop at once, and the number of instructions that have run stays as it was. -/
theorem new_breakpoint_holds_back :
    let count := fun m : Machine => m.core.map (·.cpu.instructions)
    let fresh := (start (some idling)).applyAll [.add (.execAt .logical 0x9000)]
    let halfway := (start (some idling)).applyAll
      [.run, .executeOne, .pause, .add (.execAt .logical 0x9001)]
    (fresh.paused = true ∧ fresh.core.map (·.cpu.registers.halted) = some false ∧
      fresh.run.executeOne.1 = some (.stopped 1) ∧ count fresh.run.executeOne.2 = some 0 ∧
      fresh.stepInto.1 = true ∧ fresh.stepInto.2.executeOne.1 = some (.stopped 1) ∧
      count fresh.stepInto.2.executeOne.2 = some 0) ∧
    (halfway.paused = true ∧ count halfway = some 1 ∧
      halfway.run.executeOne.1 = some (.stopped 1) ∧ count halfway.run.executeOne.2 = some 1) := by
  intro count fresh halfway
  refine ⟨⟨?_, ?_, ?_, ?_, ?_, ?_, ?_⟩, ?_, ?_, ?_, ?_⟩
  all_goals decide +kernel

end Machine

end Z80Debugger
