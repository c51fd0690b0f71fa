import Mathlib.Data.List.Induction
import Z80Debugger.Proofs.Core.Stops

/-!
# Every breakpoint stops once

A core that stopped lets the fetch at the place of the stop through once.  So over a run of calls,
with traps registered and removed and interrupts raised between them, no untested trap on running an
instruction is passed over, unless the call before has just stopped at that instruction; and after a
stop the next call runs an instruction, so a stop is never repeated without progress.
`stops_neither_missed_nor_repeated` states both for every run of a fresh core.
-/

set_option autoImplicit false

namespace Z80Debugger.Core

variable {σ : Type}

/-- What happens to a core in a run: calls, and what is done between them. -/
inductive Action (σ : Type) where
  | execute (test : Test σ)
  | add (t : Trap)
  | remove (h : Handle)
  | interrupt
  /-- The state of the tests changes, as when a session starts. -/
  | adjust (f : σ → σ)

namespace Action

/-- The core and the state of the tests after an action; a refused trap changes nothing. -/
def apply (s : Core × σ) : Action σ → Core × σ
  | execute test => (s.1.execute test s.2).2
  | add t => (((s.1.traps.add? t).map fun added => { s.1 with traps := added.2 }).getD s.1, s.2)
  | remove h => ({ s.1 with traps := s.1.traps.erase h }, s.2)
  | interrupt => ({ s.1 with cpu := s.1.cpu.raiseInterrupt }, s.2)
  | adjust f => (s.1, f s.2)

/-- The action is no call. -/
def Between : Action σ → Prop
  | execute _ => False
  | _ => True

/-- If the action is a call, its test removes no trap other than the one that it is asked about. -/
def SparesOthers : Action σ → Prop
  | execute test => Test.SparesOthers test
  | _ => True

end Action

/-- The core and the state of the tests after actions in order. -/
def run (s : Core × σ) (as : List (Action σ)) : Core × σ := as.foldl Action.apply s

/-- The last call of a run stopped and left the program counter at `pc`. -/
def LastCallStopped (s : Core × σ) (as : List (Action σ)) (pc : UInt16) : Prop :=
  ∃ before test between, as = before ++ .execute test :: between ∧
    (∀ a ∈ between, Action.Between a) ∧
    (∃ h, ((run s before).1.execute test (run s before).2).1 = .stopped h) ∧
    ((run s before).1.execute test (run s before).2).2.1.cpu.registers.pc = pc

/-- Nothing has run, and the place to resume at is the same. -/
structure Paused (c d : Core) : Prop where
  registers : d.cpu.registers = c.cpu.registers
  instructions : d.cpu.instructions = c.cpu.instructions
  resumeAt : d.resumeAt = c.resumeAt

variable {s : Core × σ} {as between : List (Action σ)} {a : Action σ} {pc : UInt16}

/-- The last of some actions comes after the others. -/
theorem run_append_singleton (s : Core × σ) (as : List (Action σ)) (a : Action σ) :
    run s (as ++ [a]) = a.apply (run s as) := by
  rw [run, List.foldl_append]
  rfl

/-- An action between two calls keeps the core paused where it is. -/
theorem paused_apply (s : Core × σ) (hbetween : a.Between) : Paused s.1 (a.apply s).1 := by
  cases a with
  | execute test => exact hbetween.elim
  | add t =>
    simp only [Action.apply]
    cases s.1.traps.add? t <;> exact ⟨rfl, rfl, rfl⟩
  | remove | interrupt | adjust => exact ⟨rfl, rfl, rfl⟩

/-- So do any such actions. -/
theorem paused_run (s : Core × σ) (hbetween : ∀ a ∈ between, Action.Between a) :
    Paused s.1 (run s between).1 := by
  induction between generalizing s with
  | nil => exact ⟨rfl, rfl, rfl⟩
  | cons a as ih =>
    have hfirst := paused_apply s (hbetween a List.mem_cons_self)
    have hrest := ih (a.apply s) fun b hb => hbetween b (List.mem_cons_of_mem a hb)
    exact ⟨hrest.registers.trans hfirst.registers, hrest.instructions.trans hfirst.instructions,
      hrest.resumeAt.trans hfirst.resumeAt⟩

/-- After a call a core has a place to resume at exactly if the call stopped, and that is where the
program counter is. -/
theorem resumeAt_execute_eq_some_iff (test : Test σ) (c : Core) (state : σ) :
    (c.execute test state).2.1.resumeAt = some pc ↔
      (∃ h, (c.execute test state).1 = .stopped h) ∧
        (c.execute test state).2.1.cpu.registers.pc = pc := by
  rcases execute_cases test c state with ⟨h, s, _, hresult⟩ | ⟨s, stop?, after, _, _, hresult⟩
  · rw [hresult]
    simp
  · rw [hresult]
    cases stop? <;> simp [outcomeOf]

/-- A core resumes only where the last call has stopped. -/
theorem lastCallStopped_of_resumeAt (hfresh : s.1.resumeAt = none)
    (hresume : (run s as).1.resumeAt = some pc) : LastCallStopped s as pc := by
  -- By the last action: between calls the place to resume at is kept, and a call sets it anew.
  induction as using List.reverseRecOn with
  | nil =>
    have hnone : (run s []).1.resumeAt = none := hfresh
    rw [hnone] at hresume
    cases hresume
  | append_singleton as a ih =>
    rw [run_append_singleton] at hresume
    by_cases hbetween : a.Between
    · rw [(paused_apply _ hbetween).resumeAt] at hresume
      obtain ⟨before, test, between, rfl, hquiet, hstopped⟩ := ih hresume
      refine ⟨before, test, between ++ [a], by simp, ?_, hstopped⟩
      intro b hb
      rcases List.mem_append.mp hb with hb | hb
      · exact hquiet b hb
      · rwa [List.mem_singleton.mp hb]
    · cases a with
      | execute test =>
        have hstopped := (resumeAt_execute_eq_some_iff test _ _).mp hresume
        exact ⟨as, test, [], rfl, by simp, hstopped⟩
      | add | remove | interrupt | adjust => exact absurd trivial hbetween

/-- Every action keeps the table in order. -/
theorem ordered_apply (hspares : a.SparesOthers) (hordered : s.1.traps.Ordered) :
    (a.apply s).1.traps.Ordered := by
  cases a with
  | execute test =>
    have htest : test.Preserves fun s => s.1.Ordered := by
      intro c h opcode s _ _ _ hs
      exact (hspares c h opcode s).ordered hs
    exact execute_preserves htest s.1 s.2 hordered
  | add t =>
    simp only [Action.apply]
    cases hadd : s.1.traps.add? t with
    | none => exact hordered
    | some added => exact hordered.add? hadd
  | remove h => exact hordered.erase h
  | interrupt | adjust => exact hordered

/-- Tests that spare the traps of others keep the handles of a table in order. -/
theorem ordered_run (hspares : ∀ a ∈ as, Action.SparesOthers a) (hordered : s.1.traps.Ordered) :
    (run s as).1.traps.Ordered := by
  induction as generalizing s with
  | nil => exact hordered
  | cons a as ih =>
    apply ih fun b hb => hspares b (List.mem_cons_of_mem a hb)
    exact ordered_apply (hspares a List.mem_cons_self) hordered

/-- An untested trap that the fetch hits stops a call before the instruction, unless the core
resumes. -/
theorem isSome_stopBefore {test : Test σ} {c : Core} {h : Handle} {t : Trap}
    (hspares : Test.SparesOthers test) (hordered : c.traps.Ordered)
    (hmem : (h, t) ∈ c.traps.entries) (huntested : t.tested = false)
    (hhit : t.isHitBy c.cpu (.fetch c.cpu.registers.pc) = true)
    (hrunning : c.cpu.registers.halted = false) (hresumes : c.resumes = false) (state : σ) :
    (stopBefore test c state).isSome = true := by
  rw [stopBefore_of_fetch test state hrunning hresumes]
  exact Traps.isSome_firstStop hspares huntested _ _ _ _ (hordered.find?_eq_some_iff.mpr hmem)
    (Traps.mem_hits_iff.mpr ⟨t, hmem, hhit⟩)

/-- After a stop, and whatever is done between the calls, the next call runs an instruction. -/
theorem execute_after_stop {test : Test σ} {h : Handle}
    (hstopped : (s.1.execute test s.2).1 = .stopped h)
    (hbetween : ∀ a ∈ between, Action.Between a) (next : Test σ) :
    let resumed := run (s.1.execute test s.2).2 between
    (resumed.1.execute next resumed.2).2.1.cpu = ran resumed.1.cpu := by
  intro resumed
  have hpaused : Paused (s.1.execute test s.2).2.1 resumed.1 := paused_run _ hbetween
  have hresumeAt := (resumeAt_execute_eq_some_iff test s.1 s.2).mpr ⟨⟨h, hstopped⟩, rfl⟩
  have hresumes : resumed.1.resumes = true := by
    rw [resumes, hpaused.resumeAt, hpaused.registers, hresumeAt]
    simp
  rw [cpu_execute_eq_ran_iff, stopBefore, eventsBefore, hresumes, Bool.or_true]
  rfl

/-- Take a fresh core and any run of it in which tests remove no trap other than the one that they
are asked about.  If a call then runs an instruction although the core is not halted and the fetch
hits an untested trap, the last call before has stopped at that very instruction.  And whatever
tests there are: the call after a stop runs an instruction, so it counts one more than the stop
did. -/
theorem stops_neither_missed_nor_repeated {c : Core} (hfree : c.traps.entries = [])
    (hfresh : c.resumeAt = none) (state : σ) :
    (∀ (as : List (Action σ)) (test : Test σ),
      (∀ a ∈ as, Action.SparesOthers a) → Test.SparesOthers test →
      let s := run (c, state) as
      let pc := s.1.cpu.registers.pc
      s.1.cpu.registers.halted = false →
      (∃ h t, (h, t) ∈ s.1.traps.entries ∧ t.tested = false ∧
        t.isHitBy s.1.cpu (.fetch pc) = true) →
      (s.1.execute test s.2).2.1.cpu = ran s.1.cpu → LastCallStopped (c, state) as pc) ∧
    ∀ (as between : List (Action σ)) (test next : Test σ), (∀ a ∈ between, Action.Between a) →
      let s := run (c, state) as
      let stop := s.1.execute test s.2
      let resumed := run stop.2 between
      (∃ h, stop.1 = .stopped h) →
      (resumed.1.execute next resumed.2).2.1.cpu = ran resumed.1.cpu ∧
        (resumed.1.execute next resumed.2).2.1.cpu.instructions =
          stop.2.1.cpu.instructions + 1 := by
  constructor
  · intro as test hspares hnext s pc hrunning ⟨h, t, hmem, huntested, hhit⟩ hran
    have hordered : s.1.traps.Ordered := ordered_run hspares (Traps.holds_nil hfree).toOrdered
    have hresumes : s.1.resumes = true := by
      by_contra hnot
      rw [Bool.not_eq_true] at hnot
      have hsome := isSome_stopBefore hnext hordered hmem huntested hhit hrunning hnot s.2
      rw [(cpu_execute_eq_ran_iff test s.1 s.2).mp hran] at hsome
      cases hsome
    rw [resumes, beq_iff_eq] at hresumes
    exact lastCallStopped_of_resumeAt hfresh hresumes
  · intro as between test next hbetween s stop resumed ⟨h, hstopped⟩
    have hran := execute_after_stop hstopped hbetween next
    have hpaused : Paused stop.2.1 resumed.1 := paused_run stop.2 hbetween
    refine ⟨hran, ?_⟩
    rw [hran, instructions_ran, hpaused.instructions]

/-- A core about to run a jump to itself. -/
def spinningCore : Core where
  cpu := { Cpu.standard.load 0x8000 [0x18, 0xFE] with registers := { pc := 0x8000 } }

/-- The trap on running the instruction at 8000. -/
def spinTrap : Trap := { kind := .memoryExec, first := 0x8000, last := 0x8000, mask := 0xFFFF }

/-- What actions make of the core, without a step session. -/
def spin (as : List (Action Stepper)) : Core × Stepper := run (spinningCore, none) as

/-- The trap stops the first call.  The second one runs the jump, since the call before stopped at
it, and counts it as the first instruction, though an interrupt was raised between them. -/
theorem stops_neither_missed_nor_repeated_spinning :
    LastCallStopped (spinningCore, (none : Stepper)) [.add spinTrap, .execute Stepper.test] 0x8000 ∧
      let resumed := run ((spin [.add spinTrap]).1.execute Stepper.test (spin [.add spinTrap]).2).2
        [.interrupt]
      (resumed.1.execute Stepper.test resumed.2).2.1.cpu.instructions = 1 := by
  have hfree : spinningCore.traps.entries = [] := rfl
  obtain ⟨hmissed, hrepeated⟩ := stops_neither_missed_nor_repeated hfree rfl (none : Stepper)
  constructor
  · have hpc : (spin [.add spinTrap, .execute Stepper.test]).1.cpu.registers.pc = 0x8000 := by
      decide +kernel
    have hran : stopBefore Stepper.test (spin [.add spinTrap, .execute Stepper.test]).1
        (spin [.add spinTrap, .execute Stepper.test]).2 = none := by
      decide +kernel
    have hspares : ∀ a ∈ [.add spinTrap, .execute Stepper.test], Action.SparesOthers a := by
      simp [Action.SparesOthers, Stepper.sparesOthers_test]
    have hresult := hmissed [.add spinTrap, .execute Stepper.test] Stepper.test hspares
      Stepper.sparesOthers_test (by decide +kernel)
      ⟨1, spinTrap, by decide +kernel, rfl, by decide +kernel⟩
      ((cpu_execute_eq_ran_iff _ _ _).mpr hran)
    rw [← hpc]
    exact hresult
  · have hstopped : ((spin [.add spinTrap]).1.execute Stepper.test (spin [.add spinTrap]).2).1 =
        .stopped 1 := by
      decide +kernel
    have hcount : ((spin [.add spinTrap]).1.execute Stepper.test
        (spin [.add spinTrap]).2).2.1.cpu.instructions = 0 := by
      decide +kernel
    have hbetween : ∀ a ∈ [(.interrupt : Action Stepper)], a.Between := by
      simp [Action.Between]
    have hresult := (hrepeated [.add spinTrap] [.interrupt] Stepper.test Stepper.test hbetween
      ⟨1, hstopped⟩).2
    exact hresult.trans (congrArg (· + 1) hcount)

end Z80Debugger.Core
