import Mathlib.Data.List.Destutter
import Z80Debugger.Proofs.Core.Execution
import Z80Debugger.Proofs.Cpu.Frame

/-!
# A debugger does not show

The processor of a core that is debugged runs as it would run alone.  A call either stops before
the instruction and leaves the processor as it is, or it changes the processor as a call does in a
core without traps.  So the processors that a run goes through, whatever is done to the traps and to
sessions on the way, are the ones of the free run from its start on, each for a while.
-/

set_option autoImplicit false

namespace Z80Debugger

/-- One thing that a debugger does to a core and to a state of its own. -/
inductive Move (σ : Type) where
  | execute (test : Test σ)
  /-- Traps are registered or removed, or a session starts or ends. -/
  | adjust (f : Core → σ → Traps × σ)

namespace Move

variable {σ : Type}

/-- The core and the debugger's state after a move. -/
def apply (s : Core × σ) : Move σ → Core × σ
  | execute test => (s.1.execute test s.2).2
  | adjust f => ({ s.1 with traps := (f s.1 s.2).1 }, (f s.1 s.2).2)

/-- The processors after each of a number of moves. -/
def visited : List (Move σ) → Core × σ → List Cpu
  | [], _ => []
  | m :: ms, s => (m.apply s).1.cpu :: visited ms (m.apply s)

end Move

namespace Core

/-- The test that never stops and changes nothing. -/
def passing : Test Unit := fun _ _ _ s => (false, s)

/-- The core after a call that no test stops. -/
def next (c : Core) : Core := (c.execute passing ()).2.1

/-- The processors of the free run: those of the core without its traps after each number of
calls. -/
def free (c : Core) (n : ℕ) : Cpu := (next^[n] c.withoutTraps).cpu

variable {σ : Type}

/-- The processor after a call that no trap stops before the instruction. -/
def ran (c : Cpu) : Cpu := (runInstruction c).1.serveInterrupt

/-- A call that runs its instruction counts it. -/
theorem instructions_ran (c : Cpu) : (ran c).instructions = c.instructions + 1 := by
  rw [ran, Cpu.instructions_serveInterrupt]
  exact congrArg (· + 1) c.sameFrame_step.instructions

/-- A call is counted, so it never leaves the processor as it was. -/
theorem ran_ne (c : Cpu) : ran c ≠ c := by
  intro hsame
  have hcount := instructions_ran c
  rw [hsame] at hcount
  omega

/-- Without traps the test and its state do not matter. -/
theorem cpu_execute_withoutTraps (test : Test σ) (c : Core) (state : σ) :
    (c.withoutTraps.execute test state).2.1.cpu = ran c.cpu := by
  rw [execute_of_no_traps test c.withoutTraps state rfl]
  rfl

/-- The free run takes one call after another. -/
theorem free_eq_iterate (c : Core) (n : ℕ) : c.free n = ran^[n] c.cpu := by
  have hrun : ∀ d : Core, d.traps.entries = [] → (next^[n] d).cpu = ran^[n] d.cpu := by
    induction n with
    | zero =>
      intro d _
      rfl
    | succ n ih =>
      intro d hd
      have hnext : d.next = { cpu := ran d.cpu, traps := d.traps } := by
        rw [next, execute_of_no_traps passing d () hd]
        rfl
      rw [Function.iterate_succ_apply, Function.iterate_succ_apply, hnext]
      exact ih _ hd
  exact hrun c.withoutTraps rfl

/-- A call either stops before the instruction and changes nothing in the processor, or it runs the
instruction. -/
theorem stopped_or_ran (test : Test σ) (c : Core) (state : σ) :
    (∃ h, (c.execute test state).1 = .stopped h ∧ (c.execute test state).2.1.cpu = c.cpu) ∨
      (c.execute test state).2.1.cpu = ran c.cpu := by
  rcases execute_cases test c state with ⟨h, s, _, hresult⟩ | ⟨s, stop?, after, _, _, hresult⟩
  · rw [hresult]
    exact Or.inl ⟨h, rfl, rfl⟩
  · rw [hresult]
    exact Or.inr rfl

end Core

namespace Move

variable {σ : Type}

/-- A move leaves the processor alone or takes one call of the free run. -/
theorem cpu_apply (m : Move σ) (s : Core × σ) :
    (m.apply s).1.cpu = s.1.cpu ∨ (m.apply s).1.cpu = Core.ran s.1.cpu := by
  cases m with
  | adjust f => exact Or.inl rfl
  | execute test =>
    rcases Core.stopped_or_ran test s.1 s.2 with ⟨h, _, hcpu⟩ | hcpu
    · exact Or.inl hcpu
    · exact Or.inr hcpu

open Classical in
/-- The processors of a run without repetitions are the first ones of the free run. -/
theorem destutter_visited (moves : List (Move σ)) (s : Core × σ) :
    ∃ n, (s.1.cpu :: visited moves s).destutter (· ≠ ·) =
      (List.range (n + 1)).map fun k => Core.ran^[k] s.1.cpu := by
  simp only [List.destutter_cons']
  induction moves generalizing s with
  | nil => exact ⟨0, rfl⟩
  | cons m ms ih =>
    obtain ⟨n, hn⟩ := ih (m.apply s)
    rcases cpu_apply m s with hcpu | hcpu
    · refine ⟨n, ?_⟩
      rw [hcpu] at hn
      rw [visited, hcpu, List.destutter'_cons_neg _ (by simp)]
      exact hn
    · refine ⟨n + 1, ?_⟩
      have hrange : List.range (n + 1 + 1) = 0 :: (List.range (n + 1)).map Nat.succ :=
        List.range_succ_eq_map
      rw [hcpu] at hn
      rw [visited, hcpu, List.destutter'_cons_pos _ (Core.ran_ne s.1.cpu).symm, hn, hrange,
        List.map_cons, List.map_map]
      rfl

end Move

open Classical in
/-- For every core, every test and every table of traps, a call either stops with the processor
unchanged, or it changes the processor exactly as a call does in the core without traps, whatever
the test there.  So in every run, whatever is done to traps and sessions between the calls, the
processors without repetitions are a first part of the free run. -/
theorem Core.debugger_transparent {σ τ : Type} :
    (∀ (test : Test σ) (c : Core) (state : σ) (freeTest : Test τ) (freeState : τ),
      (∃ h, (c.execute test state).1 = .stopped h ∧ (c.execute test state).2.1.cpu = c.cpu) ∨
        (c.execute test state).2.1.cpu = (c.withoutTraps.execute freeTest freeState).2.1.cpu) ∧
    ∀ (moves : List (Move σ)) (c : Core) (state : σ), ∃ n,
      (c.cpu :: Move.visited moves (c, state)).destutter (· ≠ ·) =
        (List.range (n + 1)).map c.free := by
  constructor
  · intro test c state freeTest freeState
    rw [cpu_execute_withoutTraps]
    exact stopped_or_ran test c state
  · intro moves c state
    obtain ⟨n, hn⟩ := Move.destutter_visited moves (c, state)
    refine ⟨n, hn.trans ?_⟩
    apply List.map_congr_left
    intro k _
    exact (free_eq_iterate c k).symm

end Z80Debugger
