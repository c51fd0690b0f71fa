import Z80Debugger.Proofs.Core.Execution
import Z80Debugger.Proofs.Traps.Registered
import Z80Debugger.Stepping

/-!
# The trampoline of a session

A session has one trap in the table, its trampoline, and what the session waits for says which trap
that is.  Starting, cancelling and testing keep this account: beside the trampoline of the session
that is going on, the table holds the same other traps as before.
-/

set_option autoImplicit false

namespace Z80Debugger

/-- The trap that a session of the kind has registered. -/
def StepKind.trap : StepKind → Trap
  | .into | .over _ | .finish _ => .everyOpcode
  | .armed _ target => .reaching target

/-- A trampoline is tested, whatever the session waits for. -/
theorem StepKind.tested_trap (kind : StepKind) : kind.trap.tested = true := by
  cases kind <;> rfl

namespace Stepper

/-- The registered trap of the session, if there is one. -/
def armed (s : Stepper) : List (Handle × Trap) :=
  match s with
  | some session => [(session.trampoline, session.kind.trap)]
  | none => []

variable {s : Stepper} {ts : Traps} {others : List (Handle × Trap)}

/-- The trampoline is the only trap that a session depends on. -/
theorem map_armed (s : Stepper) : s.armed.map (·.1) = s.toList.map (·.trampoline) := by
  cases s <;> rfl

/-- What is armed for a session is its trampoline. -/
theorem mem_armed_iff {h : Handle} {t : Trap} :
    (h, t) ∈ s.armed ↔
      ∃ session, s = some session ∧ session.trampoline = h ∧ session.kind.trap = t := by
  cases s with
  | none => simp [armed]
  | some session => simp [armed, eq_comm]

/-- The end of a session frees no number. -/
@[simp] theorem nextHandle_cancel (s : Stepper) (ts : Traps) :
    (s.cancel ts).nextHandle = ts.nextHandle := by
  cases s <;> rfl

/-- The end of a session leaves the limit. -/
@[simp] theorem limit_cancel (s : Stepper) (ts : Traps) : (s.cancel ts).limit = ts.limit := by
  cases s <;> rfl

/-- The start of a session leaves the limit. -/
@[simp] theorem limit_start (s : Stepper) (ts : Traps) (kind : StepKind) :
    (s.start ts kind).2.limit = ts.limit := by
  simp only [start]
  cases hadd : (s.cancel ts).add? .everyOpcode with
  | none => exact limit_cancel s ts
  | some pair =>
    obtain ⟨_, _, _, hafter⟩ := Traps.add?_eq_some_iff.mp hadd
    simp [hafter]

/-- A cancelled session leaves the other traps. -/
theorem holds_cancel (hts : ts.Holds (s.armed ++ others)) : (s.cancel ts).Holds others := by
  cases s with
  | none => exact hts
  | some session => exact hts.erase

/-- A session that starts has its trampoline beside the other traps. -/
theorem holds_start (hts : ts.Holds (s.armed ++ others)) {kind : StepKind}
    (hkind : kind.trap = .everyOpcode) :
    (s.start ts kind).2.Holds ((s.start ts kind).1.armed ++ others) := by
  have hcancelled := holds_cancel hts
  simp only [start]
  cases hadd : (s.cancel ts).add? .everyOpcode with
  | none => exact hcancelled
  | some pair =>
    obtain ⟨trampoline, after⟩ := pair
    have hadded := hcancelled.add? hadd
    rw [← hkind] at hadded
    exact hadded.of_perm List.perm_append_comm

/-- A session that goes on has its trampoline beside the other traps, and one that stops leaves
them alone when its trampoline is removed. -/
theorem holds_evaluate (session : Session) (hts : ts.Holds (armed (some session) ++ others))
    (c : Cpu) (opcode : UInt32) :
    match evaluate session c opcode ts with
    | (true, after, session) => (after.erase session.trampoline).Holds others
    | (false, after, session) => after.Holds (armed (some session) ++ others) := by
  have herased : (ts.erase session.trampoline).Holds others := hts.erase
  obtain ⟨kind, trampoline⟩ := session
  match kind with
  | .into =>
    simp only [evaluate]
    cases intoIsDone c opcode with
    | true => exact herased
    | false => exact hts
  | .finish threshold =>
    simp only [evaluate]
    cases finishIsDone c threshold opcode with
    | true => exact herased
    | false => exact hts
  | .armed after target => exact herased
  | .over after =>
    simp only [evaluate, arm]
    cases hadd : (ts.erase trampoline).add? (.reaching (overTarget c after opcode)) with
    | none =>
      -- The trampoline is gone already, so removing it once more changes nothing.
      show ((ts.erase trampoline).erase trampoline).Holds others
      rw [Traps.erase_erase]
      exact herased
    | some pair => exact (herased.add? hadd).of_perm List.perm_append_comm

/-- A test leaves the other traps, and the trampoline of the session that goes on. -/
theorem holds_test (c : Cpu) (h : Handle) (opcode : UInt32) (state : Traps × Stepper)
    (hts : state.1.Holds (state.2.armed ++ others)) :
    (test c h opcode state).2.1.Holds ((test c h opcode state).2.2.armed ++ others) := by
  obtain ⟨ts, s⟩ := state
  cases s with
  | none => exact hts
  | some session =>
    have hafter := holds_evaluate session hts c opcode
    simp only [test]
    by_cases hown : session.trampoline = h
    · rw [if_pos hown]
      generalize evaluate session c opcode ts = result at hafter
      obtain ⟨stops, after, session⟩ := result
      cases stops with
      | true => exact hafter
      | false => exact hafter
    · rw [if_neg hown]
      exact hts

/-- A test that does what the test of sessions does when it is asked about the trampoline of the
session that is going on. -/
def AgreesOnOwn (other : Test Stepper) : Prop :=
  ∀ c opcode ts session, other c session.trampoline opcode (ts, some session) =
    test c session.trampoline opcode (ts, some session)

/-- If no other trap is tested, a call asks about nothing but the trampoline of the session. -/
theorem execute_eq_of_agreesOnOwn {other : Test Stepper} (hother : AgreesOnOwn other)
    (huntested : ∀ entry ∈ others, entry.2.tested = false) (c : Core)
    (hts : c.traps.Holds (s.armed ++ others)) : c.execute other s = c.execute test s := by
  have htest : Test.Preserves test fun state => state.1.Holds (state.2.armed ++ others) := by
    intro c h opcode state _ _ _ hstate
    exact holds_test c h opcode state hstate
  apply Core.execute_congr htest _ c s hts
  intro c h opcode state t hfind htested hstate
  obtain ⟨ts, stepper⟩ := state
  rcases List.mem_append.mp (hstate.find?_eq_some_iff.mp hfind) with hmem | hmem
  · obtain ⟨session, rfl, rfl, _⟩ := mem_armed_iff.mp hmem
    exact hother c opcode ts session
  · rw [huntested _ hmem] at htested
    cases htested

end Stepper

end Z80Debugger
