import Z80Debugger.Core

/-!
# One call of a core

`Core.execute_cases` says all that one call can come to: a trap stops it before the instruction, and
nothing but the table of traps changes; or the instruction runs and an interrupt is served, whether
a trap stops it then or not.  Only the test changes the table of traps and the state that the test
keeps, and it is asked only about tested traps in the table, so whatever every such test preserves
is preserved by a whole call, and tests that answer alike there make the same call.
-/

set_option autoImplicit false

namespace Z80Debugger

variable {σ : Type} {test other : Test σ} {P : Traps × σ → Prop}

/-- The test keeps the property whenever it is asked about a tested trap in the table. -/
def Test.Preserves (test : Test σ) (P : Traps × σ → Prop) : Prop :=
  ∀ c h opcode s t, s.1.find? h = some t → t.tested = true → P s → P (test c h opcode s).2

/-- The tests answer alike whenever they are asked about a tested trap in a table with the
property. -/
def Test.AgreesOn (other test : Test σ) (P : Traps × σ → Prop) : Prop :=
  ∀ c h opcode s t, s.1.find? h = some t → t.tested = true → P s →
    other c h opcode s = test c h opcode s

namespace Traps

/-- What every test preserves is preserved while hits are gone through. -/
theorem firstStop_preserves (htest : test.Preserves P) (c : Cpu) (opcode : UInt32)
    (hs : List Handle) (s : Traps × σ) (hP : P s) :
    P (firstStop test c opcode hs s).2 := by
  induction hs generalizing s with
  | nil => exact hP
  | cons h hs ih =>
    rw [firstStop]
    split
    · exact ih s hP
    · next t hfind =>
      by_cases htested : t.tested = true
      · rw [if_pos htested]
        have hafter := htest c h opcode s t hfind htested hP
        generalize test c h opcode s = answer at hafter
        obtain ⟨stops, after⟩ := answer
        cases stops with
        | true => exact hafter
        | false => exact ih after hafter
      · rw [if_neg htested]
        exact hP

/-- What every test preserves is preserved while events are checked. -/
theorem check_preserves (htest : test.Preserves P) (c : Cpu) (opcode : UInt32)
    (es : List Event) (s : Traps × σ) (hP : P s) :
    P (check test c opcode es s).2 := by
  induction es generalizing s with
  | nil => exact hP
  | cons e es ih =>
    have hafter := firstStop_preserves htest c opcode (s.1.hits c e) s hP
    rw [check]
    generalize firstStop test c opcode (s.1.hits c e) s = result at hafter
    obtain ⟨stop?, after⟩ := result
    cases stop? with
    | none => exact ih after hafter
    | some h => exact hafter

/-- Tests that agree while something is preserved stop at the same handle. -/
theorem firstStop_congr (htest : test.Preserves P) (hagree : other.AgreesOn test P) (c : Cpu)
    (opcode : UInt32) (hs : List Handle) (s : Traps × σ) (hP : P s) :
    firstStop other c opcode hs s = firstStop test c opcode hs s := by
  induction hs generalizing s with
  | nil => rfl
  | cons h hs ih =>
    rw [firstStop, firstStop]
    split
    · exact ih s hP
    · next t hfind =>
      by_cases htested : t.tested = true
      · rw [if_pos htested, if_pos htested, hagree c h opcode s t hfind htested hP]
        have hafter := htest c h opcode s t hfind htested hP
        generalize test c h opcode s = answer at hafter
        obtain ⟨stops, after⟩ := answer
        cases stops with
        | true => rfl
        | false => exact ih after hafter
      · rw [if_neg htested, if_neg htested]

/-- So they do over several events. -/
theorem check_congr (htest : test.Preserves P) (hagree : other.AgreesOn test P) (c : Cpu)
    (opcode : UInt32) (es : List Event) (s : Traps × σ) (hP : P s) :
    check other c opcode es s = check test c opcode es s := by
  induction es generalizing s with
  | nil => rfl
  | cons e es ih =>
    have hafter := firstStop_preserves htest c opcode (s.1.hits c e) s hP
    rw [check, check, firstStop_congr htest hagree c opcode (s.1.hits c e) s hP]
    generalize firstStop test c opcode (s.1.hits c e) s = result at hafter
    obtain ⟨stop?, after⟩ := result
    cases stop? with
    | none => exact ih after hafter
    | some h => rfl

/-- What stops is one of the hits. -/
theorem mem_of_firstStop_eq_some {c : Cpu} {opcode : UInt32} {hs : List Handle} {s : Traps × σ}
    {k : Handle} (hstop : (firstStop test c opcode hs s).1 = some k) : k ∈ hs := by
  induction hs generalizing s with
  | nil => cases hstop
  | cons h hs ih =>
    rw [firstStop] at hstop
    split at hstop
    · exact List.mem_cons_of_mem h (ih hstop)
    · split at hstop
      · generalize test c h opcode s = answer at hstop
        obtain ⟨stops, after⟩ := answer
        cases stops with
        | true => exact List.mem_cons.mpr (Or.inl (Option.some.inj hstop).symm)
        | false => exact List.mem_cons_of_mem h (ih hstop)
      · exact List.mem_cons.mpr (Or.inl (Option.some.inj hstop).symm)

/-- What stops is hit by one of the events, in a table to which tests have led. -/
theorem exists_hit_of_check_eq_some (htest : test.Preserves P) {c : Cpu} {opcode : UInt32}
    {es : List Event} {s : Traps × σ} {k : Handle} (hP : P s)
    (hstop : (check test c opcode es s).1 = some k) :
    ∃ s', P s' ∧ ∃ e ∈ es, k ∈ s'.1.hits c e := by
  induction es generalizing s with
  | nil => cases hstop
  | cons e es ih =>
    have hafter := firstStop_preserves htest c opcode (s.1.hits c e) s hP
    have hhit : (firstStop test c opcode (s.1.hits c e) s).1 = some k → k ∈ s.1.hits c e :=
      mem_of_firstStop_eq_some
    rw [check] at hstop
    generalize firstStop test c opcode (s.1.hits c e) s = result at hstop hafter hhit
    obtain ⟨stop?, after⟩ := result
    cases stop? with
    | some h => exact ⟨s, hP, e, List.mem_cons_self, hhit hstop⟩
    | none =>
      obtain ⟨s', hs', d, hd, hhit⟩ := ih hafter hstop
      exact ⟨s', hs', d, List.mem_cons_of_mem e hd, hhit⟩

end Traps

namespace Core

/-- The core with no trap registered. -/
def withoutTraps (c : Core) : Core := { c with traps := { c.traps with entries := [] } }

/-- What a call reports after the checks behind the instruction. -/
def outcomeOf : Option Handle → Outcome
  | some h => .stopped h
  | none => .continued

/-- All that a call can come to. -/
theorem execute_cases (test : Test σ) (c : Core) (state : σ) :
    (∃ h s, Traps.check test c.cpu c.cpu.code.opcode c.eventsBefore (c.traps, state) = (some h, s) ∧
      c.execute test state =
        (.stopped h, { c with traps := s.1, resumeAt := some c.cpu.registers.pc }, s.2)) ∨
    ∃ s stop? after,
      Traps.check test c.cpu c.cpu.code.opcode c.eventsBefore (c.traps, state) = (none, s) ∧
      Traps.check test (runInstruction c.cpu).1 c.cpu.stepOpcode (runInstruction c.cpu).2 s =
        (stop?, after) ∧
      c.execute test state =
        (outcomeOf stop?,
          { cpu := (runInstruction c.cpu).1.serveInterrupt
            traps := after.1
            resumeAt := stop?.map fun _ =>
              (runInstruction c.cpu).1.serveInterrupt.registers.pc },
          after.2) := by
  unfold execute
  generalize Traps.check test c.cpu c.cpu.code.opcode c.eventsBefore (c.traps, state) = first
  obtain ⟨stop?, s⟩ := first
  cases stop? with
  | some h => exact Or.inl ⟨h, s, rfl, rfl⟩
  | none =>
    right
    generalize hsecond : Traps.check test (runInstruction c.cpu).1 c.cpu.stepOpcode
      (runInstruction c.cpu).2 s = second
    obtain ⟨stop?, after⟩ := second
    refine ⟨s, stop?, after, rfl, hsecond, ?_⟩
    obtain ⟨traps, state⟩ := s
    simp only [hsecond]
    cases stop? <;> rfl

/-- A call that is stopped before the instruction. -/
theorem execute_of_stopped {c : Core} {state : σ} {h : Handle} {after : Traps × σ}
    (hbefore : Traps.check test c.cpu c.cpu.code.opcode c.eventsBefore (c.traps, state) =
      (some h, after)) :
    c.execute test state =
      (.stopped h, { c with traps := after.1, resumeAt := some c.cpu.registers.pc }, after.2) := by
  simp only [execute, hbefore]

/-- A call that no trap stops. -/
theorem execute_of_continued {c : Core} {state : σ} {before after : Traps × σ}
    (hbefore : Traps.check test c.cpu c.cpu.code.opcode c.eventsBefore (c.traps, state) =
      (none, before))
    (hafter : Traps.check test (runInstruction c.cpu).1 c.cpu.stepOpcode
      (runInstruction c.cpu).2 before = (none, after)) :
    c.execute test state =
      (.continued, { cpu := (runInstruction c.cpu).1.serveInterrupt, traps := after.1 },
        after.2) := by
  simp only [execute, hbefore, hafter]

/-- What every test preserves is preserved by a call. -/
theorem execute_preserves (htest : test.Preserves P) (c : Core) (state : σ)
    (hP : P (c.traps, state)) :
    P ((c.execute test state).2.1.traps, (c.execute test state).2.2) := by
  have hbefore := Traps.check_preserves htest c.cpu c.cpu.code.opcode c.eventsBefore
    (c.traps, state) hP
  rcases execute_cases test c state with ⟨h, s, hfirst, hresult⟩ |
    ⟨s, stop?, after, hfirst, hsecond, hresult⟩
  · rw [hfirst] at hbefore
    rw [hresult]
    exact hbefore
  · rw [hfirst] at hbefore
    have hafter := Traps.check_preserves htest (runInstruction c.cpu).1 c.cpu.stepOpcode
      (runInstruction c.cpu).2 s hbefore
    rw [hsecond] at hafter
    rw [hresult]
    exact hafter

/-- Tests that answer alike wherever one of them is asked make the same call. -/
theorem execute_congr (htest : test.Preserves P) (hagree : other.AgreesOn test P) (c : Core)
    (state : σ) (hP : P (c.traps, state)) : c.execute other state = c.execute test state := by
  have hbetween := Traps.check_preserves htest c.cpu c.cpu.code.opcode c.eventsBefore
    (c.traps, state) hP
  have hfirst := Traps.check_congr htest hagree c.cpu c.cpu.code.opcode c.eventsBefore
    (c.traps, state) hP
  unfold execute
  rw [hfirst]
  generalize Traps.check test c.cpu c.cpu.code.opcode c.eventsBefore (c.traps, state) = first
    at hbetween
  obtain ⟨stop?, s⟩ := first
  cases stop? with
  | some h => rfl
  | none =>
    have hsecond := Traps.check_congr htest hagree (runInstruction c.cpu).1 c.cpu.stepOpcode
      (runInstruction c.cpu).2 s hbetween
    simp only [hsecond]

end Core

end Z80Debugger
