import Z80Debugger.Proofs.Core.Schedule
import Z80Debugger.Proofs.Core.Transparency
import Z80Debugger.Proofs.Cpu.Control
import Z80Debugger.Proofs.Stepping.Hits
import Z80Debugger.Proofs.Stepping.Trampoline

/-!
# Stepping into an instruction

A step into an instruction stops behind it.  It goes on behind a halt, as long as no interrupt ends
the halt, and looks at the opcode value to tell a halt.  `stepInto_waits_only_in_halt` says when
each call goes on and when it stops, for every core and whatever else is registered, as long as the
call hits nothing else.  A call that goes on leaves the processor halted, with one exception: an
index prefix before the opcode of a halt counts as a halt, and the processor skips over it.  The
step then does not stop behind its instruction, as in `stepInto_passes_prefixed_halt`.
-/

set_option autoImplicit false

namespace Z80Debugger

namespace Stepper

/-- What runs next counts as a halt. -/
def RunsHalt (c : Cpu) : Prop :=
  c.registers.halted = true ∨ c.code.first = 0x76 ∨ c.code.PrefixedHalt

instance (c : Cpu) : Decidable (RunsHalt c) := inferInstanceAs (Decidable (_ ∨ _))

/-- A call that goes on, with the session that it began with and an unchanged table of traps. -/
structure GoesOn (session : Session) (ts : Traps) (result : Outcome × Core × Stepper) : Prop where
  outcome : result.1 = .continued
  active : result.2.2 = some session
  traps : result.2.1.traps = ts

/-- A call that the trampoline of the session stops; the session is over, its trampoline is gone,
and the other traps are left. -/
structure StopsByOwn (session : Session) (others : List (Handle × Trap))
    (result : Outcome × Core × Stepper) : Prop where
  outcome : result.1 = .stopped session.trampoline
  idle : result.2.2 = none
  traps : result.2.1.traps.Holds others

variable {session : Session} {ts : Traps} {others : List (Handle × Trap)} {c : Core} {cpu : Cpu}

/-- An opcode is classified as a halt exactly if a halt runs. -/
theorem flow_eq_halt_iff : Flow.ofOpcode cpu.stepOpcode = .halt ↔ RunsHalt cpu := by
  cases hhalted : cpu.registers.halted with
  | true =>
    have hopcode : cpu.stepOpcode = 0x76 := by
      rw [Cpu.stepOpcode, hhalted]
      rfl
    rw [hopcode]
    exact iff_of_true rfl (Or.inl hhalted)
  | false =>
    rw [Cpu.stepOpcode_of_running hhalted, Code.flow_executedOpcode_eq_halt_iff, RunsHalt, hhalted]
    simp

/-- A step into goes on exactly while a halt runs and no interrupt is to be served. -/
theorem intoIsDone_eq_false_iff :
    intoIsDone (Core.runInstruction cpu).1 cpu.stepOpcode = false ↔
      RunsHalt cpu ∧ cpu.step.cpu.Quiet := by
  rw [← flow_eq_halt_iff, Cpu.Quiet, intoIsDone, Bool.or_eq_false_iff, bne_eq_false_iff_eq,
    Bool.and_comm]
  rfl

/-- Behind a halt without a prefix the processor is halted. -/
theorem halted_step_of_runsHalt (hruns : RunsHalt cpu)
    (hplain : cpu.registers.halted = true ∨ ¬ cpu.code.PrefixedHalt) :
    cpu.step.cpu.registers.halted = true := by
  cases hhalted : cpu.registers.halted with
  | true =>
    rw [Cpu.step, if_pos hhalted]
    exact hhalted
  | false =>
    simp only [RunsHalt, hhalted, Bool.false_eq_true, false_or] at hruns hplain
    have hfirst : cpu.code.first = 0x76 := hruns.resolve_right hplain
    have hcode : cpu.code.Plain := by
      rw [Code.Plain, hfirst]
      decide
    obtain ⟨hindex, hinstruction⟩ := hcode.decode
    have hhalt : cpu.code.decode.instruction = .halt := by
      rw [hinstruction, hfirst]
      rfl
    rw [Cpu.step_of_index_eq_none hhalted hindex, hhalt]
    rfl

/-- A call in a step into an instruction goes on behind a halt that no interrupt ends, and stops
behind everything else. -/
theorem execute_into (hkind : session.kind = .into)
    (hts : c.traps.Holds ((session.trampoline, .everyOpcode) :: others))
    (hspares : c.Spares others) :
    (c.execute test (some session)).2.1.cpu = Core.ran c.cpu ∧
      (RunsHalt c.cpu ∧ c.cpu.step.cpu.Quiet →
        GoesOn session c.traps (c.execute test (some session))) ∧
      (¬ (RunsHalt c.cpu ∧ c.cpu.step.cpu.Quiet) →
        StopsByOwn session others (c.execute test (some session))) := by
  have hfind : c.traps.find? session.trampoline = some .everyOpcode :=
    hts.find?_eq_some_iff.mpr List.mem_cons_self
  rw [Core.execute_of_spares hts.perm hfind hspares]
  simp only [test, evaluate, hkind, if_true, ← intoIsDone_eq_false_iff]
  cases intoIsDone (Core.runInstruction c.cpu).1 c.cpu.stepOpcode with
  | false => exact ⟨rfl, fun _ => ⟨rfl, rfl, rfl⟩, fun hnot => absurd rfl hnot⟩
  | true =>
    refine ⟨rfl, ?_, fun _ => ⟨rfl, rfl, hts.erase⟩⟩
    intro hfalse
    cases hfalse

/-- A step that starts has its trampoline beside the other traps. -/
theorem start_into {s : Stepper} {before : Traps} (hts : before.Holds (s.armed ++ others))
    (hstart : s.stepInto before = (some session, ts)) :
    session.kind = .into ∧ ts.Holds ((session.trampoline, .everyOpcode) :: others) := by
  have hkind : session.kind = .into := kind_of_start_eq_some hstart
  have hregistered := holds_start hts (show StepKind.into.trap = .everyOpcode from rfl)
  rw [← stepInto, hstart] at hregistered
  simp only [armed, hkind, StepKind.trap, List.singleton_append] at hregistered
  exact ⟨hkind, hregistered⟩

/-- As long as calls go on, the session and the table of traps are as they were. -/
theorem atCall_into {raised : Nat → Bool} (hkind : session.kind = .into)
    (hts : c.traps.Holds ((session.trampoline, .everyOpcode) :: others)) (n : Nat)
    (hgo : ∀ k < n, (Core.call test raised c (some session) k).1 = .continued)
    (hspares : ∀ k < n, (Core.atCall test raised c (some session) k).1.Spares others) :
    (Core.atCall test raised c (some session) n).2 = some session ∧
      (Core.atCall test raised c (some session) n).1.traps = c.traps := by
  induction n with
  | zero => exact ⟨rfl, Core.traps_raise c (raised 0)⟩
  | succ n ih =>
    obtain ⟨hsession, htraps⟩ := ih (fun k hk => hgo k (Nat.lt_succ_of_lt hk))
      (fun k hk => hspares k (Nat.lt_succ_of_lt hk))
    have hcontinued := hgo n (Nat.lt_succ_self n)
    have hbegin : (Core.atCall test raised c (some session) n).1.traps.Holds
        ((session.trampoline, .everyOpcode) :: others) := by
      rw [htraps]
      exact hts
    obtain ⟨_, hgoes, hstops⟩ := execute_into hkind hbegin (hspares n (Nat.lt_succ_self n))
    rw [Core.call, hsession] at hcontinued
    rw [Core.atCall_succ, Core.call, hsession, Core.traps_raise]
    by_cases hwaits : RunsHalt (Core.atCall test raised c (some session) n).1.cpu ∧
        (Core.atCall test raised c (some session) n).1.cpu.step.cpu.Quiet
    · exact ⟨(hgoes hwaits).active, (hgoes hwaits).traps.trans htraps⟩
    · rw [(hstops hwaits).outcome] at hcontinued
      cases hcontinued

/-- Take any core, halted or not, with any traps, and begin to step into the next instruction.  In
any run, with interrupts raised at any time, a call before which all calls have gone on, and which
like them hits no trap but the trampoline, runs one instruction.  If that is a halt, or the core is
halted, and no interrupt is going to be served, the call goes on and the session stays.  Otherwise
the call stops by the trampoline, the session is over, and just the other traps are left.  Where the
call goes on, the processor is halted and no interrupt is going to be served, unless an index prefix
stands before the opcode of a halt. -/
theorem stepInto_waits_only_in_halt {c : Core} {s : Stepper} {session : Session} {ts : Traps}
    {others : List (Handle × Trap)} (hts : c.traps.Holds (s.armed ++ others))
    (hstart : s.stepInto c.traps = (some session, ts)) (raised : Nat → Bool) (n : Nat) :
    let start := Core.atCall test raised { c with traps := ts } (some session)
    let call := Core.call test raised { c with traps := ts } (some session)
    let before := (start n).1.cpu
    let after := (call n).2.1.cpu
    (∀ k < n, (call k).1 = .continued) → (∀ k ≤ n, (start k).1.Spares others) →
      after = Core.ran before ∧
      (RunsHalt before ∧ before.step.cpu.Quiet → GoesOn session ts (call n)) ∧
      (¬ (RunsHalt before ∧ before.step.cpu.Quiet) → StopsByOwn session others (call n)) ∧
      ((call n).1 = .continued →
        before.registers.halted = true ∨ ¬ before.code.PrefixedHalt →
        after.registers.halted = true ∧ after.Quiet) := by
  intro start call before after hgo hspares
  obtain ⟨hkind, hregistered⟩ := start_into hts hstart
  obtain ⟨hsession, htraps⟩ := atCall_into hkind hregistered n hgo
    fun k hk => hspares k (Nat.le_of_lt hk)
  have hcall : call n = (start n).1.execute test (some session) :=
    congrArg ((start n).1.execute test) hsession
  have htraps' : (start n).1.traps = ts := htraps
  have hbegin : (start n).1.traps.Holds ((session.trampoline, .everyOpcode) :: others) := by
    rw [htraps']
    exact hregistered
  obtain ⟨hran, hgoes, hstops⟩ := execute_into hkind hbegin (hspares n (Nat.le_refl n))
  rw [← hcall, htraps'] at hgoes
  rw [← hcall] at hran hstops
  refine ⟨hran, hgoes, hstops, ?_⟩
  intro hcontinued hplain
  have hwaits : RunsHalt before ∧ before.step.cpu.Quiet := by
    by_contra hnot
    rw [(hstops hnot).outcome] at hcontinued
    cases hcontinued
  -- No interrupt is served, so the processor is as the instruction left it.
  have hquiet : (Core.runInstruction before).1.Quiet := hwaits.2
  have hafter : after = (Core.runInstruction before).1 :=
    hran.trans (Cpu.serveInterrupt_of_quiet hquiet)
  rw [hafter]
  exact ⟨halted_step_of_runsHalt hwaits.1 hplain, hquiet⟩

/-- A halt at 9001 with interrupts on, and a breakpoint at A000. -/
def haltingCore : Core where
  cpu := { Cpu.standard.load 0x9001 [0x76] with
    registers := { pc := 0x9001, sp := 0xFFF0, iff1 := true } }
  traps := { entries := [(1, .reaching 0xA000)], nextHandle := 2 }

/-- The step waits in the halt for two calls.  In the third one an interrupt ends it. -/
theorem stepInto_waits_only_in_halt_interrupted :
    ∃ session ts, stepInto none haltingCore.traps = (some session, ts) ∧
      let call := Core.call test (· == 2) { haltingCore with traps := ts } (some session)
      GoesOn session ts (call 0) ∧ GoesOn session ts (call 1) ∧
        StopsByOwn session [(1, .reaching 0xA000)] (call 2) := by
  have hts : haltingCore.traps.Holds (armed none ++ [(1, .reaching 0xA000)]) := by
    refine { increasing := ?_, older := ?_, perm := List.Perm.refl _ } <;> decide
  have hstart : stepInto none haltingCore.traps = (some { kind := .into, trampoline := 2 },
      { entries := [(1, .reaching 0xA000), (2, .everyOpcode)], nextHandle := 3 }) := by
    decide +kernel
  refine ⟨_, _, hstart, ?_⟩
  have hresult := stepInto_waits_only_in_halt hts hstart (· == 2)
  have hfirst := (hresult 0 (by decide) (by decide +kernel)).2.1 (by decide +kernel)
  have hsecond := (hresult 1 (by decide +kernel) (by decide +kernel)).2.1 (by decide +kernel)
  have hthird := (hresult 2 (by decide +kernel) (by decide +kernel)).2.2.1 (by decide +kernel)
  exact ⟨hfirst, hsecond, hthird⟩

/-- A core that is about to run DD 76 at 9000. -/
def prefixedHaltCore : Core where
  cpu := { Cpu.standard.load 0x9000 [0xDD, 0x76] with registers := { pc := 0x9000, sp := 0xFFF0 } }

/-- The step goes on behind DD 76, though the processor is not halted and nothing else is
registered. -/
theorem stepInto_passes_prefixed_halt :
    ∃ session ts, stepInto none prefixedHaltCore.traps = (some session, ts) ∧
      let call := Core.call test (fun _ => false) { prefixedHaltCore with traps := ts } (some session)
      (call 0).1 = .continued ∧ (call 0).2.2 = some session ∧
        (call 0).2.1.cpu.registers.halted = false := by
  refine ⟨{ kind := .into, trampoline := 1 },
    { entries := [(1, .everyOpcode)], nextHandle := 2 }, ?_, ?_, ?_, ?_⟩
  all_goals decide +kernel

end Stepper

end Z80Debugger
