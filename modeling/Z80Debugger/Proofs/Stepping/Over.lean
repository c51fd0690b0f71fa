import Z80Debugger.Proofs.Core.Schedule
import Z80Debugger.Proofs.Instruction.Code
import Z80Debugger.Proofs.Stepping.Hits

/-!
# Stepping over an instruction

A step over an instruction has two phases.  In the first its trampoline is hit by every opcode; the
first call runs the instruction and moves the trampoline.  In the second the trampoline is hit by
nothing but the fetch at the place where the step ends, so the run goes on through whatever is
called on the way, until that fetch stops it.  `stepOver_stops_at_end` says so for every core in
which nothing else is registered, and for interrupts at any time.
-/

set_option autoImplicit false

namespace Z80Debugger

namespace Stepper

/-- The session waits for the instruction at `target`, and nothing but its trampoline is
registered. -/
structure ArmedAt (h : Handle) (after target : UInt16) (c : Core) (s : Stepper) : Prop where
  session : s = some { kind := .armed after target, trampoline := h }
  registered : c.traps.entries = [(h, .reaching target)]
  /-- The next fetch is not let through. -/
  resumeAt : c.resumeAt = none

/-- The core is about to run the instruction at an address. -/
def Arrived (target : UInt16) (c : Core) : Prop :=
  c.cpu.registers.halted = false ∧ c.cpu.registers.pc = target

instance (target : UInt16) (c : Core) : Decidable (Arrived target c) :=
  inferInstanceAs (Decidable (_ ∧ _))

/-- Where a step over the instruction at the program counter ends: where control is right after the
instruction if that transfers it, and behind the instruction otherwise. -/
def overEnd (c : Cpu) : UInt16 :=
  if (Flow.ofOpcode c.code.opcode).transfersControl then (Core.runInstruction c).1.registers.pc
  else c.registers.pc + UInt16.ofNat c.code.size

/-- The disassembler tells the address behind the instruction. -/
theorem addressAfter_disassembler (symbols : Symbols) (c : Cpu) :
    addressAfter symbols.disassembler c = c.registers.pc + UInt16.ofNat c.code.size := by
  simp only [addressAfter, Symbols.disassembler_pc, Code.toUInt16_next_line]
  rw [if_pos (c.code.behind_ne c.registers.pc)]

/-- The test of a session in its first phase moves the trampoline and goes on. -/
theorem test_over {ts : Traps} {h : Handle} (hregistered : ts.entries = [(h, .everyOpcode)])
    (hroom : (ts.erase h).hasRoom = true) (c : Cpu) (after : UInt16) (opcode : UInt32) :
    ∃ h' traps, test c h opcode (ts, some { kind := .over after, trampoline := h }) =
        (false, traps,
          some { kind := .armed after (overTarget c after opcode), trampoline := h' }) ∧
      traps.entries = [(h', .reaching (overTarget c after opcode))] := by
  have hrange : (Trap.reaching (overTarget c after opcode)).first ≤
      (Trap.reaching (overTarget c after opcode)).last := UInt32.le_refl _
  obtain ⟨h', traps, hadd, hentries⟩ := Traps.exists_add? hrange hroom
  refine ⟨h', traps, ?_, ?_⟩
  · simp only [test, evaluate, arm, hadd, if_true]
  · rw [hentries, Traps.entries_erase, hregistered]
    simp

variable {h : Handle} {after target : UInt16} {c : Core} {s : Stepper}

/-- Raising an interrupt leaves a session that is armed. -/
theorem ArmedAt.raise (harmed : ArmedAt h after target c s) (raised : Bool) :
    ArmedAt h after target (c.raise raised) s where
  session := harmed.session
  registered := by rw [Core.traps_raise, harmed.registered]
  resumeAt := by rw [Core.resumeAt_raise, harmed.resumeAt]

/-- The trampoline is hit by the fetch at the end of the step and by nothing else. -/
theorem ArmedAt.hits (harmed : ArmedAt h after target c s) (cpu : Cpu) (e : Event) :
    c.traps.hits cpu e = if e = .fetch target then [h] else [] := by
  rw [Traps.hits_of_singleton harmed.registered]
  simp only [Trap.isHitBy_reaching]

/-- A call that does not begin at the end of the step goes on, and leaves the session armed. -/
theorem ArmedAt.execute (harmed : ArmedAt h after target c s) (hnot : ¬ Arrived target c) :
    (c.execute test s).1 = .continued ∧
      ArmedAt h after target (c.execute test s).2.1 (c.execute test s).2.2 := by
  have hpassed (cpu : Cpu) (opcode : UInt32) (es : List Event) (hes : .fetch target ∉ es) :
      Traps.check test cpu opcode es (c.traps, s) = (none, c.traps, s) := by
    apply Traps.check_of_no_hits
    intro e he
    rw [harmed.hits, if_neg]
    rintro rfl
    exact hes he
  have hbefore : .fetch target ∉ c.eventsBefore := by
    rw [Core.eventsBefore]
    split
    · simp
    · next hfetch =>
      simp only [Bool.or_eq_true, not_or, Bool.not_eq_true] at hfetch
      intro hmem
      have hpc := List.mem_singleton.mp hmem
      cases hpc
      exact hnot ⟨hfetch.1, rfl⟩
  have hafter : .fetch target ∉ (Core.runInstruction c.cpu).2 := by
    simp [Core.runInstruction]
  have hresult := Core.execute_of_continued (hpassed _ c.cpu.code.opcode _ hbefore)
    (hpassed _ c.cpu.stepOpcode _ hafter)
  rw [hresult]
  exact ⟨rfl, ⟨harmed.session, harmed.registered, rfl⟩⟩

/-- A call that begins at the end of the step stops there: nothing runs, the session is over and
nothing is registered any more. -/
theorem ArmedAt.execute_of_arrived (harmed : ArmedAt h after target c s)
    (harrived : Arrived target c) :
    (c.execute test s).1 = .stopped h ∧ (c.execute test s).2.1.cpu = c.cpu ∧
      (c.execute test s).2.2 = none ∧ (c.execute test s).2.1.traps.entries = [] := by
  obtain ⟨hrunning, hpc⟩ := harrived
  have hevents : c.eventsBefore = [.fetch target] := by
    simp [Core.eventsBefore, Core.resumes, hrunning, harmed.resumeAt, hpc]
  have hfind : c.traps.find? h = some (.reaching target) := by
    simp [Traps.find?, harmed.registered]
  have htest : test c.cpu h c.cpu.code.opcode (c.traps, s) = (true, c.traps.erase h, none) := by
    simp only [test, harmed.session, evaluate, if_true]
  have hstop : Traps.check test c.cpu c.cpu.code.opcode c.eventsBefore (c.traps, s) =
      (some h, c.traps.erase h, none) := by
    rw [hevents, Traps.check, harmed.hits, if_pos rfl, Traps.firstStop, hfind]
    simp only [Trap.reaching, if_true, htest]
  rw [Core.execute_of_stopped hstop]
  refine ⟨rfl, rfl, rfl, ?_⟩
  rw [Traps.entries_erase, harmed.registered]
  simp

/-- What has run has the flow that its bytes have, so the test finds the end of the step. -/
theorem overTarget_of_running {cpu : Cpu} (hrunning : cpu.registers.halted = false)
    (hafter : cpu.registers.pc + UInt16.ofNat cpu.code.size = after) :
    overTarget (Core.runInstruction cpu).1 after cpu.stepOpcode = overEnd cpu := by
  have hflow : Flow.ofOpcode cpu.stepOpcode = Flow.ofOpcode cpu.code.opcode := by
    rw [Cpu.stepOpcode, hrunning]
    exact cpu.code.flow_executedOpcode
  rw [overTarget, overEnd, hflow, hafter]

/-- The first call runs the instruction, or repeats a halt, and arms the session where its test
finds the end of the step. -/
theorem execute_over (hregistered : c.traps.entries = [(h, .everyOpcode)])
    (hroom : (c.traps.erase h).hasRoom = true)
    (hsession : s = some { kind := .over after, trampoline := h }) :
    (c.execute test s).1 = .continued ∧
      (c.execute test s).2.1.cpu = (Core.runInstruction c.cpu).1.serveInterrupt ∧
      ∃ h', ArmedAt h' after (overTarget (Core.runInstruction c.cpu).1 after c.cpu.stepOpcode)
        (c.execute test s).2.1 (c.execute test s).2.2 := by
  obtain ⟨h', traps, htest, hentries⟩ :=
    test_over hregistered hroom (Core.runInstruction c.cpu).1 after c.cpu.stepOpcode
  rw [hsession, Core.execute_of_everyOpcode hregistered, htest]
  exact ⟨rfl, rfl, h', rfl, hentries, rfl⟩

/-- An armed session waits for a call that begins at the end of the step. -/
theorem waits_armedAt : Core.Waits test (ArmedAt h after target) (Arrived target) where
  raise := fun raised harmed => harmed.raise raised
  goes := fun harmed hnot => harmed.execute hnot
  stops := by
    intro c s harmed harrived hcontinued
    rw [(harmed.execute_of_arrived harrived).1] at hcontinued
    cases hcontinued

/-- Once the first call has armed the session, it stays armed until a call begins at the end of the
step. -/
theorem ArmedAt.atCall {raised : Nat → Bool}
    (hfirst : ArmedAt h after target (Core.call test raised c s 0).2.1
      (Core.call test raised c s 0).2.2)
    {n : Nat} (hn : 1 ≤ n)
    (hnot : ∀ k, 1 ≤ k → k < n → ¬ Arrived target (Core.atCall test raised c s k).1) :
    ArmedAt h after target (Core.atCall test raised c s n).1 (Core.atCall test raised c s n).2 :=
  waits_armedAt.atCall hn (hfirst.raise (raised 1)) hnot

/-- The first call of a step over an instruction, of a halted core too, arms the session. -/
theorem exists_armedAt_overTarget (symbols : Symbols) {session : Session} {ts : Traps}
    (halone : (s.cancel c.traps).entries = [])
    (hstart : s.stepOver symbols.disassembler c.cpu c.traps = (some session, ts))
    (raised : Nat → Bool) :
    let start := Core.atCall test raised { c with traps := ts } (some session)
    let call := Core.call test raised { c with traps := ts } (some session)
    let after := c.cpu.registers.pc + UInt16.ofNat c.cpu.code.size
    let first := (start 0).1.cpu
    ∃ h, (call 0).1 = .continued ∧
      (call 0).2.1.cpu = (Core.runInstruction first).1.serveInterrupt ∧
      ArmedAt h after (overTarget (Core.runInstruction first).1 after first.stepOpcode)
        (call 0).2.1 (call 0).2.2 := by
  intro start call after first
  rw [stepOver, addressAfter_disassembler] at hstart
  obtain ⟨hkind, hregistered, hroom⟩ := start_eq_some halone hstart
  -- The first call begins with the core itself, or with an interrupt raised in it.
  have hbegin : start 0 = (({ c with traps := ts } : Core).raise (raised 0), some session) := rfl
  have hregistered' : (start 0).1.traps.entries = [(session.trampoline, .everyOpcode)] := by
    rw [hbegin, Core.traps_raise]
    exact hregistered
  have hroom' : ((start 0).1.traps.erase session.trampoline).hasRoom = true := by
    rw [hbegin, Core.traps_raise]
    exact hroom
  have hsession : (start 0).2 = some { kind := .over after, trampoline := session.trampoline } := by
    rw [← hkind]
    rfl
  obtain ⟨hcontinued, hcpu, h, harmed⟩ := execute_over hregistered' hroom' hsession
  exact ⟨h, hcontinued, hcpu, harmed⟩

/-- The first call of a step over an instruction runs it and arms the session. -/
theorem exists_armedAt (symbols : Symbols) {session : Session} {ts : Traps}
    (hrunning : c.cpu.registers.halted = false) (halone : (s.cancel c.traps).entries = [])
    (hstart : s.stepOver symbols.disassembler c.cpu c.traps = (some session, ts))
    (raised : Nat → Bool) :
    let start := Core.atCall test raised { c with traps := ts } (some session)
    let call := Core.call test raised { c with traps := ts } (some session)
    ∃ h, (call 0).1 = .continued ∧
      (call 0).2.1.cpu = (Core.runInstruction (start 0).1.cpu).1.serveInterrupt ∧
      ArmedAt h (c.cpu.registers.pc + UInt16.ofNat c.cpu.code.size) (overEnd (start 0).1.cpu)
        (call 0).2.1 (call 0).2.2 := by
  intro start call
  have hbegin : (start 0).1 = ({ c with traps := ts } : Core).raise (raised 0) := rfl
  have hrunning' : (start 0).1.cpu.registers.halted = false := by
    rw [hbegin, Core.registers_raise]
    exact hrunning
  have hafter : (start 0).1.cpu.registers.pc + UInt16.ofNat (start 0).1.cpu.code.size =
      c.cpu.registers.pc + UInt16.ofNat c.cpu.code.size := by
    rw [hbegin, Core.registers_raise, Core.code_raise]
  rw [← overTarget_of_running hrunning' hafter]
  exact exists_armedAt_overTarget symbols halone hstart raised

/-- The first call of an armed session that does not go on is the one that begins at the end of the
step. -/
theorem ArmedAt.arrived_of_stopped {raised : Nat → Bool}
    (hfirst : ArmedAt h after target (Core.call test raised c s 0).2.1
      (Core.call test raised c s 0).2.2)
    {n : Nat} (hn : 1 ≤ n) (hgo : ∀ k < n, (Core.call test raised c s k).1 = .continued)
    (hstops : (Core.call test raised c s n).1 ≠ .continued) :
    Arrived target (Core.atCall test raised c s n).1 ∧
      (Core.call test raised c s n).2.1.cpu = (Core.atCall test raised c s n).1.cpu := by
  have hnot : ∀ k, 1 ≤ k → k < n → ¬ Arrived target (Core.atCall test raised c s k).1 :=
    waits_armedAt.not_ends (hfirst.raise (raised 1)) fun k _ hk => hgo k hk
  have harmed := hfirst.atCall hn hnot
  have harrived : Arrived target (Core.atCall test raised c s n).1 := by
    by_contra hother
    exact hstops (harmed.execute hother).1
  exact ⟨harrived, (harmed.execute_of_arrived harrived).2.1⟩

/-- Take any core that is not halted, where no trap but that of an earlier session is registered,
and begin to step over the instruction at the program counter.  Whatever interrupts are raised
between the calls, the first call runs the instruction and goes on.  After that every call goes on
and leaves the session armed at the end of the step, up to the first one that begins there and is
not halted; that one stops by the trampoline, runs nothing, ends the session and leaves no trap. -/
theorem stepOver_stops_at_end (symbols : Symbols) {c : Core} {s : Stepper} {session : Session}
    {ts : Traps} (hrunning : c.cpu.registers.halted = false)
    (halone : (s.cancel c.traps).entries = [])
    (hstart : s.stepOver symbols.disassembler c.cpu c.traps = (some session, ts))
    (raised : Nat → Bool) :
    let start := Core.atCall test raised { c with traps := ts } (some session)
    let call := Core.call test raised { c with traps := ts } (some session)
    let after := c.cpu.registers.pc + UInt16.ofNat c.cpu.code.size
    let target := overEnd (start 0).1.cpu
    ∃ h,
      ((call 0).1 = .continued ∧
        (call 0).2.1.cpu = (Core.runInstruction (start 0).1.cpu).1.serveInterrupt ∧
        ArmedAt h after target (call 0).2.1 (call 0).2.2) ∧
      ∀ n, 1 ≤ n → (∀ k, 1 ≤ k → k < n → ¬ Arrived target (start k).1) →
        (¬ Arrived target (start n).1 →
          (call n).1 = .continued ∧ ArmedAt h after target (call n).2.1 (call n).2.2) ∧
        (Arrived target (start n).1 →
          (call n).1 = .stopped h ∧ (call n).2.1.cpu = (start n).1.cpu ∧ (call n).2.2 = none ∧
            (call n).2.1.traps.entries = []) := by
  intro start call after target
  obtain ⟨h, hcontinued, hcpu, harmed⟩ := exists_armedAt symbols hrunning halone hstart raised
  refine ⟨h, ⟨hcontinued, hcpu, harmed⟩, ?_⟩
  intro n hn hnot
  have hwaiting : ArmedAt h after target (start n).1 (start n).2 :=
    ArmedAt.atCall harmed hn hnot
  exact ⟨hwaiting.execute, hwaiting.execute_of_arrived⟩

/-- A core about to call a routine that only returns. -/
def callingCore : Core where
  cpu := Cpu.load
    { registers := { sp := 0xFFF0 }
      memory := { layout := .standard }
      banks := #v[0, 0x4000, 0x84000, 0x80000] }
    0 [0xCD, 0x04, 0x00, 0x00, 0xC9]

/-- The routine is stepped over in two calls of `execute`; the third one stops behind it. -/
theorem stepOver_stops_at_end_calling :
    ∃ session ts,
      stepOver none (Symbols.disassembler {}) callingCore.cpu callingCore.traps =
        (some session, ts) ∧
      let call := Core.call test (fun _ => false) { callingCore with traps := ts } (some session)
      (call 0).1 = .continued ∧ (call 1).1 = .continued ∧ ∃ h, (call 2).1 = .stopped h := by
  have hrunning : callingCore.cpu.registers.halted = false := by
    decide +kernel
  have hstart : stepOver none (Symbols.disassembler {}) callingCore.cpu callingCore.traps =
      (some { kind := .over 3, trampoline := 1 },
        { entries := [(1, .everyOpcode)], nextHandle := 2 }) := by
    decide +kernel
  refine ⟨_, _, hstart, ?_⟩
  obtain ⟨h, hfirst, hlater⟩ := stepOver_stops_at_end {} hrunning rfl hstart fun _ => false
  have hinside := (hlater 1 (by omega) (by omega)).1 (by decide +kernel)
  have hbehind := hlater 2 (by omega) (by
    intro k hone htwo
    obtain rfl : k = 1 := by omega
    decide +kernel)
  exact ⟨hfirst.1, hinside.1, h, (hbehind.2 (by decide +kernel)).1⟩

end Stepper

end Z80Debugger
