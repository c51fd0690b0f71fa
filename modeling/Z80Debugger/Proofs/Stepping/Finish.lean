import Z80Debugger.Proofs.Core.Schedule
import Z80Debugger.Proofs.Cpu.Control
import Z80Debugger.Proofs.Stepping.Hits

/-!
# Running until a routine returns

A step out of a routine remembers where the stack pointer is and stops at the first instruction that
leaves a routine and has the stack pointer above that place.  "Above" compares two numbers, while
the stack pointer wraps around.  `finish_stops_at_return` says for every run when the step stops
right behind the return of the routine it began in, and not before.  It does so for every stack that
begins in the upper half of memory, but for the last two addresses.  From these a return takes the
stack pointer to a smaller number, and a stack that grows down through address zero has larger
numbers than it began with; `finish_misses_return` has a run of each kind.
`finish_stops_at_first_return_above` says for every run, whatever it does to the stack, at which
instruction the step stops.
-/

set_option autoImplicit false

namespace Z80Debugger

/-- Whether an instruction of the flow leaves a routine when it has run and left the flags `f`: it
has returned, or gone where a register said. -/
def Flow.leaves (f : UInt8) : Flow → Bool
  | ret | indirectJump | interruptRet => true
  | conditionalRet c => c.holds f
  | _ => false

namespace Stepper

/-- The instruction at the program counter leaves a routine. -/
def Leaves (c : Cpu) : Prop := (Flow.ofOpcode c.stepOpcode).leaves c.step.cpu.registers.f = true

instance (c : Cpu) : Decidable (Leaves c) := inferInstanceAs (Decidable (_ = true))

/-- The instruction at the program counter ends a step out of a routine. -/
def EndsFinish (threshold : UInt16) (c : Cpu) : Prop :=
  finishIsDone (Core.runInstruction c).1 threshold c.stepOpcode = true

/-- The session waits for a return, and nothing but its trampoline is registered. -/
structure Finishing (h : Handle) (threshold : UInt16) (c : Core) (s : Stepper) : Prop where
  session : s = some { kind := .finish threshold, trampoline := h }
  registered : c.traps.entries = [(h, .everyOpcode)]

/-- A return is about to be carried out with the stack pointer at `place`, and no interrupt is
going to be served then. -/
structure AtReturn (place : UInt16) (c : Cpu) : Prop where
  running : c.registers.halted = false
  opcode : c.code.first = 0xC9
  sp : c.registers.sp = place
  quiet : (c.interruptPending && c.registers.iff1) = false

/-- In the run from `c` and `s` the calls before call `n` go on; call `n` returns to the word at
`place` on the stack, and the session stops it there and ends. -/
structure StopsAtReturn (raised : Nat → Bool) (c : Core) (s : Stepper) (h : Handle) (place : UInt16)
    (n : Nat) : Prop where
  before : ∀ k < n, (Core.call test raised c s k).1 = .continued
  stopped : (Core.call test raised c s n).1 = .stopped h
  pc : (Core.call test raised c s n).2.1.cpu.registers.pc =
    (Core.atCall test raised c s n).1.cpu.readWord place
  sp : (Core.call test raised c s n).2.1.cpu.registers.sp = place + 2
  idle : (Core.call test raised c s n).2.2 = none
  nothingRegistered : (Core.call test raised c s n).2.1.traps.entries = []

variable {h : Handle} {threshold place : UInt16} {c : Core} {cpu : Cpu} {s : Stepper}

/-- A step out ends where an instruction that may return leaves the stack shorter than at the start.
-/
theorem endsFinish_iff :
    EndsFinish threshold cpu ↔ threshold < cpu.step.cpu.registers.sp ∧ Leaves cpu := by
  have hleaves : finishIsDone (Core.runInstruction cpu).1 threshold cpu.stepOpcode =
      (decide (threshold < cpu.step.cpu.registers.sp) &&
        (Flow.ofOpcode cpu.stepOpcode).leaves cpu.step.cpu.registers.f) := by
    simp only [finishIsDone]
    cases Flow.ofOpcode cpu.stepOpcode <;> rfl
  rw [EndsFinish, hleaves, Bool.and_eq_true, decide_eq_true_eq, Leaves]

/-- Raising an interrupt leaves a session that steps out. -/
theorem Finishing.raise (hfinishing : Finishing h threshold c s) (raised : Bool) :
    Finishing h threshold (c.raise raised) s where
  session := hfinishing.session
  registered := by rw [Core.traps_raise, hfinishing.registered]

/-- A call whose instruction does not end the step goes on, and the session waits further. -/
theorem Finishing.execute_of_not_ends (hfinishing : Finishing h threshold c s)
    (hnot : ¬ EndsFinish threshold c.cpu) :
    (c.execute test s).1 = .continued ∧
      Finishing h threshold (c.execute test s).2.1 (c.execute test s).2.2 := by
  have htest : test (Core.runInstruction c.cpu).1 h c.cpu.stepOpcode (c.traps, s) =
      (false, c.traps, s) := by
    rw [EndsFinish, Bool.not_eq_true] at hnot
    simp only [test, hfinishing.session, evaluate, hnot, if_true]
  rw [Core.execute_of_everyOpcode hfinishing.registered, htest]
  exact ⟨rfl, hfinishing.session, hfinishing.registered⟩

/-- A call whose instruction ends the step stops behind it; the session is over and nothing is
registered any more. -/
theorem Finishing.execute_of_ends (hfinishing : Finishing h threshold c s)
    (hends : EndsFinish threshold c.cpu) :
    (c.execute test s).1 = .stopped h ∧
      (c.execute test s).2.1.cpu = (Core.runInstruction c.cpu).1.serveInterrupt ∧
      (c.execute test s).2.2 = none ∧ (c.execute test s).2.1.traps.entries = [] := by
  have htest : test (Core.runInstruction c.cpu).1 h c.cpu.stepOpcode (c.traps, s) =
      (true, c.traps.erase h, none) := by
    rw [EndsFinish] at hends
    simp only [test, hfinishing.session, evaluate, hends, if_true]
  rw [Core.execute_of_everyOpcode hfinishing.registered, htest]
  refine ⟨rfl, rfl, rfl, ?_⟩
  show (c.traps.erase h).entries = []
  rw [Traps.entries_erase, hfinishing.registered]
  simp

/-- The session waits until an instruction ends the step. -/
theorem waits_finishing :
    Core.Waits test (Finishing h threshold) (fun c => EndsFinish threshold c.cpu) where
  raise := fun raised hfinishing => hfinishing.raise raised
  goes := fun hfinishing hnot => hfinishing.execute_of_not_ends hnot
  stops := by
    intro c s hfinishing hends hcontinued
    rw [(hfinishing.execute_of_ends hends).1] at hcontinued
    cases hcontinued

/-- Until the end has come the session goes on. -/
theorem Finishing.atCall {raised : Nat → Bool} (hfinishing : Finishing h threshold c s) {n : Nat}
    (hnot : ∀ k < n, ¬ EndsFinish threshold (Core.atCall test raised c s k).1.cpu) :
    Finishing h threshold (Core.atCall test raised c s n).1 (Core.atCall test raised c s n).2 :=
  waits_finishing.atCall (Nat.zero_le n) (hfinishing.raise (raised 0)) fun k _ hk => hnot k hk

namespace AtReturn

/-- The instruction returns. -/
theorem step (hreturn : AtReturn place cpu) : cpu.step = cpu.returned :=
  Cpu.step_of_ret hreturn.running hreturn.opcode

/-- The return ends the step unless the stack pointer wraps around. -/
theorem endsFinish_iff (hreturn : AtReturn place cpu) : EndsFinish place cpu ↔ place < 0xFFFE := by
  have hleaves : Leaves cpu := by
    rw [Leaves, Cpu.flow_of_ret hreturn.running hreturn.opcode]
    rfl
  have hsp : cpu.step.cpu.registers.sp = place + 2 := by
    rw [hreturn.step, ← hreturn.sp]
    rfl
  have hwrap : place < place + 2 ↔ place < 0xFFFE := by
    have hplace := place.toNat_lt
    rw [UInt16.lt_iff_toNat_lt, UInt16.lt_iff_toNat_lt, UInt16.toNat_add]
    show place.toNat < (place.toNat + 2) % 65536 ↔ place.toNat < 65534
    omega
  rw [Stepper.endsFinish_iff, hsp, hwrap]
  exact and_iff_left hleaves

/-- No interrupt is served, so the registers after the call are those of the return. -/
theorem serveInterrupt (hreturn : AtReturn place cpu) :
    (Core.runInstruction cpu).1.serveInterrupt.registers =
      { cpu.registers with pc := cpu.readWord place, sp := place + 2 } := by
  have hregisters : (Core.runInstruction cpu).1.registers =
      { cpu.registers with pc := cpu.readWord place, sp := place + 2 } := by
    show cpu.step.cpu.registers = _
    rw [hreturn.step, ← hreturn.sp]
    rfl
  have hquiet : (Core.runInstruction cpu).1.Quiet := by
    have hpending : (Core.runInstruction cpu).1.interruptPending = cpu.interruptPending :=
      cpu.sameFrame_step.interruptPending
    rw [Cpu.Quiet, hregisters, hpending]
    exact hreturn.quiet
  rw [Cpu.serveInterrupt_of_quiet hquiet]
  exact hregisters

end AtReturn

/-- The session stops at the return exactly if nothing before it ends the step and it does. -/
theorem Finishing.stopsAtReturn_iff {raised : Nat → Bool} (hfinishing : Finishing h threshold c s)
    {n : Nat} (hreturn : AtReturn threshold (Core.atCall test raised c s n).1.cpu) :
    StopsAtReturn raised c s h threshold n ↔
      threshold < 0xFFFE ∧
        ∀ k < n, ¬ EndsFinish threshold (Core.atCall test raised c s k).1.cpu := by
  constructor
  · intro hstops
    have hnot : ∀ k < n, ¬ EndsFinish threshold (Core.atCall test raised c s k).1.cpu := by
      intro k hk
      have hraised := hfinishing.raise (raised 0)
      exact waits_finishing.not_ends hraised (fun j _ hj => hstops.before j hj)
        k (Nat.zero_le k) hk
    refine ⟨?_, hnot⟩
    by_contra hwrap
    have hgoes : (Core.call test raised c s n).1 = .continued := by
      apply (waits_finishing.continued_iff (hfinishing.atCall hnot)).mpr
      rwa [hreturn.endsFinish_iff]
    rw [hstops.stopped] at hgoes
    cases hgoes
  · rintro ⟨hwrap, hnot⟩
    have hends := hreturn.endsFinish_iff.mpr hwrap
    obtain ⟨hstopped, hcpu, hidle, hnothing⟩ := (hfinishing.atCall hnot).execute_of_ends hends
    have hregisters := congrArg Cpu.registers hcpu
    rw [hreturn.serveInterrupt] at hregisters
    refine ⟨?_, hstopped, congrArg Registers.pc hregisters, congrArg Registers.sp hregisters, hidle,
      hnothing⟩
    intro k hk
    have hwaiting := hfinishing.atCall fun j hj => hnot j (Nat.lt_trans hj hk)
    exact (waits_finishing.continued_iff hwaiting).mpr (hnot k hk)

/-- A stack that begins at 7FFF or above has room to grow by less than 8000 without wrapping
around. -/
theorem sp_le_of_depth {sp : UInt16} (hupper : 0x7FFF ≤ place) (hdepth : place - sp < 0x8000) :
    sp ≤ place := by
  have hplace := place.toNat_lt
  have hsp := sp.toNat_lt
  rw [UInt16.le_iff_toNat_le] at hupper ⊢
  rw [UInt16.lt_iff_toNat_lt, UInt16.toNat_sub] at hdepth
  have hupper' : 32767 ≤ place.toNat := hupper
  have hdepth' : (65536 - sp.toNat + place.toNat) % 65536 < 32768 := hdepth
  omega

/-- Take any core where no trap but that of an earlier session is registered, and begin to step out
of its routine, while the stack pointer is at `place`.  Take any run, with interrupts raised at any
time, and a call in it that is about to return with the stack pointer at `place` again.  The step
lets all calls before that one go on and stops right behind the return exactly if `place` is none of
the last two addresses and no instruction before leaves a routine with the stack pointer at a larger
number.  So it does for every `place` from 7FFF to FFFD, if every instruction before leaves the
stack pointer at `place` or less than 8000 below it. -/
theorem finish_stops_at_return {c : Core} {s : Stepper} {session : Session} {ts : Traps}
    (halone : (s.cancel c.traps).entries = [])
    (hstart : s.finish c.cpu c.traps = (some session, ts)) (raised : Nat → Bool) (n : Nat) :
    let place := c.cpu.registers.sp
    let start := Core.atCall test raised { c with traps := ts } (some session)
    AtReturn place (start n).1.cpu →
      (StopsAtReturn raised { c with traps := ts } (some session) session.trampoline place n ↔
        place < 0xFFFE ∧
          ∀ k < n, Leaves (start k).1.cpu → (start k).1.cpu.step.cpu.registers.sp ≤ place) ∧
      (0x7FFF ≤ place → place < 0xFFFE →
        (∀ k < n, place - (start k).1.cpu.step.cpu.registers.sp < 0x8000) →
        StopsAtReturn raised { c with traps := ts } (some session) session.trampoline place n) := by
  intro place start hreturn
  obtain ⟨hkind, hregistered, _⟩ := start_eq_some halone hstart
  have hfinishing : Finishing session.trampoline place { c with traps := ts } (some session) :=
    ⟨by rw [← hkind], hregistered⟩
  have hexact : StopsAtReturn raised { c with traps := ts } (some session) session.trampoline place
      n ↔ place < 0xFFFE ∧
        ∀ k < n, Leaves (start k).1.cpu → (start k).1.cpu.step.cpu.registers.sp ≤ place := by
    rw [hfinishing.stopsAtReturn_iff hreturn]
    apply and_congr_right
    intro _
    apply forall₂_congr
    intro k _
    rw [endsFinish_iff, not_and', UInt16.not_lt]
  refine ⟨hexact, ?_⟩
  intro hupper hwrap hdepth
  apply hexact.mpr
  refine ⟨hwrap, ?_⟩
  intro k hk _
  exact sp_le_of_depth hupper (hdepth k hk)

/-- The session of a step out of a routine that began with the stack pointer at `place`. -/
def finishing (place : UInt16) : Session := { kind := .finish place, trampoline := 1 }

/-- A routine calls another one and returns, with its stack in the upper half of memory: the step
stops in the third call, behind the second return. -/
theorem finish_stops_at_return_nested :
    let c := routineCore 0xFFF0 [0xCD, 0x04, 0x90, 0xC9, 0xC9]
    finish none c.cpu c.traps = (some (finishing 0xFFF0), onlyTrampoline) ∧
      StopsAtReturn (fun _ => false) { c with traps := onlyTrampoline } (some (finishing 0xFFF0)) 1
        0xFFF0 2 := by
  intro c
  have hstart : finish none c.cpu c.traps = (some (finishing 0xFFF0), onlyTrampoline) := by
    decide +kernel
  have hresult := finish_stops_at_return rfl hstart (fun _ => false) 2
    ⟨by decide +kernel, by decide +kernel, by decide +kernel, by decide +kernel⟩
  refine ⟨hstart, hresult.2 (by decide +kernel) (by decide +kernel) ?_⟩
  intro k hk
  match k, hk with
  | 0, _ => decide +kernel
  | 1, _ => decide +kernel

/-- With the stack pointer at FFFE a routine returns to the word there, and the step goes on.  With
the stack pointer at 0 a routine keeps a word and calls another one; the step stops when that one
returns with the stack pointer at FFFE, two calls before the return to the word at 0. -/
theorem finish_misses_return :
    let top := routineCore 0xFFFE [0xC9]
    let bottom := routineCore 0 [0xE5, 0xCD, 0x06, 0x90, 0xE1, 0xC9, 0xC9]
    let start := fun (c : Core) (place : UInt16) (n : Nat) =>
      Core.atCall test (fun _ => false) { c with traps := onlyTrampoline }
        (some (finishing place)) n
    let call := fun (c : Core) (place : UInt16) (n : Nat) =>
      Core.call test (fun _ => false) { c with traps := onlyTrampoline }
        (some (finishing place)) n
    (finish none top.cpu top.traps = (some (finishing 0xFFFE), onlyTrampoline) ∧
      AtReturn 0xFFFE (start top 0xFFFE 0).1.cpu ∧
      (call top 0xFFFE 0).1 = .continued ∧ (call top 0xFFFE 0).2.1.cpu.registers.sp = 0) ∧
    (finish none bottom.cpu bottom.traps = (some (finishing 0), onlyTrampoline) ∧
      AtReturn 0 (start bottom 0 4).1.cpu ∧
      (∀ k < 4, 0 - (start bottom 0 k).1.cpu.step.cpu.registers.sp < 0x8000) ∧
      (call bottom 0 2).1 = .stopped 1) := by
  intro top bottom start call
  have htop : AtReturn 0xFFFE (start top 0xFFFE 0).1.cpu :=
    ⟨by decide +kernel, by decide +kernel, by decide +kernel, by decide +kernel⟩
  have hbottom : AtReturn 0 (start bottom 0 4).1.cpu :=
    ⟨by decide +kernel, by decide +kernel, by decide +kernel, by decide +kernel⟩
  refine ⟨⟨?_, htop, ?_, ?_⟩, ?_, hbottom, ?_, ?_⟩
  all_goals decide +kernel

/-- The instruction at the program counter leaves a routine, and leaves the stack pointer above the
place. -/
def LeavesAbove (place : UInt16) (c : Cpu) : Prop := place < c.step.cpu.registers.sp ∧ Leaves c

instance (place : UInt16) (c : Cpu) : Decidable (LeavesAbove place c) :=
  inferInstanceAs (Decidable (_ ∧ _))

/-- Take any core where no trap but that of an earlier session is registered, and begin to step out
of its routine, while the stack pointer is at `place`.  In any run, with interrupts raised at any
time, every call goes on and leaves the session and its trampoline as they are, up to the first
instruction that leaves a routine and has the stack pointer above `place` then.  The call that runs
that one stops behind it by the trampoline, ends the session and leaves no trap.  So no return of an
inner routine or of an interrupt handler stops the step if it leaves the stack pointer at `place` or
below. -/
theorem finish_stops_at_first_return_above {c : Core} {s : Stepper} {session : Session} {ts : Traps}
    (halone : (s.cancel c.traps).entries = [])
    (hstart : s.finish c.cpu c.traps = (some session, ts)) (raised : Nat → Bool) (n : Nat) :
    let place := c.cpu.registers.sp
    let start := Core.atCall test raised { c with traps := ts } (some session)
    let call := Core.call test raised { c with traps := ts } (some session)
    (∀ k < n, ¬ LeavesAbove place (start k).1.cpu) →
      (¬ LeavesAbove place (start n).1.cpu →
        (call n).1 = .continued ∧
          Finishing session.trampoline place (call n).2.1 (call n).2.2) ∧
      (LeavesAbove place (start n).1.cpu →
        (call n).1 = .stopped session.trampoline ∧
          (call n).2.1.cpu = (Core.runInstruction (start n).1.cpu).1.serveInterrupt ∧
          (call n).2.2 = none ∧ (call n).2.1.traps.entries = []) ∧
      ((start n).1.cpu.step.cpu.registers.sp ≤ place → (call n).1 = .continued) := by
  intro place start call hnot
  obtain ⟨hkind, hregistered, _⟩ := start_eq_some halone hstart
  have hfinishing : Finishing session.trampoline place { c with traps := ts } (some session) :=
    ⟨by rw [← hkind], hregistered⟩
  have hends : ∀ k, EndsFinish place (start k).1.cpu ↔ LeavesAbove place (start k).1.cpu :=
    fun _ => endsFinish_iff
  have hwaiting : Finishing session.trampoline place (start n).1 (start n).2 :=
    hfinishing.atCall fun k hk => (hends k).not.mpr (hnot k hk)
  refine ⟨?_, ?_, ?_⟩
  · intro hpasses
    exact hwaiting.execute_of_not_ends ((hends n).not.mpr hpasses)
  · intro hleaves
    exact hwaiting.execute_of_ends ((hends n).mpr hleaves)
  · intro hbelow
    apply (waits_finishing.continued_iff hwaiting).mpr
    rw [hends]
    intro hleaves
    exact UInt16.not_lt.mpr hbelow hleaves.1

/-- A routine with interrupts on that calls another one and returns.  The interrupt handler only
returns. -/
def interruptedCore : Core where
  cpu := { (Cpu.standard.load 0x9000 [0xCD, 0x04, 0x90, 0xC9, 0xC9]).load 0x38 [0xC9] with
    registers := { pc := 0x9000, sp := 0xFFF0, iff1 := true } }

/-- An interrupt comes at the return of the inner routine.  Neither that return nor the one of the
handler stops the step, and the fourth call stops it behind the return of the routine. -/
theorem finish_stops_at_first_return_above_interrupted :
    finish none interruptedCore.cpu interruptedCore.traps =
        (some (finishing 0xFFF0), onlyTrampoline) ∧
      let start := Core.atCall test (· == 1) { interruptedCore with traps := onlyTrampoline }
        (some (finishing 0xFFF0))
      let call := Core.call test (· == 1) { interruptedCore with traps := onlyTrampoline }
        (some (finishing 0xFFF0))
      (∀ k < 3, ¬ LeavesAbove 0xFFF0 (start k).1.cpu) ∧ (call 1).2.1.cpu.registers.pc = 0x38 ∧
        Leaves (start 1).1.cpu ∧ Leaves (start 2).1.cpu ∧
        (call 2).1 = .continued ∧ (call 3).1 = .stopped 1 ∧ (call 3).2.2 = none := by
  have hstart : finish none interruptedCore.cpu interruptedCore.traps =
      (some (finishing 0xFFF0), onlyTrampoline) := by
    decide +kernel
  refine ⟨hstart, ?_⟩
  intro start call
  have hresult := finish_stops_at_first_return_above rfl hstart (· == 1)
  have hbelow : ∀ k < 3, ¬ LeavesAbove 0xFFF0 (start k).1.cpu := by
    intro k hk
    match k, hk with
    | 0, _ => decide +kernel
    | 1, _ => decide +kernel
    | 2, _ => decide +kernel
  have hhandler := (hresult 2 fun k hk => hbelow k (by omega)).1 (hbelow 2 (by omega))
  have hreturn := (hresult 3 hbelow).2.1 (by decide +kernel)
  refine ⟨hbelow, ?_, ?_, ?_, hhandler.1, hreturn.1, hreturn.2.2.1⟩
  all_goals decide +kernel

end Stepper

end Z80Debugger
