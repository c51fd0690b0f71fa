import Z80Debugger.Proofs.Core.Transparency
import Z80Debugger.Proofs.Cpu.Control
import Z80Debugger.Proofs.Stepping.Over

/-!
# Which activation a step over a call ends in

A step over a call stops where control comes to the return address of the call, and does not look at
the stack.  `stepOver_stops_after_return` says what this means for the stack.  Let the stack be in
RAM and its pointer never rise above its place before the call, and let control come to the return
address, while the stack pointer is below that place, only by returns that take what a call or an
interrupt of the run has saved and nothing has changed since.  Then the stack pointer is where it
was before a call with that return address: an activation that was entered by such a call has
returned.  It is the activation that was stepped over if the run makes no other call with the same
return address.

A routine that calls itself by the call that is stepped over has more such activations, and the
innermost one returns first.  `stepOver_stops_deeper` has this run, and three more in which control
comes to the return address in another way, so that the step stops before the routine returns.
-/

set_option autoImplicit false

namespace Z80Debugger

namespace Instruction

/-- Whether the instruction calls a routine under the flags `f`. -/
def calls (f : UInt8) : Instruction → Bool
  | call none _ | restart _ => true
  | call (some cc) _ => cc.holds f
  | _ => false

/-- Whether the instruction returns from a routine under the flags `f`. -/
def returns (f : UInt8) : Instruction → Bool
  | ret none | retInterrupt | retNonMaskable => true
  | ret (some cc) => cc.holds f
  | _ => false

end Instruction

namespace Cpu

/-- The instruction at the program counter has no index prefix and calls a routine. -/
def calls (c : Cpu) : Bool :=
  !c.registers.halted && c.code.decode.index.isNone &&
    c.code.decode.instruction.calls c.registers.f

/-- The instruction at the program counter has no index prefix and returns from a routine. -/
def returns (c : Cpu) : Bool :=
  !c.registers.halted && c.code.decode.index.isNone &&
    c.code.decode.instruction.returns c.registers.f

/-- A word that is put at the place is read back: its two bytes lie in different cells of RAM. -/
def HoldsWord (c : Cpu) (place : UInt16) : Prop :=
  c.Writable place ∧ c.Writable (place + 1) ∧ c.physical place ≠ c.physical (place + 1)

instance (c : Cpu) (place : UInt16) : Decidable (c.HoldsWord place) :=
  inferInstanceAs (Decidable (_ ∧ _))

/-- A word that is put at any of the places is read back. -/
def HoldsWords (c : Cpu) (entries : List (UInt16 × UInt16)) : Prop :=
  ∀ entry ∈ entries, c.HoldsWord entry.1

instance (c : Cpu) (entries : List (UInt16 × UInt16)) : Decidable (c.HoldsWords entries) :=
  decidable_of_iff (entries.all fun entry => decide (c.HoldsWord entry.1)) (by simp [HoldsWords])

/-- The places on the stack where a return address is put, each before the word that stands there
then: by the instruction at the program counter if it calls a routine, and by an interrupt that is
served behind it. -/
def saved (c : Cpu) : List (UInt16 × UInt16) :=
  let called := c.registers.sp - 2
  let interrupted := c.step.cpu.registers.sp - 2
  (if c.calls then [(called, c.step.cpu.readWord called)] else []) ++
    if c.step.cpu.Quiet then []
    else [(interrupted, c.step.cpu.serveInterrupt.readWord interrupted)]

variable {c : Cpu}

/-- A word is saved by a call or by an interrupt. -/
theorem mem_saved {place word : UInt16} (hsaved : (place, word) ∈ c.saved) :
    (c.calls = true ∧ place = c.registers.sp - 2 ∧ word = c.step.cpu.readWord place) ∨
      (¬ c.step.cpu.Quiet ∧ place = c.step.cpu.registers.sp - 2 ∧
        word = c.step.cpu.serveInterrupt.readWord place) := by
  rw [saved, List.mem_append] at hsaved
  rcases hsaved with hcalled | hinterrupted
  · by_cases hcalls : c.calls = true
    · rw [if_pos hcalls, List.mem_singleton, Prod.mk.injEq] at hcalled
      obtain ⟨rfl, rfl⟩ := hcalled
      exact Or.inl ⟨hcalls, rfl, rfl⟩
    · rw [if_neg hcalls] at hcalled
      cases hcalled
  · by_cases hquiet : c.step.cpu.Quiet
    · rw [if_pos hquiet] at hinterrupted
      cases hinterrupted
    · rw [if_neg hquiet, List.mem_singleton, Prod.mk.injEq] at hinterrupted
      obtain ⟨rfl, rfl⟩ := hinterrupted
      exact Or.inr ⟨hquiet, rfl, rfl⟩

/-- A call puts the address behind it onto the stack, and control comes back there. -/
theorem step_of_calls (hcalls : c.calls = true) :
    c.registers.halted = false ∧ (Flow.ofOpcode c.stepOpcode).transfersControl = false ∧
      ∃ target, c.step = c.called target := by
  simp only [calls, Bool.and_eq_true, Bool.not_eq_true', Option.isNone_iff_eq_none] at hcalls
  obtain ⟨⟨hrunning, hindex⟩, hcalls⟩ := hcalls
  have hflow := flow_stepOpcode hrunning
  refine ⟨hrunning, ?_⟩
  rw [step_of_index_eq_none hrunning hindex, ← hflow]
  unfold Instruction.calls at hcalls
  split at hcalls
  · next w hi =>
    rw [hi]
    exact ⟨rfl, w, run_callTo_passed c w⟩
  · next v hi =>
    rw [hi]
    exact ⟨rfl, v.toUInt16, run_callTo_passed c v.toUInt16⟩
  · next cc w hi =>
    rw [hi]
    exact ⟨rfl, w, by rw [run_conditionalCall, if_pos hcalls]⟩
  · cases hcalls

/-- A return goes to the word at the top of the stack, which it takes off. -/
theorem step_of_returns (hreturns : c.returns = true) :
    c.step.cpu.registers.pc = c.readWord c.registers.sp ∧
      c.step.cpu.registers.sp = c.registers.sp + 2 := by
  simp only [returns, Bool.and_eq_true, Bool.not_eq_true', Option.isNone_iff_eq_none] at hreturns
  obtain ⟨⟨hrunning, hindex⟩, hreturns⟩ := hreturns
  rw [step_of_index_eq_none hrunning hindex]
  unfold Instruction.returns at hreturns
  split at hreturns
  · next hi =>
    rw [hi]
    exact ⟨rfl, rfl⟩
  · next hi =>
    rw [hi]
    exact ⟨rfl, rfl⟩
  · next hi =>
    rw [hi]
    exact ⟨rfl, rfl⟩
  · next cc hi =>
    rw [hi, run_conditionalRet, if_pos hreturns]
    exact ⟨rfl, rfl⟩
  · cases hreturns

/-- Behind a call the return address stands on the stack. -/
theorem readWord_step_of_calls (hcalls : c.calls = true)
    (hstack : c.HoldsWord (c.registers.sp - 2)) :
    c.step.cpu.readWord (c.registers.sp - 2) = c.behind := by
  obtain ⟨-, -, target, hstep⟩ := step_of_calls hcalls
  obtain ⟨hlow, hhigh, hcells⟩ := hstack
  rw [hstep]
  exact readWord_pushed hlow hhigh hcells

/-- Behind the service of an interrupt, what it came from stands on the stack. -/
theorem readWord_serveInterrupt (hserved : ¬ c.Quiet) (hstack : c.HoldsWord (c.registers.sp - 2)) :
    c.serveInterrupt.readWord (c.registers.sp - 2) = c.registers.pc := by
  obtain ⟨hlow, hhigh, hcells⟩ := hstack
  rw [Quiet, Bool.not_eq_false] at hserved
  let ready : Cpu := { c with
    interruptPending := false
    registers := { c.registers with halted := false, iff1 := false, iff2 := false } }
  have hserve : c.serveInterrupt = ((Work.callTo interruptVector).run { cpu := ready }).2.cpu := by
    rw [serveInterrupt, if_pos hserved]
  have hpushed : (ready.pushed ready.registers.pc).readWord (ready.registers.sp - 2) =
      ready.registers.pc := readWord_pushed hlow hhigh hcells
  rw [hserve, Work.run_callTo]
  exact hpushed

/-- The place holds a word behind the instruction too. -/
theorem holdsWord_step {place : UInt16} (hstack : c.HoldsWord place) :
    c.step.cpu.HoldsWord place := by
  have hframe := c.sameFrame_step
  have hphysical : ∀ address, c.step.cpu.physical address = c.physical address := by
    intro address
    rw [physical, physical, hframe.banks]
  rw [HoldsWord, Writable, Writable, hframe.layout, hphysical, hphysical]
  exact hstack

/-- Where a return address is put into RAM, it is the address behind a call or the one that an
interrupt came from. -/
theorem saved_of_holdsWord {place word : UInt16} (hsaved : (place, word) ∈ c.saved)
    (hstack : c.HoldsWord place) :
    (c.calls = true ∧ place = c.registers.sp - 2 ∧ word = c.behind) ∨
      (¬ c.step.cpu.Quiet ∧ place = c.step.cpu.registers.sp - 2 ∧
        word = c.step.cpu.registers.pc) := by
  rcases mem_saved hsaved with ⟨hcalls, rfl, rfl⟩ | ⟨hserved, rfl, rfl⟩
  · exact Or.inl ⟨hcalls, rfl, readWord_step_of_calls hcalls hstack⟩
  · exact Or.inr ⟨hserved, rfl, readWord_serveInterrupt hserved (holdsWord_step hstack)⟩

end Cpu

namespace Stepper

/-- In a run of processors, instruction `k` is a return, and what it takes from the stack is a
return address: an earlier call or interrupt has put one there, and the word is the same as then. -/
def TakesSaved (cpuAt : Nat → Cpu) (k : Nat) : Prop :=
  (cpuAt k).returns = true ∧ ∃ j < k,
    ((cpuAt k).registers.sp, (cpuAt k).readWord (cpuAt k).registers.sp) ∈ (cpuAt j).saved

instance (cpuAt : Nat → Cpu) (k : Nat) : Decidable (TakesSaved cpuAt k) :=
  inferInstanceAs (Decidable (_ ∧ _))

/-- A run of processors in which the stack is used as calls, returns and interrupts use it, as far
as the way to `target` is concerned.  The stack pointer stays at `place` or below behind each of the
first `n` instructions, and return addresses are put into RAM.  Where control comes to `target`
while the stack pointer is below `place`, it comes by a return that takes a return address of the
run, and not by an interrupt. -/
structure ReachedByReturns (cpuAt : Nat → Cpu) (place target : UInt16) (n : Nat) : Prop where
  sp_le : ∀ k < n, (cpuAt k).step.cpu.registers.sp ≤ place
  stack : ∀ k < n, (cpuAt k).HoldsWords (cpuAt k).saved
  returns : ∀ k < n, (cpuAt k).step.cpu.registers.pc = target →
    (cpuAt k).step.cpu.registers.sp < place → TakesSaved cpuAt k
  interrupts : ∀ k < n, ¬ (cpuAt k).step.cpu.Quiet → target ≠ Cpu.interruptVector

/-- Behind an instruction that comes to `target`, the stack pointer is where it was before a call
with that return address. -/
theorem ReachedByReturns.exists_call {cpuAt : Nat → Cpu} {place target : UInt16} {n : Nat}
    (hreached : ReachedByReturns cpuAt place target n) (hcalls : (cpuAt 0).calls = true)
    (hplace : (cpuAt 0).registers.sp = place) (hbehind : (cpuAt 0).behind = target) {k : Nat}
    (hk : k < n) (hpc : (cpuAt k).step.cpu.registers.pc = target) :
    ∃ j ≤ k, (cpuAt j).calls = true ∧ (cpuAt j).behind = target ∧
      (cpuAt k).step.cpu.registers.sp = (cpuAt j).registers.sp := by
  induction k using Nat.strongRecOn with
  | ind k ih =>
    by_cases hbelow : (cpuAt k).step.cpu.registers.sp < place
    · obtain ⟨hreturns, j, hj, hsaved⟩ := hreached.returns k hk hpc hbelow
      obtain ⟨htaken, hsp⟩ := Cpu.step_of_returns hreturns
      have hjn : j < n := Nat.lt_trans hj hk
      have hstack : (cpuAt j).HoldsWord (cpuAt k).registers.sp :=
        hreached.stack j hjn (_, (cpuAt k).readWord (cpuAt k).registers.sp) hsaved
      rcases Cpu.saved_of_holdsWord hsaved hstack with ⟨hcall, hput, hword⟩ | ⟨_, hput, hword⟩
      · refine ⟨j, Nat.le_of_lt hj, hcall, hword.symm.trans (htaken.symm.trans hpc), ?_⟩
        rw [hsp, hput, UInt16.sub_add_cancel]
      -- The interrupt came when control had just come to `target`, with the stack pointer where it
      -- is now again.
      · have hcame : (cpuAt j).step.cpu.registers.pc = target :=
          hword.symm.trans (htaken.symm.trans hpc)
        obtain ⟨i, hi, hcall, hsame, hback⟩ := ih j hj hjn hcame
        refine ⟨i, Nat.le_trans hi (Nat.le_of_lt hj), hcall, hsame, ?_⟩
        rw [hsp, hput, UInt16.sub_add_cancel, hback]
    · refine ⟨0, Nat.zero_le k, hcalls, hbehind, ?_⟩
      rw [hplace]
      exact UInt16.le_antisymm (hreached.sp_le k hk) (UInt16.not_lt.mp hbelow)

/-- A step over a call ends behind it. -/
theorem overEnd_of_calls {cpu : Cpu} (hcalls : cpu.calls = true) : overEnd cpu = cpu.behind := by
  obtain ⟨hrunning, htransfers, _⟩ := Cpu.step_of_calls hcalls
  rw [Cpu.stepOpcode_of_running hrunning, Code.flow_executedOpcode] at htransfers
  rw [overEnd, htransfers]
  rfl

/-- Where control is after a call of `execute` that goes on, unless an interrupt sends it to the
vector. -/
theorem registers_of_continued {c : Core} {s : Stepper}
    (hcontinued : (c.execute test s).1 = .continued) :
    (c.execute test s).2.1.cpu.registers.pc = Cpu.interruptVector ∧ ¬ c.cpu.step.cpu.Quiet ∨
      (c.execute test s).2.1.cpu.registers = c.cpu.step.cpu.registers := by
  have hran : (c.execute test s).2.1.cpu = (Core.runInstruction c.cpu).1.serveInterrupt := by
    rcases Core.stopped_or_ran test c s with ⟨h, hstopped, _⟩ | hran
    · rw [hcontinued] at hstopped
      cases hstopped
    · exact hran
  rw [hran]
  by_cases hquiet : (Core.runInstruction c.cpu).1.Quiet
  · rw [Cpu.serveInterrupt_of_quiet hquiet]
    exact Or.inr rfl
  · exact Or.inl ⟨Cpu.pc_serveInterrupt_of_not_quiet hquiet, hquiet⟩

/-- The call that stops an armed session ends at the end of the step, with the registers that the
instruction before has left, unless an interrupt has sent control there. -/
theorem ArmedAt.registers_of_stopped {h : Handle} {after target : UInt16} {c : Core} {s : Stepper}
    {raised : Nat → Bool}
    (hfirst : ArmedAt h after target (Core.call test raised c s 0).2.1
      (Core.call test raised c s 0).2.2)
    {m : Nat} (hgo : ∀ k < m + 1, (Core.call test raised c s k).1 = .continued)
    (hstops : (Core.call test raised c s (m + 1)).1 ≠ .continued)
    (hinterrupt : ¬ (Core.atCall test raised c s m).1.cpu.step.cpu.Quiet →
      target ≠ Cpu.interruptVector) :
    (Core.call test raised c s (m + 1)).2.1.cpu.registers.pc = target ∧
      (Core.call test raised c s (m + 1)).2.1.cpu.registers =
        (Core.atCall test raised c s m).1.cpu.step.cpu.registers := by
  obtain ⟨harrived, hcpu⟩ := hfirst.arrived_of_stopped (Nat.succ_pos m) hgo hstops
  have hpc : (Core.call test raised c s (m + 1)).2.1.cpu.registers.pc = target := by
    rw [hcpu]
    exact harrived.2
  have hsame : (Core.call test raised c s (m + 1)).2.1.cpu.registers =
      (Core.call test raised c s m).2.1.cpu.registers := by
    rw [hcpu, Core.atCall_succ, Core.registers_raise]
  refine ⟨hpc, ?_⟩
  rcases registers_of_continued (hgo m (Nat.lt_succ_self m)) with ⟨hvector, hserved⟩ | hran
  · rw [hsame] at hpc
    exact absurd (hpc.symm.trans hvector) (hinterrupt hserved)
  · exact hsame.trans hran

/-- Take any core where no trap but that of an earlier session is registered, and begin to step over
a call.  Take any run, with interrupts raised at any time, in which the trampoline stops call `n`.
Let the stack be in RAM and its pointer never rise above its place before the call, and let control
come to the return address, while the stack pointer is below that place, only by returns that take
what a call or an interrupt of the run has saved.  Then the step stops at the return address, and
the stack pointer is where it was before some call of the run with that return address.  If there is
no such call but the one that is stepped over, the stack pointer is back where it was before it. -/
theorem stepOver_stops_after_return (symbols : Symbols) {c : Core} {s : Stepper} {session : Session}
    {ts : Traps} (hcalls : c.cpu.calls = true) (halone : (s.cancel c.traps).entries = [])
    (hstart : s.stepOver symbols.disassembler c.cpu c.traps = (some session, ts))
    (raised : Nat → Bool) (n : Nat) (h : Handle) :
    let start := Core.atCall test raised { c with traps := ts } (some session)
    let call := Core.call test raised { c with traps := ts } (some session)
    let place := c.cpu.registers.sp
    let target := c.cpu.behind
    let registers := (call n).2.1.cpu.registers
    (∀ k < n, (call k).1 = .continued) → (call n).1 = .stopped h →
      ReachedByReturns (fun k => (start k).1.cpu) place target n →
      registers.pc = target ∧
      (∃ j < n, (start j).1.cpu.calls = true ∧ (start j).1.cpu.behind = target ∧
        registers.sp = (start j).1.cpu.registers.sp) ∧
      ((∀ j, 1 ≤ j → j < n → (start j).1.cpu.calls = true → (start j).1.cpu.behind ≠ target) →
        registers.sp = place) := by
  intro start call place target registers hgo hstops hreached
  -- An interrupt that is raised before the first call changes nothing about the call.
  have hbegin : (start 0).1.cpu.calls = true ∧ (start 0).1.cpu.registers = c.cpu.registers ∧
      (start 0).1.cpu.behind = target := by
    have hraised : (start 0).1 = ({ c with traps := ts } : Core).raise (raised 0) := rfl
    rw [Cpu.calls, Cpu.behind, hraised, Core.registers_raise, Core.code_raise]
    exact ⟨hcalls, rfl, rfl⟩
  obtain ⟨hcalls0, hregisters0, hbehind0⟩ := hbegin
  have hplace0 : (start 0).1.cpu.registers.sp = place := congrArg Registers.sp hregisters0
  obtain ⟨trampoline, hfirst, _, harmed⟩ :=
    exists_armedAt symbols (Cpu.step_of_calls hcalls).1 halone hstart raised
  have hend : overEnd (start 0).1.cpu = target := (overEnd_of_calls hcalls0).trans hbehind0
  rw [hend] at harmed
  have hnot : (call n).1 ≠ .continued := by
    rw [hstops]
    intro hcontinued
    cases hcontinued
  obtain ⟨m, rfl⟩ : ∃ m, n = m + 1 := by
    apply Nat.exists_eq_succ_of_ne_zero
    rintro rfl
    exact hnot hfirst
  obtain ⟨hpc, hlast⟩ :=
    harmed.registers_of_stopped hgo hnot (hreached.interrupts m (Nat.lt_succ_self m))
  obtain ⟨j, hj, hcall, hsame, hsp⟩ := hreached.exists_call hcalls0 hplace0 hbehind0
    (Nat.lt_succ_self m) ((congrArg Registers.pc hlast).symm.trans hpc)
  have hback : registers.sp = (start j).1.cpu.registers.sp :=
    (congrArg Registers.sp hlast).trans hsp
  refine ⟨hpc, ⟨j, Nat.lt_succ_of_le hj, hcall, hsame, hback⟩, ?_⟩
  intro hother
  cases j with
  | zero => exact hback.trans hplace0
  | succ j => exact absurd hsame (hother (j + 1) (Nat.succ_pos j) (Nat.lt_succ_of_le hj) hcall)

/-- A routine at 9000 that calls itself from 9002 until the count in `b` has run out.  The core is
about to make that call. -/
def recursiveCore (b : UInt8) : Core :=
  let c := routineCore 0xFFF0 [0x05, 0xC8, 0xCD, 0x00, 0x90, 0xC9]
  let registers := { c.cpu.registers with pc := 0x9002, bc := wordOf 0 b }
  { c with cpu := { c.cpu with registers } }

/-- The session of a step over a call where nothing else is registered. -/
def steppingOver (c : Core) : Session := { kind := .over c.cpu.behind, trampoline := 1 }

/-- What call `n` of such a step begins with, if no interrupts are raised. -/
def overStart (c : Core) (n : Nat) : Core × Stepper :=
  Core.atCall test (fun _ => false) { c with traps := onlyTrampoline } (some (steppingOver c)) n

/-- What call `n` of such a step comes to. -/
def overCall (c : Core) (n : Nat) : Outcome × Core × Stepper :=
  Core.call test (fun _ => false) { c with traps := onlyTrampoline } (some (steppingOver c)) n

/-- With a count of one the routine is not called again, and the stack pointer is back at FFF0.
With a count of two it is, and the stack pointer is where it was before one of the two calls. -/
theorem stepOver_stops_after_return_recursive :
    (overCall (recursiveCore 1) 3).1 = .stopped 2 ∧
      (overCall (recursiveCore 1) 3).2.1.cpu.registers.sp = 0xFFF0 ∧
      (overCall (recursiveCore 2) 6).1 = .stopped 2 ∧
      ∃ j < 6, (overStart (recursiveCore 2) j).1.cpu.calls = true ∧
        (overStart (recursiveCore 2) j).1.cpu.behind = 0x9005 ∧
        (overCall (recursiveCore 2) 6).2.1.cpu.registers.sp =
          (overStart (recursiveCore 2) j).1.cpu.registers.sp := by
  have hstart : ∀ b, b = 1 ∨ b = 2 →
      stepOver none (Symbols.disassembler {}) (recursiveCore b).cpu (recursiveCore b).traps =
        (some (steppingOver (recursiveCore b)), onlyTrampoline) := by
    rintro b (rfl | rfl) <;> decide +kernel
  have hone := stepOver_stops_after_return {} (by decide +kernel) rfl (hstart 1 (Or.inl rfl))
    (fun _ => false) 3 2 (by decide +kernel) (by decide +kernel)
    ⟨by decide +kernel, by decide +kernel, by decide +kernel, by decide +kernel⟩
  have htwo := stepOver_stops_after_return {} (by decide +kernel) rfl (hstart 2 (Or.inr rfl))
    (fun _ => false) 6 2 (by decide +kernel) (by decide +kernel)
    ⟨by decide +kernel, by decide +kernel, by decide +kernel, by decide +kernel⟩
  exact ⟨by decide +kernel, hone.2.2 (by decide +kernel), by decide +kernel, htwo.2.1⟩

/-- In a step over a call the stack is in RAM, and the stack pointer never rises above its place
before the call.  The trampoline stops call `n` with the stack pointer still below that place. -/
structure StopsDeeper (c : Core) (n : Nat) : Prop where
  calls : c.cpu.calls = true
  started : stepOver none (Symbols.disassembler {}) c.cpu c.traps =
    (some (steppingOver c), onlyTrampoline)
  stack : ∀ k < n, ∀ i < 2,
    c.cpu.Writable ((overStart c k).1.cpu.registers.sp + UInt16.ofNat i)
  sp_le : ∀ k < n, (overStart c k).1.cpu.step.cpu.registers.sp ≤ c.cpu.registers.sp
  before : ∀ k < n, (overCall c k).1 = .continued
  stopped : (overCall c n).1 = .stopped 2
  deeper : (overCall c n).2.1.cpu.registers.sp < c.cpu.registers.sp

/-- A core about to make a call at 0035, from which control comes back to the place where an
interrupt sends it.  Interrupts are on, and one is pending. -/
def interruptedCall : Core where
  cpu := { Cpu.standard.load 0x35 [0xCD, 0x00, 0x90] with
    registers := { pc := 0x35, sp := 0xFFF0, iff1 := true }
    interruptPending := true }

/-- The step stops deeper if the routine that it steps over calls itself by the same call, if that
routine begins at the return address, if it puts the return address onto the stack once more and
returns to that, and if the interrupt handler begins at the return address. -/
theorem stepOver_stops_deeper :
    StopsDeeper (recursiveCore 2) 6 ∧
      StopsDeeper (routineCore 0xFFF0 [0xCD, 0x03, 0x90]) 1 ∧
      StopsDeeper (routineCore 0xFFF0 [0xCD, 0x04, 0x90, 0x00, 0x21, 0x03, 0x90, 0xE5, 0xC9]) 4 ∧
      StopsDeeper interruptedCall 1 := by
  refine ⟨⟨?_, ?_, ?_, ?_, ?_, ?_, ?_⟩, ⟨?_, ?_, ?_, ?_, ?_, ?_, ?_⟩, ⟨?_, ?_, ?_, ?_, ?_, ?_, ?_⟩,
    ?_, ?_, ?_, ?_, ?_, ?_, ?_⟩
  all_goals decide +kernel

end Stepper

end Z80Debugger
