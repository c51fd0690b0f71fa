import Z80Debugger.Proofs.Core.Transparency
import Z80Debugger.Proofs.Cpu.Control
import Z80Debugger.Proofs.Stepping.Over

/-!
# Stepping over a halt that is being repeated

A halted processor has the program counter behind the halt already, and repeats the halt until an
interrupt is served.  A step over takes the length of the instruction at the program counter, though
it is the halt that the first call repeats, and so the step ends behind the next instruction.  When
the handler of the interrupt returns, the session lets that instruction run as well.
`stepOver_of_halted` says what each call does; `stepOver_passes_return_from_halt` has runs in which
a plain instruction, a jump and a return stand behind the halt.
-/

set_option autoImplicit false

namespace Z80Debugger

namespace Stepper

variable {c : Core} {s : Stepper} {cpu : Cpu} {h : Handle} {after target : UInt16}

/-- A halted processor does nothing in a step. -/
theorem step_of_halted (hhalted : cpu.registers.halted = true) : cpu.step.cpu = cpu := by
  rw [Cpu.step, if_pos hhalted]

/-- A halt that is repeated transfers no control, so the step is to end behind the instruction at
the program counter, which did not run. -/
theorem overTarget_of_halted (hhalted : cpu.registers.halted = true) :
    overTarget (Core.runInstruction cpu).1 after cpu.stepOpcode = after := by
  rw [overTarget, Cpu.stepOpcode, if_pos hhalted]
  rfl

/-- A call that does not begin at the end of the step runs its instruction. -/
theorem ArmedAt.cpu_execute (harmed : ArmedAt h after target c s) (hnot : ¬ Arrived target c) :
    (c.execute test s).2.1.cpu = Core.ran c.cpu := by
  have hcontinued := (harmed.execute hnot).1
  rcases Core.stopped_or_ran test c s with ⟨_, hstopped, _⟩ | hran
  · rw [hcontinued] at hstopped
    cases hstopped
  · exact hran

/-- After a call that ran an instruction up to the end of the step, with no interrupt served, the
next call begins at the end of the step. -/
theorem arrived_of_ran {raised : Nat → Bool} {n : Nat}
    (hran : (Core.call test raised c s n).2.1.cpu = Core.ran cpu)
    (hpc : cpu.step.cpu.registers.pc = target) (hrunning : cpu.step.cpu.registers.halted = false)
    (hquiet : cpu.step.cpu.Quiet) : Arrived target (Core.atCall test raised c s (n + 1)).1 := by
  have hserved : Core.ran cpu = (Core.runInstruction cpu).1 :=
    Cpu.serveInterrupt_of_quiet (c := (Core.runInstruction cpu).1) hquiet
  rw [Core.atCall_succ, Arrived, Core.registers_raise, hran, hserved]
  exact ⟨hrunning, hpc⟩

/-- Take any halted core where no trap but that of an earlier session is registered, and begin to
step over.  Whatever interrupts are raised between the calls, the first call repeats the halt and
goes on.  After that, up to the first call that begins behind the instruction at the program
counter, a call stops only if it begins there.  So if a handler returns to the program counter, the
call goes on and runs the instruction there, whatever it is.  If that instruction, of the same
length as when the step began, just goes on behind itself and no interrupt is served, then the call
after it stops. -/
theorem stepOver_of_halted (symbols : Symbols) {c : Core} {s : Stepper} {session : Session}
    {ts : Traps} (hhalted : c.cpu.registers.halted = true)
    (halone : (s.cancel c.traps).entries = [])
    (hstart : s.stepOver symbols.disassembler c.cpu c.traps = (some session, ts))
    (raised : Nat → Bool) :
    let start := Core.atCall test raised { c with traps := ts } (some session)
    let call := Core.call test raised { c with traps := ts } (some session)
    let pc := c.cpu.registers.pc
    let after := pc + UInt16.ofNat c.cpu.code.size
    ∃ h,
      ((call 0).1 = .continued ∧ (start 0).1.cpu.step.cpu = (start 0).1.cpu ∧
        (call 0).2.1.cpu = Core.ran (start 0).1.cpu ∧
        ArmedAt h after after (call 0).2.1 (call 0).2.2) ∧
      ∀ n, 1 ≤ n → (∀ k, 1 ≤ k → k < n → ¬ Arrived after (start k).1) →
        (Arrived after (start n).1 → (call n).1 = .stopped h ∧ (call n).2.2 = none) ∧
        (¬ Arrived after (start n).1 →
          (call n).1 = .continued ∧ (call n).2.1.cpu = Core.ran (start n).1.cpu ∧
            ArmedAt h after after (call n).2.1 (call n).2.2) ∧
        (Arrived pc (start n).1 →
          ¬ Arrived after (start n).1 ∧
            ((start n).1.cpu.code.size = c.cpu.code.size →
              (start n).1.cpu.step.cpu.registers.pc = (start n).1.cpu.behind →
              (start n).1.cpu.step.cpu.registers.halted = false →
              (start n).1.cpu.step.cpu.Quiet → (call (n + 1)).1 = .stopped h)) := by
  intro start call pc after
  have hhalted' : (start 0).1.cpu.registers.halted = true := by
    have hbegin : (start 0).1 = ({ c with traps := ts } : Core).raise (raised 0) := rfl
    rw [hbegin, Core.registers_raise]
    exact hhalted
  obtain ⟨h, hcontinued, hcpu, hfirst⟩ := exists_armedAt_overTarget symbols halone hstart raised
  rw [overTarget_of_halted hhalted'] at hfirst
  refine ⟨h, ⟨hcontinued, step_of_halted hhalted', hcpu, hfirst⟩, ?_⟩
  intro n hn hnot
  have harmed : ArmedAt h after after (start n).1 (start n).2 := hfirst.atCall hn hnot
  have hpasses (hother : ¬ Arrived after (start n).1) :
      (call n).1 = .continued ∧ (call n).2.1.cpu = Core.ran (start n).1.cpu ∧
        ArmedAt h after after (call n).2.1 (call n).2.2 := by
    obtain ⟨hgoes, hafter⟩ := harmed.execute hother
    exact ⟨hgoes, harmed.cpu_execute hother, hafter⟩
  refine ⟨?_, hpasses, ?_⟩
  · intro harrived
    obtain ⟨hstopped, _, hidle, _⟩ := harmed.execute_of_arrived harrived
    exact ⟨hstopped, hidle⟩
  · rintro ⟨_, hpc⟩
    -- No instruction is empty, so the place to which the handler returns is not the end of the
    -- step.
    have hother : ¬ Arrived after (start n).1 := by
      rintro ⟨_, hbehind⟩
      exact c.cpu.code.behind_ne pc (hbehind.symm.trans hpc)
    refine ⟨hother, ?_⟩
    intro hsize hbehind hrunning hquiet
    obtain ⟨_, hran, hafter⟩ := hpasses hother
    have htarget : (start n).1.cpu.step.cpu.registers.pc = after := by
      rw [hbehind, Cpu.behind, hpc, hsize]
    have harrived : Arrived after (start (n + 1)).1 := arrived_of_ran hran htarget hrunning hquiet
    have harmed' : ArmedAt h after after (start (n + 1)).1 (start (n + 1)).2 :=
      hafter.raise (raised (n + 1))
    exact (harmed'.execute_of_arrived harrived).1

/-- A core halted by the instruction at 9000, with interrupts on, `code` behind the halt, and a
handler that only returns. -/
def haltedCore (code : List UInt8) : Core where
  cpu := { (Cpu.standard.load 0x9000 (0x76 :: code)).load 0x38 [0xC9] with
    registers := { pc := 0x9001, sp := 0xFFF0, iff1 := true, halted := true } }

/-- The session of a step over from 9001 to `after`. -/
def steppingTo (after : UInt16) : Session := { kind := .over after, trampoline := 1 }

/-- An interrupt ends the halt in the second call, and its handler returns in the third.  The fourth
call runs the instruction behind the halt, which does nothing, and the fifth one stops. -/
theorem stepOver_of_halted_interrupted :
    let c := haltedCore [0x00]
    let raised := fun n => n == 1
    c.cpu.registers.halted = true ∧ (cancel none c.traps).entries = [] ∧
      stepOver none (Symbols.disassembler {}) c.cpu c.traps =
        (some (steppingTo 0x9002), onlyTrampoline) ∧
      let start := Core.atCall test raised { c with traps := onlyTrampoline }
        (some (steppingTo 0x9002))
      let call := Core.call test raised { c with traps := onlyTrampoline }
        (some (steppingTo 0x9002))
      Arrived 0x9001 (start 3).1 ∧ (call 3).1 = .continued ∧ ∃ h, (call 4).1 = .stopped h := by
  intro c raised
  have hhalted : c.cpu.registers.halted = true := rfl
  have halone : (cancel none c.traps).entries = [] := rfl
  have hstart : stepOver none (Symbols.disassembler {}) c.cpu c.traps =
      (some (steppingTo 0x9002), onlyTrampoline) := by
    decide +kernel
  obtain ⟨h, _, hlater⟩ := stepOver_of_halted {} hhalted halone hstart raised
  obtain ⟨_, hpasses, hreturned⟩ := hlater 3 (by decide) (by
    intro k hone hthree
    obtain rfl | rfl : k = 1 ∨ k = 2 := by omega
    all_goals decide +kernel)
  obtain ⟨hother, hstops⟩ := hreturned (by decide +kernel)
  refine ⟨hhalted, halone, hstart, by decide +kernel, (hpasses hother).1, h, ?_⟩
  exact hstops (by decide +kernel) (by decide +kernel) (by decide +kernel) (by decide +kernel)

/-- An instruction that does nothing, a jump to A000 or a return stands behind the halt.  An
interrupt ends the halt in the first call, and its handler returns in the second.  The third call,
which begins at the instruction behind the halt, does not stop before it but runs it. -/
theorem stepOver_passes_return_from_halt :
    let passes := fun (code : List UInt8) (after next : UInt16) =>
      let c := haltedCore code
      let raised := fun n => n == 0
      let start := Core.atCall test raised { c with traps := onlyTrampoline }
        (some (steppingTo after))
      let call := Core.call test raised { c with traps := onlyTrampoline } (some (steppingTo after))
      stepOver none (Symbols.disassembler {}) c.cpu c.traps =
          (some (steppingTo after), onlyTrampoline) ∧
        (call 0).2.1.cpu.registers.pc = 0x38 ∧ Arrived 0x9001 (start 2).1 ∧
        (call 2).1 = .continued ∧ (call 2).2.1.cpu.registers.pc = next
    passes [0x00] 0x9002 0x9002 ∧ passes [0xC3, 0x00, 0xA0] 0x9004 0xA000 ∧
      passes [0xC9] 0x9002 0x0000 := by
  intro passes
  refine ⟨⟨?_, ?_, ?_, ?_, ?_⟩, ⟨?_, ?_, ?_, ?_, ?_⟩, ⟨?_, ?_, ?_, ?_, ?_⟩⟩
  all_goals decide +kernel

end Stepper

end Z80Debugger
