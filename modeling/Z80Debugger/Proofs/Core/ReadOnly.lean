import Z80Debugger.Proofs.Core.Resumption
import Z80Debugger.Proofs.Core.Watchpoints

/-!
# ROM is only read

Whatever an instruction stores, and whatever the service of an interrupt pushes, goes through the
one write that leaves ROM alone.  `Cpu.SameRom` is a frame, so a step and an interrupt keep it, and
so does every run of calls, whatever traps and tests there are.  In RAM a call changes no more than
what the instruction that it ran, and the interrupt that it served, have written.
-/

set_option autoImplicit false

namespace Z80Debugger

namespace Cpu

/-- The processors have the same bytes in ROM, memories of the same layout, and the same pages in
their banks. -/
structure SameRom (c d : Cpu) : Prop where
  layout : d.layout = c.layout
  banks : d.banks = c.banks
  rom : ∀ cell, cell < c.layout.romSize → d.memory.read cell = c.memory.read cell

variable {b c d : Cpu}

/-- Nothing done leaves the ROM. -/
theorem SameRom.refl (c : Cpu) : c.SameRom c := ⟨rfl, rfl, fun _ _ => rfl⟩

/-- What leaves the ROM one after the other leaves it. -/
theorem SameRom.trans (hbc : b.SameRom c) (hcd : c.SameRom d) : b.SameRom d where
  layout := hcd.layout.trans hbc.layout
  banks := hcd.banks.trans hbc.banks
  rom cell hcell := by
    have hkept : cell < c.layout.romSize := by rwa [hbc.layout]
    exact (hcd.rom cell hkept).trans (hbc.rom cell hcell)

/-- Nothing but the write of a byte touches memory, and that write refuses ROM. -/
theorem frame_sameRom : Work.Frame fun s t => s.cpu.SameRom t.cpu where
  refl s := .refl s.cpu
  trans _ _ _ := SameRom.trans
  update _ _ := ⟨rfl, rfl, fun _ _ => rfl⟩
  readByte _ _ := ⟨rfl, rfl, fun _ _ => rfl⟩
  input _ _ := ⟨rfl, rfl, fun _ _ => rfl⟩
  output _ _ _ := ⟨rfl, rfl, fun _ _ => rfl⟩
  writeByte address value s := by
    refine ⟨layout_writeByte _ _ _, rfl, ?_⟩
    intro cell hcell
    by_contra hchanged
    obtain ⟨hram, -, -⟩ := writes_of_read_writeByte_ne hchanged
    exact absurd hcell (UInt32.not_lt.mpr hram)

/-- Serving an interrupt leaves the ROM. -/
theorem sameRom_serveInterrupt (c : Cpu) : c.SameRom c.serveInterrupt := by
  unfold serveInterrupt
  split
  · have hcall := frame_sameRom.stepwise.callTo interruptVector { cpu := { c with
      interruptPending := false
      registers := { c.registers with halted := false, iff1 := false, iff2 := false } } }
    exact ⟨hcall.layout, hcall.banks, hcall.rom⟩
  · exact .refl c

end Cpu

namespace Core

variable {σ : Type}

/-- Running an instruction leaves the ROM. -/
theorem sameRom_ran (c : Cpu) : c.SameRom (ran c) := by
  have hstep := Cpu.frame_sameRom.step c
  have hran : c.SameRom (runInstruction c).1 := ⟨hstep.layout, hstep.banks, hstep.rom⟩
  exact hran.trans (runInstruction c).1.sameRom_serveInterrupt

/-- A call runs one instruction or leaves the processor alone. -/
theorem sameRom_execute (test : Test σ) (c : Core) (state : σ) :
    c.cpu.SameRom (c.execute test state).2.1.cpu := by
  rcases stopped_or_ran test c state with ⟨_, _, hcpu⟩ | hcpu
  · rw [hcpu]
    exact .refl c.cpu
  · rw [hcpu]
    exact sameRom_ran c.cpu

/-- Every action on a core leaves the ROM. -/
theorem sameRom_apply (a : Action σ) (s : Core × σ) : s.1.cpu.SameRom (a.apply s).1.cpu := by
  cases a with
  | execute test => exact sameRom_execute test s.1 s.2
  | add t =>
    simp only [Action.apply]
    cases s.1.traps.add? t <;> exact .refl s.1.cpu
  | remove | adjust => exact .refl s.1.cpu
  | interrupt => exact ⟨rfl, rfl, fun _ _ => rfl⟩

/-- Any actions leave the ROM. -/
theorem sameRom_run (s : Core × σ) (as : List (Action σ)) :
    s.1.cpu.SameRom (run s as).1.cpu := by
  induction as generalizing s with
  | nil => exact .refl s.1.cpu
  | cons a as ih => exact (sameRom_apply a s).trans (ih (a.apply s))

/-- What a call has changed in memory was written by the instruction that it ran or pushed by the
interrupt that it served. -/
theorem written_of_read_execute_ne {test : Test σ} {c : Core} {state : σ} {cell : UInt32}
    (hchanged : (c.execute test state).2.1.cpu.memory.read cell ≠ c.cpu.memory.read cell) :
    (c.execute test state).2.1.cpu = ran c.cpu ∧
      (c.cpu.Writes c.cpu.step.accesses cell ∨ c.cpu.step.cpu.InterruptWrites cell) := by
  rcases stopped_or_ran test c state with ⟨_, _, hcpu⟩ | hran
  · rw [hcpu] at hchanged
    exact absurd rfl hchanged
  · refine ⟨hran, ?_⟩
    by_cases hstep : c.cpu.step.cpu.memory.read cell = c.cpu.memory.read cell
    · have hserved : (runInstruction c.cpu).1.serveInterrupt.memory.read cell ≠
          (runInstruction c.cpu).1.memory.read cell := by
        intro hsame
        exact hchanged ((congrArg (·.memory.read cell) hran).trans (hsame.trans hstep))
      have hwrites := Cpu.interruptWrites_of_read_serveInterrupt_ne hserved
      exact .inr hwrites
    · exact .inl (c.cpu.touchesOnly_step.writes cell hstep)

/-- Take any core, with any memory, banks and traps, and any run of it: calls with any tests, traps
registered and removed, and interrupts raised between the calls.  Every byte of ROM is what it was,
and so are the layout of memory, with its size, and the banks.  A call that changes a cell of memory
has run the instruction; a write of that instruction, at a logical address that shows the cell, or
the push of the interrupt that was served behind it has changed the cell, which is in RAM. -/
theorem rom_is_only_read :
    (∀ (s : Core × σ) (as : List (Action σ)),
      s.1.cpu.SameRom (run s as).1.cpu ∧
        (run s as).1.cpu.layout.memorySize = s.1.cpu.layout.memorySize) ∧
    ∀ (test : Test σ) (c : Core) (state : σ) (cell : UInt32),
      let after := (c.execute test state).2.1.cpu
      after.memory.read cell ≠ c.cpu.memory.read cell →
      after = ran c.cpu ∧ c.cpu.layout.romSize ≤ cell ∧
        ((∃ address, .memoryWrite address ∈ c.cpu.step.accesses ∧
            c.cpu.physical address = cell) ∨
          c.cpu.step.cpu.InterruptWrites cell) := by
  constructor
  · intro s as
    have hsame := sameRom_run s as
    exact ⟨hsame, congrArg Layout.memorySize hsame.layout⟩
  · intro test c state cell after hchanged
    obtain ⟨hran, hwritten⟩ := written_of_read_execute_ne hchanged
    have hram : c.cpu.layout.romSize ≤ cell := by
      rw [← UInt32.not_lt]
      intro hrom
      exact hchanged ((sameRom_execute test c state).rom cell hrom)
    refine ⟨hran, hram, hwritten.imp_left ?_⟩
    rintro ⟨-, -, hnoted⟩
    exact hnoted

/-- A core about to store a word whose bytes are at 7FFF and 8000, the end of ROM in its bank and
the start of RAM in the next one. -/
def straddlingCore : Core where
  cpu := { Cpu.standard.load 0x9000 [0x22, 0xFF, 0x7F] with
    registers := { pc := 0x9000, hl := 0x1234 } }

/-- The first byte of the word is dropped and the second one is stored, by the instruction. -/
theorem rom_is_only_read_straddling :
    let after := (straddlingCore.execute Stepper.test none).2.1.cpu
    after.memory.read 0x7FFF = 0 ∧ after.memory.read 0x84000 = 0x12 ∧
      ∃ address, .memoryWrite address ∈ straddlingCore.cpu.step.accesses ∧
        straddlingCore.cpu.physical address = 0x84000 := by
  intro after
  obtain ⟨hruns, hcalls⟩ := rom_is_only_read (σ := Stepper)
  have hsame := (hruns (straddlingCore, none) [.execute Stepper.test]).1
  have hkept : after.memory.read 0x7FFF = straddlingCore.cpu.memory.read 0x7FFF :=
    hsame.rom 0x7FFF (by decide +kernel)
  have hstored : after.memory.read 0x84000 = 0x12 := by
    decide +kernel
  have hzero : straddlingCore.cpu.memory.read 0x84000 = 0 ∧
      straddlingCore.cpu.memory.read 0x7FFF = 0 := by
    decide +kernel
  have hchanged : after.memory.read 0x84000 ≠ straddlingCore.cpu.memory.read 0x84000 := by
    rw [hstored, hzero.1]
    decide
  have hno : straddlingCore.cpu.step.cpu.interruptPending = false := by
    decide +kernel
  refine ⟨hkept.trans hzero.2, hstored, ?_⟩
  obtain hwritten | hserved := (hcalls Stepper.test straddlingCore none 0x84000 hchanged).2.2
  · exact hwritten
  · rw [Cpu.InterruptWrites, hno] at hserved
    cases hserved.1

end Core

end Z80Debugger
