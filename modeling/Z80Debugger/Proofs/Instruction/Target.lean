import Z80Debugger.Disassembly
import Z80Debugger.Proofs.Cpu.Control

/-!
# Written targets are where control goes

A jump, a call or a restart is written with the address that it leads to.  The text is made from the
bytes and the address behind them: a displacement is added as an integer to an address of 32 bits,
and 16 bits of the sum are written.  The processor adds the displacement, widened to a word, to its
program counter, which has 16 bits.  `text_names_target` states that the two agree for every running
processor and every table of names, also where the instruction or its displacement crosses the end
of the addresses.
-/

set_option autoImplicit false

namespace Z80Debugger

namespace Instruction

/-- What is written before the target, in the instructions that are written with one. -/
def stem? : Instruction → Option String
  | djnz _ => some "djnz "
  | jumpRelative cc _ => some ("jr " ++ conditionText cc)
  | jump cc _ => some ("jp " ++ conditionText cc)
  | call cc _ => some ("call " ++ conditionText cc)
  | restart _ => some "rst "
  | _ => none

/-- How such an instruction writes an address as its target: a jump or a call by its name, if it has
one, a restart with two digits and everything else with four. -/
def operand (names : UInt32 → Option String) (address : UInt16) : Instruction → String
  | jump _ _ | call _ _ => (names address.toUInt32).getD ("$" ++ Text.Hex.text 4 address.toNat)
  | restart _ => "$" ++ Text.Hex.text 2 address.toNat
  | _ => "$" ++ Text.Hex.text 4 address.toNat

/-- Whether the transfer is made with these registers: the condition holds of the flags, or the
count in `b` has not come down to zero. -/
def isTaken (r : Registers) : Instruction → Bool
  | djnz _ => highByte r.bc - 1 != 0
  | jumpRelative cc _ | jump cc _ | call cc _ => cc.all (·.holds r.f)
  | restart _ => true
  | _ => false

/-- Where the transfer leads, from the address behind the instruction. -/
def target (behind : UInt16) : Instruction → UInt16
  | djnz d | jumpRelative _ d => behind + signExtend d
  | jump _ w | call _ w => w
  | restart v => v.toUInt16
  | _ => behind

/-- A displacement and its widening to a word are the same modulo `2 ^ 16`. -/
theorem displacement_emod (d : UInt8) : displacement d % 0x10000 = (signExtend d).toNat := by
  have hd := d.toNat_lt
  unfold displacement signExtend
  rw [Int.bmod_def]
  split
  · have hforward : d < 0x80 := by
      rw [UInt8.lt_iff_toNat_lt]
      show d.toNat < 128
      omega
    rw [if_pos hforward, UInt8.toNat_toUInt16]
    omega
  · have hback : ¬ d < 0x80 := by
      rw [UInt8.lt_iff_toNat_lt]
      show ¬ d.toNat < 128
      omega
    have hword : (0xFF00 + d.toUInt16).toNat = 0xFF00 + d.toNat := by
      rw [UInt16.toNat_add, UInt8.toNat_toUInt16]
      show (0xFF00 + d.toNat) % 0x10000 = 0xFF00 + d.toNat
      omega
    rw [if_neg hback, hword]
    omega

/-- The low 16 bits of the sum are the sum of 16-bit words. -/
theorem toNat_relativeTarget (next : UInt32) (d : UInt8) :
    (relativeTarget next d).toNat = (next.toUInt16 + signExtend d).toNat := by
  have hdisplacement := displacement_emod d
  rw [relativeTarget, UInt32.toNat_and, UInt16.toNat_add, UInt32.toNat_toUInt16]
  show ((next.toNat + displacement d) % 0x100000000).toNat % 0x100000000 &&& (2 ^ 16 - 1) = _
  rw [Nat.and_two_pow_sub_one_eq_mod]
  omega

/-- The text ends with the target, as it is counted from the address behind the instruction. -/
theorem text_of_stem {i : Instruction} {stem : String} (hstem : i.stem? = some stem)
    (names : UInt32 → Option String) (next : UInt32) :
    i.text names next = stem ++ i.operand names (i.target next.toUInt16) := by
  cases i with
  | djnz d | jumpRelative cc d =>
    cases hstem
    show _ ++ ("$" ++ Text.Hex.text 4 (relativeTarget next d).toNat) =
      _ ++ ("$" ++ Text.Hex.text 4 (next.toUInt16 + signExtend d).toNat)
    rw [toNat_relativeTarget]
  | jump cc w | call cc w =>
    cases hstem
    rfl
  | restart v =>
    cases hstem
    rw [operand, target, UInt8.toNat_toUInt16]
    rfl
  | _ => cases hstem

end Instruction

namespace Cpu

variable {c : Cpu}

/-- The count goes down by one, and control goes on by the displacement unless nothing is left. -/
theorem pc_run_djnz (c : Cpu) (d : UInt8) :
    ((Instruction.djnz d).work.run c.passed).2.cpu.registers.pc =
      if highByte c.registers.bc - 1 != 0 then c.behind + signExtend d else c.behind := by
  have hrun : (Instruction.djnz d).work.run c.passed =
      (if highByte c.registers.bc - 1 != 0 then Work.jumpBy d else pure ()).run
        ((Work.update fun r => Register8.b.set r (highByte c.registers.bc - 1)).run c.passed).2 :=
    rfl
  rw [hrun]
  split <;> rfl

/-- An instruction that is written with a target goes there if the transfer is made, and on behind
itself if not. -/
theorem pc_step_of_stem {stem : String} (hrunning : c.registers.halted = false)
    (hplain : c.code.Plain) (hstem : c.code.decode.instruction.stem? = some stem) :
    c.step.cpu.registers.pc =
      if c.code.decode.instruction.isTaken c.registers then
        c.code.decode.instruction.target c.behind
      else c.behind := by
  rw [step_of_index_eq_none hrunning hplain.decode.1]
  generalize c.code.decode.instruction = i at hstem ⊢
  cases i with
  | djnz d => exact c.pc_run_djnz d
  | jumpRelative cc d =>
    cases cc with
    | none => rfl
    | some cc =>
      rw [run_conditionalJumpRelative, apply_ite (fun s : Activity => s.cpu.registers.pc)]
      rfl
  | jump cc w =>
    cases cc with
    | none => rfl
    | some cc =>
      rw [run_conditionalJump, apply_ite (fun s : Activity => s.cpu.registers.pc)]
      rfl
  | call cc w =>
    cases cc with
    | none => rfl
    | some cc =>
      rw [run_conditionalCall, apply_ite (fun s : Activity => s.cpu.registers.pc)]
      rfl
  | restart v => rfl
  | _ => cases hstem

/-- Take any running processor that is about to run a relative jump, a `djnz`, a jump to a word, a
call or a restart without a prefix, with a condition or without.  The disassembler has a line for
it.  If the transfer is made, the line ends with the address where control goes: with its name for a
jump to a word or a call, if there is one, and else with a dollar sign and its digits, two for a
restart and four for everything else.  If it is not made, control goes to the next line. -/
theorem text_names_target (symbols : Symbols) {stem : String}
    (hrunning : c.registers.halted = false) (hplain : c.code.Plain)
    (hstem : c.code.decode.instruction.stem? = some stem) :
    let i := c.code.decode.instruction
    let pc := c.step.cpu.registers.pc
    ∃ line, symbols.disassembler c .logical c.registers.pc.toUInt32 = some line ∧
      (i.isTaken c.registers = true → line.text = stem ++ i.operand symbols.nameAt pc) ∧
      (i.isTaken c.registers = false → pc = line.next.toUInt16) := by
  intro i pc
  have hpc : pc = if i.isTaken c.registers then i.target c.behind else c.behind :=
    pc_step_of_stem hrunning hplain hstem
  have hnext := c.code.toUInt16_next_line symbols.nameAt c.registers.pc
  refine ⟨_, symbols.disassembler_pc c, ?_, ?_⟩
  · intro htaken
    have htext := i.text_of_stem hstem symbols.nameAt
      (c.code.line symbols.nameAt c.registers.pc.toUInt32).next
    rw [hnext] at htext
    rw [hpc, if_pos htaken]
    exact htext
  · intro hpassed
    rw [hpc, hpassed, hnext]
    rfl

/-- A processor about to run the given bytes at an address. -/
def aboutToRun (pc : UInt16) (bytes : List UInt8) : Cpu :=
  { standard.load pc bytes with registers := { pc, sp := 0xFFF0 } }

/-- A jump that ends at the end of the addresses leads back from 0000, and a call is written with
the name of the routine. -/
theorem text_names_target_wrapping :
    let symbols := Symbols.ofList [("Start", 0x9000)]
    let jumping := aboutToRun 0xFFFE [0x20, 0x85]
    let calling := aboutToRun 0x8000 [0xC4, 0x00, 0x90]
    (∃ line, symbols.disassembler jumping .logical 0xFFFE = some line ∧
      line.text = "jr nz,$FF85" ∧ jumping.step.cpu.registers.pc = 0xFF85) ∧
    ∃ line, symbols.disassembler calling .logical 0x8000 = some line ∧
      line.text = "call nz,Start" ∧ calling.step.cpu.registers.pc = 0x9000 := by
  intro symbols jumping calling
  have hjump : jumping.step.cpu.registers.pc = 0xFF85 := by
    decide +kernel
  have hcall : calling.step.cpu.registers.pc = 0x9000 := by
    decide +kernel
  have hjr : jumping.code.decode.instruction.stem? = some "jr nz," := by
    decide +kernel
  have hcallnz : calling.code.decode.instruction.stem? = some "call nz," := by
    decide +kernel
  obtain ⟨line, hline, htext, -⟩ :=
    text_names_target symbols (by decide +kernel) (by decide +kernel) hjr
  obtain ⟨line', hline', htext', -⟩ :=
    text_names_target symbols (by decide +kernel) (by decide +kernel) hcallnz
  refine ⟨⟨line, hline, ?_, hjump⟩, line', hline', ?_, hcall⟩
  · rw [htext (by decide +kernel), hjump]
    decide +kernel
  · rw [htext' (by decide +kernel), hcall]
    decide +kernel

end Cpu

end Z80Debugger
