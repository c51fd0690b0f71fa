import Z80Debugger.Cpu.Flow
import Z80Debugger.Instruction.Decode

/-!
# Length and flow of the instruction in four bytes

An instruction takes one byte to four, so the address behind it is never its own.  A prefix that
another prefix follows runs alone and goes on to the next byte; the two bytes together count as no
transfer of control either, so the flow can be read from the opcode value of the bytes.
-/

set_option autoImplicit false

namespace Z80Debugger

/-- An operand takes one byte at most. -/
theorem Operand.size_le_one (o : Operand) : o.size ≤ 1 := by
  cases o <;> simp [size]

/-- Operands take two bytes at most. -/
theorem Instruction.operandSize_le_two (i : Instruction) : i.operandSize ≤ 2 := by
  cases i with
  | inc o | dec o | alu _ o => exact Nat.le_succ_of_le o.size_le_one
  | load o _ => exact Nat.succ_le_succ o.size_le_one
  | move dst src => exact Nat.add_le_add dst.size_le_one src.size_le_one
  | _ => simp [operandSize]

namespace Code

/-- An instruction takes one byte to four. -/
theorem size_bounds (c : Code) : 1 ≤ c.size ∧ c.size ≤ 4 := by
  have hindexed (x : IndexRegister) :=
    (Instruction.ofOpcode (some x) c.second c.third c.fourth).operandSize_le_two
  have hextended := (Instruction.ofExtendedOpcode c.second c.third c.fourth).operandSize_le_two
  have hplain := (Instruction.ofOpcode none c.first c.second c.third).operandSize_le_two
  have hprefixed (n : Nat) (hn : n ≤ 2) : 1 ≤ 2 + n ∧ 2 + n ≤ 4 := by
    omega
  have hsingle (n : Nat) (hn : n ≤ 2) : 1 ≤ 1 + n ∧ 1 + n ≤ 4 := by
    omega
  rw [size, decode]
  split
  · next x _ =>
    split
    · simp
    · split
      · simp
      · exact hprefixed _ (hindexed x)
  · split
    · exact hprefixed _ hextended
    · split
      · simp
      · exact hsingle _ hplain

/-- The address behind an instruction is never its own. -/
theorem behind_ne (c : Code) (pc : UInt16) : pc + UInt16.ofNat c.size ≠ pc := by
  obtain ⟨hpos, hfour⟩ := c.size_bounds
  intro hsame
  have hpc := pc.toNat_lt
  have hnat := congrArg UInt16.toNat hsame
  rw [UInt16.toNat_add, UInt16.toNat_ofNat'] at hnat
  omega

/-- A stray prefix is a prefix of an index register before a byte that overrides it. -/
theorem isStrayPrefix_eq (c : Code) :
    c.isStrayPrefix = ((IndexRegister.ofPrefix? c.first).isSome && overridesIndex c.second) := by
  have hprefix : (c.first == 0xDD || c.first == 0xFD) =
      (IndexRegister.ofPrefix? c.first).isSome := by
    unfold IndexRegister.ofPrefix?
    cases c.first == 0xDD <;> cases c.first == 0xFD <;> rfl
  rw [isStrayPrefix, hprefix]
  rfl

/-- What runs has the flow of the opcode value at the bytes. -/
theorem flow_executedOpcode (c : Code) :
    Flow.ofOpcode c.executedOpcode = Flow.ofOpcode c.opcode := by
  by_cases hstray : c.isStrayPrefix = true
  · rw [executedOpcode, if_pos hstray]
    obtain ⟨first, second, third, fourth⟩ := c
    simp only [isStrayPrefix, Bool.and_eq_true, Bool.or_eq_true, beq_iff_eq] at hstray
    obtain ⟨hfirst, hsecond⟩ := hstray
    obtain rfl | rfl := hfirst
    all_goals
      obtain (rfl | rfl) | rfl := hsecond
      all_goals
        simp only [opcode]
        decide
  · rw [executedOpcode, if_neg hstray]

end Code

end Z80Debugger
