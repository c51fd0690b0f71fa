import Z80Debugger.Proofs.Instruction.Code

/-!
# The flow of a decoded instruction

The decoder says which instruction the bytes begin with, and the table of flows says from the opcode
value alone what happens to the flow of control.  The two were made apart, one from the fields of an
opcode and the other from masks on it.  `Code.flow_decode` states that they agree, with prefixes and
with instructions that the processor skips over.
-/

set_option autoImplicit false

namespace Z80Debugger

/-- What an instruction does to the flow of control where it is run. -/
def Instruction.flow : Instruction → Flow
  | djnz _ => .branch none
  | jumpRelative none _ | jump none _ => .jump
  | jumpRelative (some c) _ | jump (some c) _ => .branch (some c)
  | halt => .halt
  | ret none => .ret
  | ret (some c) => .conditionalRet c
  | jumpPair _ => .indirectJump
  | call none _ => .call
  | call (some c) _ => .conditionalCall c
  | restart _ => .restart
  | retInterrupt | retNonMaskable => .interruptRet
  | _ => .other

/-- What holds of 256 bytes holds of every byte. -/
theorem forall_byte {P : UInt8 → Prop} (h : ∀ i : Fin 256, P (UInt8.ofFin i)) (b : UInt8) :
    P b := by
  simpa using h b.toFin

/-- The prefix of an index register is its own. -/
theorem IndexRegister.eq_prefixByte {x : IndexRegister} {b : UInt8} (hx : ofPrefix? b = some x) :
    b = x.prefixByte := by
  unfold ofPrefix? at hx
  split at hx
  · next hb =>
    cases hx
    exact eq_of_beq hb
  · split at hx
    · next hb =>
      cases hx
      exact eq_of_beq hb
    · cases hx

namespace Flow

/-- An opcode of one byte is classified by that byte. -/
theorem ofOpcode_byte (b : UInt8) : ofOpcode b.toUInt32 = ofByte b := by
  revert b
  apply forall_byte
  decide +kernel

/-- Behind an index prefix the second byte is classified as if it stood alone. -/
theorem ofOpcode_indexed (x : IndexRegister) (b : UInt8) :
    ofOpcode (x.prefixByte.toUInt32 <<< 8 ||| b.toUInt32) = ofByte b := by
  revert b
  apply forall_byte
  cases x <;> decide +kernel

/-- The operations on bits transfer no control. -/
theorem ofOpcode_bits (b : UInt8) : ofOpcode ((0xCB : UInt32) <<< 8 ||| b.toUInt32) = other := by
  revert b
  apply forall_byte
  decide +kernel

/-- One byte halts. -/
theorem ofByte_eq_halt_iff (b : UInt8) : ofByte b = halt ↔ b = 0x76 := by
  revert b
  apply forall_byte
  decide +kernel

/-- Nothing behind ED halts. -/
theorem ofOpcode_extended_ne_halt (b : UInt8) :
    ofOpcode ((0xED : UInt32) <<< 8 ||| b.toUInt32) ≠ halt := by
  revert b
  apply forall_byte
  decide +kernel

end Flow

namespace Instruction

/-- Neither operands nor an index register in the place of `hl` change the flow of an opcode. -/
theorem flow_ofOpcode_eq (x : Option IndexRegister) (op p q : UInt8) :
    (ofOpcode x op p q).flow = (ofOpcode none op 0 0).flow := by
  simp only [ofOpcode]
  -- The fields of the opcode alone decide, so both sides take the same branch.
  repeat' split
  all_goals
    unfold flow
    rfl

/-- A decoded opcode byte has the class of that byte. -/
theorem flow_ofOpcode {op : UInt8} (hbits : op ≠ 0xCB) (hext : op ≠ 0xED)
    (hindex : IndexRegister.ofPrefix? op = none) (x : Option IndexRegister) (p q : UInt8) :
    (ofOpcode x op p q).flow = Flow.ofByte op := by
  rw [flow_ofOpcode_eq]
  revert op
  apply forall_byte
  decide +kernel

/-- Decoded operations on bits transfer no control. -/
theorem flow_ofBitOpcode (o : Operand) (op : UInt8) : (ofBitOpcode o op).flow = .other := by
  simp only [ofBitOpcode]
  split <;> rfl

/-- The class of what is decoded behind ED does not depend on the operand. -/
theorem flow_ofExtendedOpcode_eq (op p q : UInt8) :
    (ofExtendedOpcode op p q).flow = (ofExtendedOpcode op 0 0).flow := by
  simp only [ofExtendedOpcode]
  repeat' split
  all_goals
    unfold flow
    rfl

/-- What is decoded behind ED has the class of its opcode. -/
theorem flow_ofExtendedOpcode (op p q : UInt8) :
    (ofExtendedOpcode op p q).flow = Flow.ofOpcode ((0xED : UInt32) <<< 8 ||| op.toUInt32) := by
  rw [flow_ofExtendedOpcode_eq]
  revert op
  apply forall_byte
  decide +kernel

/-- The flow tells which instruction it is, but for the operands. -/
theorem exists_of_flow (i : Instruction) :
    match i.flow with
    | .call => ∃ w, i = call none w
    | .conditionalCall c => ∃ w, i = call (some c) w
    | .restart => ∃ v, i = restart v
    | .ret => i = ret none
    | .conditionalRet c => i = ret (some c)
    | .branch (some c) => (∃ d, i = jumpRelative (some c) d) ∨ ∃ w, i = jump (some c) w
    | _ => True := by
  cases i with
  | jumpRelative c d =>
    cases c with
    | none => trivial
    | some c => exact Or.inl ⟨d, rfl⟩
  | jump c w =>
    cases c with
    | none => trivial
    | some c => exact Or.inr ⟨w, rfl⟩
  | ret c => cases c <;> exact rfl
  | call c w => cases c <;> exact ⟨w, rfl⟩
  | restart v => exact ⟨v, rfl⟩
  | _ => trivial

/-- A jump or a call has the bytes behind its opcode as its operand.  The opcodes of relative jumps
lie in the first quarter. -/
def Reads (op p q : UInt8) : Instruction → Prop
  | call _ w | jump _ w => w = wordOf p q ∧ ¬ op < 0x40
  | djnz d | jumpRelative _ d => d = p ∧ op < 0x40
  | _ => True

/-- Every instruction decoded from an opcode byte has the bytes behind it as its operand. -/
theorem reads_ofOpcode (x : Option IndexRegister) (op p q : UInt8) :
    (ofOpcode x op p q).Reads op p q := by
  have hquarter : op < 0x40 ↔ op.toNat / 64 = 0 := by
    rw [UInt8.lt_iff_toNat_lt]
    show op.toNat < 64 ↔ op.toNat / 64 = 0
    omega
  simp only [ofOpcode]
  repeat' split
  all_goals simp_all [Reads]

end Instruction

namespace Code

/-- The first byte is no prefix. -/
def Plain (c : Code) : Prop := c.first ∉ [0xCB, 0xDD, 0xED, 0xFD]

instance (c : Code) : Decidable c.Plain := inferInstanceAs (Decidable (_ ∉ _))

/-- Without a prefix the first byte is the opcode. -/
theorem Plain.decode {c : Code} (hplain : c.Plain) :
    c.decode.index = none ∧
      c.decode.instruction = Instruction.ofOpcode none c.first c.second c.third := by
  simp only [Plain, List.mem_cons, List.not_mem_nil, or_false, not_or] at hplain
  obtain ⟨hbits, hix, hext, hiy⟩ := hplain
  simp [Code.decode, IndexRegister.ofPrefix?, hbits, hix, hext, hiy]

/-- Behind an index prefix the decoded instruction has the class of the opcode value. -/
theorem flow_decode_of_index {c : Code} {x : IndexRegister}
    (hx : IndexRegister.ofPrefix? c.first = some x) :
    c.decode.instruction.flow = Flow.ofOpcode c.executedOpcode := by
  have hfirst : c.first = x.prefixByte := IndexRegister.eq_prefixByte hx
  have hopcode : c.opcode = x.prefixByte.toUInt32 <<< 8 ||| c.second.toUInt32 := by
    rw [opcode, hfirst]
    cases x <;> rfl
  simp only [decode, executedOpcode, isStrayPrefix_eq, hx, Option.isSome_some, Bool.true_and]
  by_cases hstray : overridesIndex c.second = true
  · simp only [if_pos hstray, hfirst, Flow.ofOpcode_byte]
    cases x <;> rfl
  · rw [if_neg hstray, if_neg hstray, hopcode, Flow.ofOpcode_indexed]
    by_cases hbits : c.second = 0xCB
    · simp only [hbits, beq_self_eq_true, if_true, Instruction.flow_ofBitOpcode]
      rfl
    · simp only [overridesIndex, Bool.or_eq_true, not_or] at hstray
      obtain ⟨⟨hix, hiy⟩, hext⟩ := hstray
      have hindex : IndexRegister.ofPrefix? c.second = none := by
        simp only [IndexRegister.ofPrefix?, if_neg hix, if_neg hiy]
      rw [if_neg (by simpa using hbits)]
      exact Instruction.flow_ofOpcode hbits (by simpa using hext) hindex _ _ _

/-- The table of flows agrees with the decoder: the opcode value of what runs has the flow of the
decoded instruction. -/
theorem flow_decode (c : Code) : c.decode.instruction.flow = Flow.ofOpcode c.executedOpcode := by
  cases hx : IndexRegister.ofPrefix? c.first with
  | some x => exact flow_decode_of_index hx
  | none =>
    have hindex : (c.first == 0xDD) = false ∧ (c.first == 0xFD) = false := by
      simp only [IndexRegister.ofPrefix?] at hx
      split at hx <;> simp_all
    simp only [decode, executedOpcode, isStrayPrefix_eq, opcode, hx, hindex, Option.isSome_none,
      Bool.false_and, Bool.or_false]
    by_cases hext : c.first = 0xED
    · simp [hext, Instruction.flow_ofExtendedOpcode]
    by_cases hbits : c.first = 0xCB
    · simp [hbits, Instruction.flow_ofBitOpcode, Flow.ofOpcode_bits]
    · simp [hext, hbits, Flow.ofOpcode_byte, Instruction.flow_ofOpcode hbits hext hx]

/-- An index prefix before the opcode of a halt. -/
def PrefixedHalt (c : Code) : Prop := (c.first = 0xDD ∨ c.first = 0xFD) ∧ c.second = 0x76

instance (c : Code) : Decidable c.PrefixedHalt := inferInstanceAs (Decidable (_ ∧ _))

/-- What runs counts as a halt exactly if it is one or looks like one behind an index prefix. -/
theorem flow_executedOpcode_eq_halt_iff (c : Code) :
    Flow.ofOpcode c.executedOpcode = .halt ↔ c.first = 0x76 ∨ c.PrefixedHalt := by
  rw [flow_executedOpcode, opcode, PrefixedHalt]
  by_cases hindex : ∃ x : IndexRegister, c.first = x.prefixByte
  · obtain ⟨x, hx⟩ := hindex
    have hopcode : (c.first == 0xCB || c.first == 0xDD || c.first == 0xED || c.first == 0xFD) =
        true := by
      rw [hx]
      cases x <;> rfl
    have hfirst : c.first ≠ 0x76 ∧ (c.first = 0xDD ∨ c.first = 0xFD) := by
      rw [hx]
      cases x <;> decide
    rw [if_pos hopcode, hx, Flow.ofOpcode_indexed, Flow.ofByte_eq_halt_iff, ← hx]
    simp [hfirst]
  · have hplain : c.first ≠ 0xDD ∧ c.first ≠ 0xFD :=
      ⟨fun h => hindex ⟨.ix, h⟩, fun h => hindex ⟨.iy, h⟩⟩
    by_cases hbits : c.first = 0xCB
    · simp [hbits, Flow.ofOpcode_bits]
    by_cases hext : c.first = 0xED
    · simpa [hext] using Flow.ofOpcode_extended_ne_halt c.second
    · simp [hplain, hbits, hext, Flow.ofOpcode_byte, Flow.ofByte_eq_halt_iff]

end Code

end Z80Debugger
