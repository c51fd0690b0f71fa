import Z80Debugger.Proofs.Cpu.Meaning
import Z80Debugger.Proofs.Instruction.Flow

/-!
# The interpreter agrees with the decoder

The interpreter and the decoder are two readings of the same bytes, and neither uses the other, but
for the length of an instruction that is skipped over.  `Cpu.step_eq_work` states that they agree:
a step does the work of the decoded instruction, from the address behind it on.
-/

set_option autoImplicit false

namespace Z80Debugger

/-- Shifting and joining two bytes gives their word. -/
theorem or_shiftLeft_eq_wordOf (lo hi : UInt8) :
    lo.toUInt16 ||| hi.toUInt16 <<< 8 = wordOf lo hi := by
  apply UInt16.toNat_inj.mp
  have hlo := lo.toNat_lt
  have hhi := hi.toNat_lt
  have hfits : hi.toNat <<< 8 < 0x10000 := by
    rw [Nat.shiftLeft_eq]
    omega
  rw [toNat_wordOf, UInt16.toNat_or, UInt16.toNat_shiftLeft, UInt8.toNat_toUInt16,
    UInt8.toNat_toUInt16]
  show lo.toNat ||| hi.toNat <<< 8 % 0x10000 = hi.toNat * 256 + lo.toNat
  rw [Nat.mod_eq_of_lt hfits, Nat.or_comm, ← Nat.shiftLeft_add_eq_or_of_lt hlo, Nat.shiftLeft_eq]

/-- A three-bit code is one of eight. -/
theorem eq_of_code_lt {code : UInt8} (h : code < 8) :
    code = 0 ∨ code = 1 ∨ code = 2 ∨ code = 3 ∨ code = 4 ∨ code = 5 ∨ code = 6 ∨ code = 7 := by
  revert code
  apply forall_byte
  decide +kernel

/-- The condition test of the interpreter is that of the condition with the same code. -/
theorem Registers.condition_eq_holds {code : UInt8} (h : code < 8) (r : Registers) :
    r.condition code = (Condition.ofCode code).holds r.f := by
  obtain rfl | rfl | rfl | rfl | rfl | rfl | rfl | rfl := eq_of_code_lt h
  all_goals rfl

/-- The byte operations of the interpreter are those with the same code. -/
theorem Alu.run_eq_run {code : UInt8} (h : code < 8) (a f value : UInt8) :
    run code a f value = (AluOp.ofCode code.toNat).run a f value := by
  obtain rfl | rfl | rfl | rfl | rfl | rfl | rfl | rfl := eq_of_code_lt h
  all_goals rfl

/-- The activity with the program counter moved on. -/
def Activity.skip (s : Activity) (n : Nat) : Activity where
  cpu := { s.cpu with
    registers := { s.cpu.registers with pc := s.cpu.registers.pc + UInt16.ofNat n } }
  accesses := s.accesses

/-- Moving on by nothing changes nothing. -/
theorem Activity.skip_zero (s : Activity) : s.skip 0 = s := by
  simp [skip]

/-- Moving on twice moves on by the sum. -/
theorem Activity.skip_skip (s : Activity) (m n : Nat) : (s.skip m).skip n = s.skip (m + n) := by
  simp only [skip, UInt16.add_assoc, UInt16.ofNat_add]

/-- Whether the pair is an index register. -/
def Pair.isIndex : Pair → Bool
  | index _ => true
  | _ => false

/-- Whether the instruction is one of those that are run behind an index prefix. -/
def Instruction.movesIndex : Instruction → Bool
  | loadPair p _ | pop p | push p | jumpPair p | loadSp p => p.isIndex
  | _ => false

/-- Behind an index prefix no other instruction does anything. -/
theorem Instruction.indexedWork_of_movesIndex_eq_false {i : Instruction}
    (h : i.movesIndex = false) : i.indexedWork = pure () := by
  unfold indexedWork
  split
  case h_6 => rfl
  all_goals cases h

/-- The operations on bits are not run. -/
theorem Instruction.work_ofBitOpcode (o : Operand) (op : UInt8) :
    (ofBitOpcode o op).work = pure () := by
  simp only [ofBitOpcode]
  split <;> rfl

/-- The operations on bits are not run behind an index prefix either. -/
theorem Instruction.indexedWork_ofBitOpcode (o : Operand) (op : UInt8) :
    (ofBitOpcode o op).indexedWork = pure () := by
  simp only [ofBitOpcode]
  split <;> rfl

/-- Whether it is one of them does not depend on the operands. -/
theorem Instruction.movesIndex_ofOpcode_eq (x : IndexRegister) (op p q : UInt8) :
    (ofOpcode (some x) op p q).movesIndex = (ofOpcode (some x) op 0 0).movesIndex := by
  simp only [ofOpcode]
  repeat' split
  all_goals
    unfold movesIndex
    rfl

/-- Five opcodes are run behind an index prefix. -/
theorem Instruction.movesIndex_ofOpcode (x : IndexRegister) (op p q : UInt8) :
    (ofOpcode (some x) op p q).movesIndex = [0x21, 0xE1, 0xE5, 0xE9, 0xF9].contains op := by
  rw [movesIndex_ofOpcode_eq]
  revert op
  apply forall_byte
  cases x <;> decide +kernel

namespace Interpreter

variable {α : Type}

/-- A byte is taken from the program counter, which moves on by one. -/
theorem run_fetchByte_bind (f : UInt8 → Work α) (s : Activity) :
    (fetchByte >>= f).run s = (f (s.cpu.read s.cpu.registers.pc)).run (s.skip 1) := rfl

/-- A word is taken from the program counter, which moves on by two. -/
theorem run_fetchWord_bind (f : UInt16 → Work α) (s : Activity) :
    (fetchWord >>= f).run s =
      (f (wordOf (s.cpu.read s.cpu.registers.pc) (s.cpu.read (s.cpu.registers.pc + 1)))).run
        (s.skip 2) := by
  rw [← or_shiftLeft_eq_wordOf, ← s.skip_skip 1 1]
  rfl

/-- Without an index register, the displacement says nothing about an operand. -/
theorem size_ofCode_none (d : UInt8) (code : Nat) : (Operand.ofCode none d code).size = 0 := by
  show (Operand.plain none d code).size = 0
  unfold Operand.plain
  split <;> rfl

/-- The byte with a code is the operand that the decoder reads the code as. -/
theorem load_eq_fetch {code : UInt8} (h : code < 8) (d : UInt8) :
    load code = (Operand.ofCode none d code.toNat).fetch := by
  obtain rfl | rfl | rfl | rfl | rfl | rfl | rfl | rfl := eq_of_code_lt h
  all_goals rfl

/-- So it is when it is stored. -/
theorem store_eq_store {code : UInt8} (h : code < 8) (d value : UInt8) :
    store code value = (Operand.ofCode none d code.toNat).store value := by
  obtain rfl | rfl | rfl | rfl | rfl | rfl | rfl | rfl := eq_of_code_lt h
  all_goals rfl

/-- Counting up is the work of an increment. -/
theorem count_up_eq_work {code : UInt8} (h : code < 8) (d : UInt8) :
    count code false = (Instruction.inc (.ofCode none d code.toNat)).work := by
  simp only [count, load_eq_fetch h d, store_eq_store h d]
  rfl

/-- Counting down is the work of a decrement. -/
theorem count_down_eq_work {code : UInt8} (h : code < 8) (d : UInt8) :
    count code true = (Instruction.dec (.ofCode none d code.toNat)).work := by
  simp only [count, load_eq_fetch h d, store_eq_store h d]
  rfl

/-- An operation with a code is the one that the decoder reads the code as. -/
theorem operate_eq_operate {code : UInt8} (h : code < 8) (value : UInt8) :
    operate code value = Instruction.work.operate (.ofCode code.toNat) value := by
  simp only [operate, Alu.run_eq_run h]
  rfl

/-- A condition with a code is tested as the decoded condition is. -/
theorem holds_eq_holds {code : UInt8} (h : code < 8) :
    holds code = Work.holds (some (.ofCode code)) := by
  simp only [holds, Registers.condition_eq_holds h]
  rfl

/-- The fields of an opcode byte. -/
theorem opcode_fields (op : UInt8) :
    op.toNat / 64 = (op >>> 6).toNat ∧ op.toNat / 8 % 8 = ((op >>> 3) &&& 7).toNat ∧
      op.toNat % 8 = (op &&& 7).toNat ∧ (op >>> 3) &&& 7 < 8 ∧ op &&& 7 < 8 := by
  revert op
  apply forall_byte
  decide +kernel

/-- The top two bits of an opcode have four values. -/
theorem quarter_cases (op : UInt8) :
    op >>> 6 = 0 ∨ op >>> 6 = 1 ∨ op >>> 6 = 2 ∨ op >>> 6 = 3 := by
  revert op
  apply forall_byte
  decide +kernel

/-- An opcode is put together from its fields. -/
theorem opcode_of_fields (op : UInt8) :
    op = (op >>> 6) <<< 6 ||| ((op >>> 3) &&& 7) <<< 3 ||| (op &&& 7) := by
  revert op
  apply forall_byte
  decide +kernel

/-- What the interpreter runs for an opcode is the work of an instruction with the two bytes behind
the opcode as its operands: it takes none of them, one or both as a word before that work, or it has
nothing to run and neither has the instruction. -/
inductive Runs (work : Instruction → Work Unit) (i : UInt8 → UInt8 → Instruction) :
    Option (Work Unit) → Prop where
  | plain {w : Work Unit} (hwork : ∀ p q, w = work (i p q))
    (hsize : ∀ p q, (i p q).operandSize = 0) : Runs work i (some w)
  | byte {f : UInt8 → Work Unit} (hwork : ∀ p q, f p = work (i p q))
    (hsize : ∀ p q, (i p q).operandSize = 1) : Runs work i (some (fetchByte >>= f))
  | word {f : UInt16 → Work Unit} (hwork : ∀ p q, f (wordOf p q) = work (i p q))
    (hsize : ∀ p q, (i p q).operandSize = 2) : Runs work i (some (fetchWord >>= f))
  | skipped (hwork : ∀ p q, work (i p q) = pure ()) : Runs work i none

/-- The first quarter: relative jumps, loads, sums, counts and the accumulator's own operations. -/
theorem runs_main_low {op : UInt8} (hx : op >>> 6 = 0) :
    Runs Instruction.work (Instruction.ofOpcode none op) (main op) := by
  obtain ⟨hquarter, hmiddle, hlow, hy, hz⟩ := opcode_fields op
  unfold main Instruction.ofOpcode
  simp only [hquarter, hmiddle, hlow, hx]
  generalize (op >>> 3) &&& 7 = y at hy ⊢
  generalize op &&& 7 = z at hz ⊢
  obtain rfl | rfl | rfl | rfl | rfl | rfl | rfl | rfl := eq_of_code_lt hz
  -- No operation, the exchange that is skipped over, and the relative jumps.
  · obtain rfl | rfl | rfl | rfl | rfl | rfl | rfl | rfl := eq_of_code_lt hy
    · exact .plain (fun _ _ => rfl) fun _ _ => rfl
    · exact .skipped fun _ _ => rfl
    all_goals exact .byte (fun _ _ => rfl) fun _ _ => rfl
  -- Loads of a pair alternate with sums.
  · obtain rfl | rfl | rfl | rfl | rfl | rfl | rfl | rfl := eq_of_code_lt hy
    iterate 4
      · exact .word (fun _ _ => rfl) fun _ _ => rfl
      · exact .plain (fun _ _ => rfl) fun _ _ => rfl
  -- Stores and loads at a pair, then those at a word.
  · obtain rfl | rfl | rfl | rfl | rfl | rfl | rfl | rfl := eq_of_code_lt hy
    iterate 4
      · exact .plain (fun _ _ => rfl) fun _ _ => rfl
    iterate 4
      · exact .word (fun _ _ => rfl) fun _ _ => rfl
  -- A pair is counted up or down.
  · obtain rfl | rfl | rfl | rfl | rfl | rfl | rfl | rfl := eq_of_code_lt hy
    all_goals exact .plain (fun _ _ => rfl) fun _ _ => rfl
  · exact .plain (fun p _ => count_up_eq_work hy p) fun p _ => size_ofCode_none p y.toNat
  · exact .plain (fun p _ => count_down_eq_work hy p) fun p _ => size_ofCode_none p y.toNat
  · refine .byte (fun p q => ?_) fun p q => ?_
    · show store y p = (Instruction.load (.ofCode none p y.toNat) _).work
      rw [size_ofCode_none]
      exact store_eq_store hy p p
    · show (Operand.ofCode none p y.toNat).size + 1 = 1
      rw [size_ofCode_none]
  -- Of the operations on the accumulator only the last three are run.
  · obtain rfl | rfl | rfl | rfl | rfl | rfl | rfl | rfl := eq_of_code_lt hy
    iterate 5
      · exact .skipped fun _ _ => rfl
    iterate 3
      · exact .plain (fun _ _ => rfl) fun _ _ => rfl

/-- The second quarter: moves between operands, and the halt among them. -/
theorem runs_main_moves {op : UInt8} (hx : op >>> 6 = 1) :
    Runs Instruction.work (Instruction.ofOpcode none op) (main op) := by
  obtain ⟨hquarter, hmiddle, hlow, hy, hz⟩ := opcode_fields op
  unfold main Instruction.ofOpcode
  simp only [hquarter, hmiddle, hlow, hx]
  generalize (op >>> 3) &&& 7 = y at hy ⊢
  generalize op &&& 7 = z at hz ⊢
  by_cases hhalt : y = 6 ∧ z = 6
  · obtain ⟨rfl, rfl⟩ := hhalt
    exact .plain (fun _ _ => rfl) fun _ _ => rfl
  · have hcode : (y == 6 && z == 6) = false := by
      simpa using hhalt
    have hfield : (y.toNat == 6 && z.toNat == 6) = false := by
      simpa [← UInt8.toNat_inj] using hhalt
    simp only [hcode, hfield]
    -- Without an index register there is one way to read the codes of a move.
    refine .plain (fun p q => ?_) fun p q => ?_
    · show (do store y (← load z)) = (ite _ (Instruction.move (.ofCode none p y.toNat)
        (.ofCode none p z.toNat)) (.move (.ofCode none p y.toNat) (.ofCode none p z.toNat))).work
      rw [ite_self]
      simp only [load_eq_fetch hz p, store_eq_store hy p]
      rfl
    · show (ite _ (Instruction.move (.ofCode none p y.toNat) (.ofCode none p z.toNat))
        (.move (.ofCode none p y.toNat) (.ofCode none p z.toNat))).operandSize = 0
      rw [ite_self]
      show (Operand.ofCode none p y.toNat).size + (Operand.ofCode none p z.toNat).size = 0
      rw [size_ofCode_none, size_ofCode_none]

/-- The third quarter: operations between the accumulator and an operand. -/
theorem runs_main_operations {op : UInt8} (hx : op >>> 6 = 2) :
    Runs Instruction.work (Instruction.ofOpcode none op) (main op) := by
  obtain ⟨hquarter, hmiddle, hlow, hy, hz⟩ := opcode_fields op
  unfold main Instruction.ofOpcode
  simp only [hquarter, hmiddle, hlow, hx]
  generalize (op >>> 3) &&& 7 = y at hy ⊢
  generalize op &&& 7 = z at hz ⊢
  refine .plain (fun p q => ?_) fun p q => size_ofCode_none p z.toNat
  show (do operate y (← load z)) = (Instruction.alu (.ofCode y.toNat) (.ofCode none p z.toNat)).work
  simp only [load_eq_fetch hz p, operate_eq_operate hy]
  rfl

/-- The last quarter: returns, the stack, jumps, calls, ports and immediate operations. -/
theorem runs_main_high {op : UInt8} (hx : op >>> 6 = 3) (hplain : op ∉ [0xCB, 0xDD, 0xED, 0xFD]) :
    Runs Instruction.work (Instruction.ofOpcode none op) (main op) := by
  obtain ⟨hquarter, hmiddle, hlow, hy, hz⟩ := opcode_fields op
  have hop := opcode_of_fields op
  unfold main Instruction.ofOpcode
  simp only [hquarter, hmiddle, hlow, hx, UInt8.ofNat_toNat]
  rw [hx] at hop
  generalize (op >>> 3) &&& 7 = y at hy hop ⊢
  generalize op &&& 7 = z at hz hop ⊢
  obtain rfl | rfl | rfl | rfl | rfl | rfl | rfl | rfl := eq_of_code_lt hz
  · refine .plain (fun p q => ?_) fun _ _ => rfl
    show (do if ← holds y then Work.jumpTo (← Work.pop)) = _
    rw [holds_eq_holds hy]
    rfl
  -- Moves from the stack, then what stands between them.
  · obtain rfl | rfl | rfl | rfl | rfl | rfl | rfl | rfl := eq_of_code_lt hy
    case inr.inr.inr.inl => exact .skipped fun _ _ => rfl
    all_goals exact .plain (fun _ _ => rfl) fun _ _ => rfl
  · refine .word (fun p q => ?_) fun _ _ => rfl
    rw [holds_eq_holds hy]
    rfl
  · obtain rfl | rfl | rfl | rfl | rfl | rfl | rfl | rfl := eq_of_code_lt hy
    · exact .word (fun _ _ => rfl) fun _ _ => rfl
    · exact absurd hop (fun h => hplain (by rw [h]; decide))
    · exact .byte (fun _ _ => rfl) fun _ _ => rfl
    · exact .byte (fun _ _ => rfl) fun _ _ => rfl
    · exact .skipped fun _ _ => rfl
    all_goals exact .plain (fun _ _ => rfl) fun _ _ => rfl
  · refine .word (fun p q => ?_) fun _ _ => rfl
    rw [holds_eq_holds hy]
    rfl
  · obtain rfl | rfl | rfl | rfl | rfl | rfl | rfl | rfl := eq_of_code_lt hy
    case inr.inl => exact .word (fun _ _ => rfl) fun _ _ => rfl
    case inr.inr.inr.inl => exact absurd hop (fun h => hplain (by rw [h]; decide))
    case inr.inr.inr.inr.inr.inl => exact absurd hop (fun h => hplain (by rw [h]; decide))
    case inr.inr.inr.inr.inr.inr.inr => exact absurd hop (fun h => hplain (by rw [h]; decide))
    all_goals exact .plain (fun _ _ => rfl) fun _ _ => rfl
  · exact .byte (fun p _ => operate_eq_operate hy p) fun _ _ => rfl
  · obtain rfl | rfl | rfl | rfl | rfl | rfl | rfl | rfl := eq_of_code_lt hy
    all_goals exact .plain (fun _ _ => rfl) fun _ _ => rfl

/-- Every opcode byte without a prefix runs as the instruction that is decoded from it. -/
theorem runs_main {op : UInt8} (hplain : op ∉ [0xCB, 0xDD, 0xED, 0xFD]) :
    Runs Instruction.work (Instruction.ofOpcode none op) (main op) := by
  obtain hx | hx | hx | hx := quarter_cases op
  · exact runs_main_low hx
  · exact runs_main_moves hx
  · exact runs_main_operations hx
  · exact runs_main_high hx hplain

/-- So does every opcode byte behind ED. -/
theorem runs_extended (op : UInt8) :
    Runs Instruction.work (Instruction.ofExtendedOpcode op) (extended op) := by
  obtain ⟨hquarter, hmiddle, hlow, hy, hz⟩ := opcode_fields op
  unfold extended Instruction.ofExtendedOpcode
  simp only [hquarter, hmiddle, hlow]
  have hx := quarter_cases op
  generalize op >>> 6 = x at hx ⊢
  generalize (op >>> 3) &&& 7 = y at hy ⊢
  generalize op &&& 7 = z at hz ⊢
  obtain rfl | rfl | rfl | rfl := hx
  · exact .skipped fun _ _ => rfl
  · obtain rfl | rfl | rfl | rfl | rfl | rfl | rfl | rfl := eq_of_code_lt hz
    · exact .skipped fun _ _ => rfl
    · exact .skipped fun _ _ => rfl
    · refine .skipped fun _ _ => ?_
      show (ite _ (Instruction.subtractPair _) (.addPairCarry _)).work = _
      split <;> rfl
    · obtain rfl | rfl | rfl | rfl | rfl | rfl | rfl | rfl := eq_of_code_lt hy
      all_goals exact .word (fun _ _ => rfl) fun _ _ => rfl
    · exact .plain (fun _ _ => rfl) fun _ _ => rfl
    · refine .plain (fun p q => ?_) fun p q => ?_
      · show _ = (ite _ Instruction.retInterrupt .retNonMaskable).work
        split <;> rfl
      · show (ite _ Instruction.retInterrupt .retNonMaskable).operandSize = 0
        split <;> rfl
    · exact .skipped fun _ _ => rfl
    · exact .skipped fun _ _ => rfl
  · refine .skipped fun _ _ => ?_
    show (ite _ (Instruction.block _ _ _) (.undefinedExtended _)).work = _
    split <;> rfl
  · exact .skipped fun _ _ => rfl

/-- So does every opcode byte behind an index prefix. -/
theorem runs_indexed (x : IndexRegister) (op : UInt8) :
    Runs Instruction.indexedWork (Instruction.ofOpcode (some x) op) (indexed x.prefixByte op) := by
  by_cases hop : op ∈ [0x21, 0xE1, 0xE5, 0xE9, 0xF9]
  · simp only [List.mem_cons, List.not_mem_nil, or_false] at hop
    obtain rfl | rfl | rfl | rfl | rfl := hop
    · cases x <;> exact .word (fun _ _ => rfl) fun _ _ => rfl
    all_goals cases x <;> exact .plain (fun _ _ => rfl) fun _ _ => rfl
  · have hnone : indexed x.prefixByte op = none := by
      simp only [List.mem_cons, List.not_mem_nil, or_false, not_or] at hop
      unfold indexed
      split <;> simp_all
    rw [hnone]
    refine .skipped fun p q => Instruction.indexedWork_of_movesIndex_eq_false ?_
    rw [Instruction.movesIndex_ofOpcode]
    simpa using hop

/-- Once the interpreter has taken the first bytes of an instruction, what it runs for the opcode
ends as the work of the instruction does from behind the operands on. -/
theorem Runs.run {work : Instruction → Work Unit} {i : UInt8 → UInt8 → Instruction}
    {w? : Option (Work Unit)} (h : Runs work i w?) (s : Activity) (n : Nat) :
    let pc := s.cpu.registers.pc
    let j := i (s.cpu.read (pc + UInt16.ofNat n)) (s.cpu.read (pc + UInt16.ofNat (n + 1)))
    (w?.getD (Work.jumpTo (pc + UInt16.ofNat (n + j.operandSize)))).run (s.skip n) =
      (work j).run (s.skip (n + j.operandSize)) := by
  intro pc j
  have hnext : pc + UInt16.ofNat (n + 1) = pc + UInt16.ofNat n + 1 := by
    rw [UInt16.ofNat_add, ← UInt16.add_assoc]
    rfl
  rw [← s.skip_skip]
  cases h with
  | plain hwork hsize => rw [hsize, Activity.skip_zero, Option.getD_some, hwork]
  | byte hwork hsize =>
    rw [hsize, Option.getD_some, run_fetchByte_bind, hwork]
    rfl
  | word hwork hsize =>
    rw [hsize, Option.getD_some, run_fetchWord_bind, ← hwork, hnext]
    rfl
  | skipped hwork =>
    rw [hwork, s.skip_skip]
    rfl

end Interpreter

namespace Cpu

/-- Where control is sent if the instruction is skipped over. -/
def skipWork (c : Cpu) : Work Unit := Work.jumpTo (c.registers.pc + UInt16.ofNat c.code.size)

/-- The second byte is taken from behind the first. -/
theorem run_second_bind (c : Cpu) (f : UInt8 → Work Unit) :
    (Interpreter.fetchByte >>= f).run (Activity.skip { cpu := c } 1) =
      (f c.code.second).run (Activity.skip { cpu := c } 2) := by
  rw [← Activity.skip_skip _ 1 1]
  rfl

/-- A step takes the first byte and leaves the rest to one of the four tables of opcodes. -/
theorem step_eq_dispatch {c : Cpu} (hrunning : c.registers.halted = false) :
    c.step = ((if c.code.isStrayPrefix then pure ()
      else if c.code.first == 0xDD || c.code.first == 0xFD then
        Interpreter.fetchByte >>= fun op =>
          (Interpreter.indexed c.code.first op).getD c.skipWork
      else if c.code.first == 0xED then
        Interpreter.fetchByte >>= fun op => (Interpreter.extended op).getD c.skipWork
      else if c.code.first == 0xCB then c.skipWork
      else (Interpreter.main c.code.first).getD c.skipWork : Work Unit).run
        (Activity.skip { cpu := c } 1)).2 := by
  rw [step, hrunning]
  rfl

/-- Behind an index prefix that counts, the interpreter runs what is decoded. -/
theorem run_indexed_eq_work {c : Cpu} {x : IndexRegister}
    (hx : IndexRegister.ofPrefix? c.code.first = some x)
    (hstray : Code.overridesIndex c.code.second = false) :
    ((Interpreter.indexed x.prefixByte c.code.second).getD c.skipWork).run
        (Activity.skip { cpu := c } 2) =
      c.code.decode.work.run (Activity.skip { cpu := c } c.code.size) := by
  by_cases hbits : c.code.second = 0xCB
  · have hdecode : c.code.decode = {
        instruction := .ofBitOpcode (.atIndex x c.code.third) c.code.fourth
        index := some x
        size := 4 } := by
      rw [hbits] at hstray
      simp [Code.decode, hx, hstray, hbits]
    rw [skipWork, Code.size, hdecode, hbits]
    show _ = (Instruction.indexedWork (.ofBitOpcode _ _)).run _
    rw [Instruction.indexedWork_ofBitOpcode]
    rfl
  · have hdecode : c.code.decode =
        let i := Instruction.ofOpcode (some x) c.code.second c.code.third c.code.fourth
        { instruction := i, index := some x, size := 2 + i.operandSize } := by
      simp [Code.decode, hx, hstray, hbits]
    rw [skipWork, Code.size, hdecode]
    exact (Interpreter.runs_indexed x c.code.second).run { cpu := c } 2

/-- Behind ED too. -/
theorem run_extended_eq_work {c : Cpu} (hext : c.code.first = 0xED) :
    ((Interpreter.extended c.code.second).getD c.skipWork).run (Activity.skip { cpu := c } 2) =
      c.code.decode.work.run (Activity.skip { cpu := c } c.code.size) := by
  have hdecode : c.code.decode =
      let i := Instruction.ofExtendedOpcode c.code.second c.code.third c.code.fourth
      { instruction := i, size := 2 + i.operandSize } := by
    simp [Code.decode, IndexRegister.ofPrefix?, hext]
  rw [skipWork, Code.size, hdecode]
  exact (Interpreter.runs_extended c.code.second).run { cpu := c } 2

/-- The operations on bits are skipped over. -/
theorem run_skip_eq_work {c : Cpu} (hbits : c.code.first = 0xCB) :
    c.skipWork.run (Activity.skip { cpu := c } 1) =
      c.code.decode.work.run (Activity.skip { cpu := c } c.code.size) := by
  have hdecode : c.code.decode = {
      instruction := .ofBitOpcode (.plain none 0 (c.code.second.toNat % 8)) c.code.second
      size := 2 } := by
    simp [Code.decode, IndexRegister.ofPrefix?, hbits]
  rw [skipWork, Code.size, hdecode]
  show _ = (Instruction.work (.ofBitOpcode _ _)).run _
  rw [Instruction.work_ofBitOpcode]
  rfl

/-- Without a prefix. -/
theorem run_main_eq_work {c : Cpu} (hplain : c.code.Plain) :
    ((Interpreter.main c.code.first).getD c.skipWork).run (Activity.skip { cpu := c } 1) =
      c.code.decode.work.run (Activity.skip { cpu := c } c.code.size) := by
  have hdecode : c.code.decode =
      let i := Instruction.ofOpcode none c.code.first c.code.second c.code.third
      { instruction := i, size := 1 + i.operandSize } := by
    have hbytes := hplain
    simp only [Code.Plain, List.mem_cons, List.not_mem_nil, or_false, not_or] at hbytes
    obtain ⟨hbits, hix, hext, hiy⟩ := hbytes
    simp [Code.decode, IndexRegister.ofPrefix?, hbits, hix, hext, hiy]
  rw [skipWork, Code.size, hdecode]
  exact (Interpreter.runs_main hplain).run { cpu := c } 1

/-- A step does the work of the decoded instruction, from behind its bytes on. -/
theorem step_eq_work {c : Cpu} (hrunning : c.registers.halted = false) :
    c.step = (c.code.decode.work.run (Activity.skip { cpu := c } c.code.size)).2 := by
  rw [step_eq_dispatch hrunning, Code.isStrayPrefix_eq]
  cases hx : IndexRegister.ofPrefix? c.code.first with
  | some x =>
    have hfirst : c.code.first = x.prefixByte := IndexRegister.eq_prefixByte hx
    have hindexed : (c.code.first == 0xDD || c.code.first == 0xFD) = true := by
      rw [hfirst]
      cases x <;> rfl
    cases hstray : Code.overridesIndex c.code.second with
    | true =>
      simp only [Option.isSome_some, Bool.and_self, if_true, Code.size, Code.decode, hx, hstray]
      rfl
    | false =>
      simp only [Option.isSome_some, Bool.true_and, Bool.false_eq_true, if_false, hindexed, if_true]
      rw [run_second_bind, hfirst, run_indexed_eq_work hx hstray]
  | none =>
    have hindex : (c.code.first == 0xDD || c.code.first == 0xFD) = false := by
      unfold IndexRegister.ofPrefix? at hx
      split at hx
      · cases hx
      · split at hx <;> simp_all
    simp only [Option.isSome_none, Bool.false_and, Bool.false_eq_true, if_false, hindex]
    by_cases hext : c.code.first = 0xED
    · rw [if_pos (beq_iff_eq.mpr hext), run_second_bind, run_extended_eq_work hext]
    rw [if_neg (mt beq_iff_eq.mp hext)]
    by_cases hbits : c.code.first = 0xCB
    · rw [if_pos (beq_iff_eq.mpr hbits), run_skip_eq_work hbits]
    · have hplain : c.code.Plain := by
        simp only [Bool.or_eq_false_iff, beq_eq_false_iff_ne] at hindex
        simp [Code.Plain, hext, hbits, hindex]
      rw [if_neg (mt beq_iff_eq.mp hbits), run_main_eq_work hplain]

end Cpu

end Z80Debugger
