import Z80Debugger.Disassembly
import Z80Debugger.Proofs.Instruction.Code

/-!
# Decoding reads byte after byte

The decoder is given four bytes at once.  `Code.reader` makes the same instruction from a list of
bytes that it takes one after another, a displacement before an immediate operand, and it fails
where a byte is wanted that is not there.  Only an index prefix looks at a byte without taking it,
since another prefix may follow.  `decoding_is_local` states that the bytes of the instruction and
the second byte are all that the reader asks for, and so all that length and text depend on.
-/

set_option autoImplicit false

namespace Z80Debugger

/-- Takes bytes from the front of a list, and fails if one is wanted and none is left. -/
abbrev ByteReader : Type → Type := StateT (List UInt8) Option

namespace ByteReader

variable {α β γ : Type} {r : ByteReader α} {s : ByteReader β} {bytes more : List UInt8} {a : α}
  {b : β}

/-- The next byte, which is taken. -/
def next : ByteReader UInt8 := fun bytes => match bytes with
  | [] => none
  | byte :: behind => some (byte, behind)

/-- The next byte, which stays where it is. -/
def peek : ByteReader UInt8 := fun bytes => bytes.head?.map fun byte => (byte, bytes)

/-- A word, the low byte first. -/
def word : ByteReader UInt16 := do
  let lo ← next
  let hi ← next
  return wordOf lo hi

/-- The reader takes exactly these bytes, whatever follows them, and gives the value. -/
def Reads (r : ByteReader α) (bytes : List UInt8) (a : α) : Prop :=
  ∀ behind, r.run (bytes ++ behind) = some (a, behind)

/-- A value takes no byte. -/
theorem reads_pure (a : α) : Reads (pure a) [] a := fun _ => rfl

/-- One byte is taken. -/
theorem reads_next (byte : UInt8) : next.Reads [byte] byte := fun _ => rfl

/-- Readers take their bytes one after the other. -/
theorem Reads.bind {f : α → ByteReader β} (hr : r.Reads bytes a) (hf : (f a).Reads more b) :
    Reads (r >>= f) (bytes ++ more) b := by
  intro behind
  rw [StateT.run_bind, List.append_assoc, hr]
  exact hf behind

/-- What is read may be turned into something else. -/
theorem Reads.map (hr : r.Reads bytes a) (f : α → β) :
    Reads (r >>= fun a => pure (f a)) bytes (f a) := by
  have hbind : Reads (r >>= fun a => pure (f a)) (bytes ++ []) (f a) := hr.bind (reads_pure _)
  rwa [List.append_nil] at hbind

/-- A byte that is looked at is not taken. -/
theorem Reads.peek {byte : UInt8} {f : UInt8 → ByteReader β}
    (hf : (f byte).Reads (byte :: more) b) : Reads (peek >>= f) (byte :: more) b := hf

/-- If one of two readers takes nothing, the other takes what there is for both. -/
theorem Reads.pair {m n : Nat} (hr : r.Reads (bytes.take m) a) (hs : s.Reads (bytes.take n) b)
    (honce : m = 0 ∨ n = 0) (f : α → β → γ) :
    Reads (r >>= fun a => s >>= fun b => pure (f a b)) (bytes.take (m + n)) (f a b) := by
  have hboth : Reads (r >>= fun a => s >>= fun b => pure (f a b))
      (bytes.take m ++ bytes.take n) (f a b) := hr.bind (hs.map (f a))
  rcases honce with rfl | rfl
  · rwa [Nat.zero_add]
  · rwa [List.take_zero, List.append_nil] at hboth

/-- A reader that takes the first bytes leaves the others, however many there are. -/
theorem Reads.run_take {m n : Nat} (hr : r.Reads (bytes.take m) a) (hm : m ≤ bytes.length)
    (hmn : m ≤ n) (behind : List UInt8) :
    r.run (bytes.take n ++ behind) = some (a, (bytes.take n ++ behind).drop m) := by
  have hsplit := List.take_append_drop m (bytes.take n)
  rw [List.take_take, Nat.min_eq_left hmn] at hsplit
  rw [← hsplit, List.append_assoc, hr, List.drop_left' (List.length_take_of_le hm)]

end ByteReader

open ByteReader

/-- Every code but 6 stands for a register. -/
theorem Register8.exists_ofCode? {code : Nat} (hcode : code < 8) (hregister : code ≠ 6) :
    ∃ r, ofCode? code = some r := by
  unfold ofCode?
  split
  case h_8 =>
    simp_all only [imp_false]
    omega
  all_goals exact ⟨_, rfl⟩

namespace Operand

/-- The operand with its displacement, if it has one, read anew. -/
def reread : Operand → ByteReader Operand
  | atIndex x _ => do
    let d ← next
    return atIndex x d
  | o => return o

/-- A register takes no byte. -/
theorem size_plain (x : Option IndexRegister) (d : UInt8) {code : Nat} (hcode : code < 8)
    (hregister : code ≠ 6) : (plain x d code).size = 0 := by
  obtain ⟨r, hr⟩ := Register8.exists_ofCode? hcode hregister
  rw [plain, hr]
  rfl

/-- A register takes no byte, whatever the prefix is. -/
theorem size_ofCode (x : Option IndexRegister) (d : UInt8) {code : Nat} (hcode : code < 8)
    (hregister : code ≠ 6) : (ofCode x d code).size = 0 := by
  unfold ofCode
  split
  · rfl
  · rfl
  · exact size_plain x d hcode hregister

/-- An operand without halves of index registers is read again from the bytes that it takes. -/
theorem reread_plain (x : Option IndexRegister) (p q : UInt8) (code : Nat) :
    (plain x 0 code).reread.Reads ([p, q].take (plain x p code).size) (plain x p code) := by
  unfold plain
  split
  · exact reads_pure _
  · cases x with
    | none => exact reads_pure _
    | some x => exact (reads_next p).map (atIndex x)

/-- Every operand is read again from the bytes that it takes. -/
theorem reread_ofCode (x : Option IndexRegister) (p q : UInt8) (code : Nat) :
    (ofCode x 0 code).reread.Reads ([p, q].take (ofCode x p code).size) (ofCode x p code) := by
  unfold ofCode
  split
  · exact reads_pure _
  · exact reads_pure _
  · exact reread_plain x p q code

end Operand

namespace Instruction

/-- The instruction with its operands read anew, in the order in which they stand. -/
def reread : Instruction → ByteReader Instruction
  | djnz _ => return djnz (← next)
  | jumpRelative cc _ => return jumpRelative cc (← next)
  | loadPair p _ => return loadPair p (← word)
  | storePair _ p => return storePair (← word) p
  | fetchPair p _ => return fetchPair p (← word)
  | storeA _ => return storeA (← word)
  | fetchA _ => return fetchA (← word)
  | inc o => return inc (← o.reread)
  | dec o => return dec (← o.reread)
  | load o _ => do
    let o ← o.reread
    let n ← next
    return load o n
  | move dst src => do
    let dst ← dst.reread
    let src ← src.reread
    return move dst src
  | alu op o => return alu op (← o.reread)
  | aluImmediate op _ => return aluImmediate op (← next)
  | jump cc _ => return jump cc (← word)
  | call cc _ => return call cc (← word)
  | output _ => return output (← next)
  | input _ => return input (← next)
  | i => return i

/-- The value of a load stands behind the displacement, if there is one. -/
theorem reread_load (x : Option IndexRegister) (p q n : UInt8) (code : Nat) :
    let dst := Operand.ofCode x p code
    (load (.ofCode x 0 code) n).reread.Reads ([p, q].take (dst.size + 1))
      (load dst (if dst.size == 0 then p else q)) := by
  intro dst
  have hdst : (Operand.ofCode x 0 code).reread.Reads ([p, q].take dst.size) dst :=
    Operand.reread_ofCode x p q code
  obtain hnone | hone : dst.size = 0 ∨ dst.size = 1 := by
    have := dst.size_le_one
    omega
  · rw [hnone] at hdst ⊢
    exact hdst.bind ((reads_next p).map (load dst))
  · rw [hone] at hdst ⊢
    exact hdst.bind ((reads_next q).map (load dst))

/-- The opcode says which instruction it is.  Reading its operands from the bytes behind the opcode
gives what the decoder makes of opcode and bytes together. -/
theorem reread_ofOpcode (x : Option IndexRegister) (op p q : UInt8) :
    (ofOpcode x op 0 0).reread.Reads ([p, q].take (ofOpcode x op p q).operandSize)
      (ofOpcode x op p q) := by
  have hy : op.toNat / 8 % 8 < 8 := Nat.mod_lt _ (by omega)
  have hz : op.toNat % 8 < 8 := Nat.mod_lt _ (by omega)
  simp only [ofOpcode]
  -- The fields of the opcode alone decide, so both sides take the same branch.
  repeat' first | exact reread_load x p q _ _ | split
  all_goals try exact fun _ => rfl
  -- What is left are the operands that can be places in memory.
  · exact (Operand.reread_ofCode x p q _).map inc
  · exact (Operand.reread_ofCode x p q _).map dec
  · next hboth heither =>
    apply (Operand.reread_plain x p q _).pair (Operand.reread_plain x p q _)
    by_cases hdst : op.toNat / 8 % 8 = 6
    · have hsrc : op.toNat % 8 ≠ 6 := fun h => hboth (by simp [hdst, h])
      exact Or.inr (Operand.size_plain x p hz hsrc)
    · exact Or.inl (Operand.size_plain x p hy hdst)
  · next heither =>
    apply (Operand.reread_ofCode x p q _).pair (Operand.reread_ofCode x p q _)
    have hdst : op.toNat / 8 % 8 ≠ 6 := fun h => heither (by simp [h])
    exact Or.inl (Operand.size_ofCode x p hy hdst)
  · exact (Operand.reread_ofCode x p q _).map (alu _)

/-- What is decoded behind ED is read again from the bytes that it takes. -/
theorem reread_ofExtendedOpcode (op p q : UInt8) :
    (ofExtendedOpcode op 0 0).reread.Reads ([p, q].take (ofExtendedOpcode op p q).operandSize)
      (ofExtendedOpcode op p q) := by
  simp only [ofExtendedOpcode]
  repeat' split
  all_goals exact fun _ => rfl

end Instruction

namespace Code

/-- What stands behind an index prefix. -/
def indexedReader (x : IndexRegister) : ByteReader (Instruction × Option IndexRegister) := do
  let ahead ← peek
  if overridesIndex ahead then return (.strayPrefix x, none)
  else
    let op ← next
    if op == 0xCB then
      -- The displacement stands before the opcode of the bit operation.
      let d ← next
      let op ← next
      return (.ofBitOpcode (.atIndex x d) op, some x)
    else
      let i ← (Instruction.ofOpcode (some x) op 0 0).reread
      return (i, some x)

/-- What stands behind a first byte that is no index prefix. -/
def plainReader (first : UInt8) : ByteReader (Instruction × Option IndexRegister) :=
  if first == 0xED then do
    let op ← next
    let i ← (Instruction.ofExtendedOpcode op 0 0).reread
    return (i, none)
  else if first == 0xCB then do
    let op ← next
    return (.ofBitOpcode (.plain none 0 (op.toNat % 8)) op, none)
  else do
    let i ← (Instruction.ofOpcode none first 0 0).reread
    return (i, none)

/-- What stands behind the first byte. -/
def readerBehind (first : UInt8) : ByteReader (Instruction × Option IndexRegister) :=
  match IndexRegister.ofPrefix? first with
  | some x => indexedReader x
  | none => plainReader first

/-- The next instruction, with the index prefix before it. -/
def reader : ByteReader (Instruction × Option IndexRegister) := do
  let first ← next
  readerBehind first

/-- The four bytes in their order. -/
def bytes (c : Code) : List UInt8 := [c.first, c.second, c.third, c.fourth]

variable {c other : Code} {x : IndexRegister}

/-- The first two bytes stand before the others. -/
theorem take_bytes_two_add (c : Code) (n : Nat) :
    c.bytes.take (2 + n) = c.first :: c.second :: [c.third, c.fourth].take n := by
  rw [Nat.add_comm]
  rfl

/-- The first byte stands before the others. -/
theorem take_bytes_one_add (c : Code) {n : Nat} (hn : n ≤ 2) :
    c.bytes.take (1 + n) = c.first :: [c.second, c.third].take n := by
  match n, hn with
  | 0, _ | 1, _ | 2, _ => rfl

/-- Behind an index prefix the reader knows the index register. -/
theorem readerBehind_of_index (hx : IndexRegister.ofPrefix? c.first = some x) :
    readerBehind c.first = indexedReader x := by
  rw [readerBehind, hx]

/-- With an index prefix that counts, the reader takes what is decoded. -/
theorem reads_of_index (hx : IndexRegister.ofPrefix? c.first = some x)
    (hahead : ¬overridesIndex c.second = true) :
    reader.Reads (c.bytes.take c.size) (c.decode.instruction, c.decode.index) := by
  simp only [size, decode, hx, if_neg hahead]
  by_cases hbits : (c.second == 0xCB) = true
  · rw [if_pos hbits]
    apply (reads_next c.first).bind
    rw [readerBehind_of_index hx]
    apply Reads.peek
    rw [if_neg hahead]
    apply (reads_next c.second).bind
    rw [if_pos hbits]
    exact (reads_next c.third).bind ((reads_next c.fourth).map _)
  · rw [if_neg hbits, take_bytes_two_add]
    apply (reads_next c.first).bind
    rw [readerBehind_of_index hx]
    apply Reads.peek
    rw [if_neg hahead]
    apply (reads_next c.second).bind
    rw [if_neg hbits]
    exact (Instruction.reread_ofOpcode (some x) c.second c.third c.fourth).map _

/-- Without an index prefix the reader takes what is decoded. -/
theorem reads_of_plain (hx : IndexRegister.ofPrefix? c.first = none) :
    reader.Reads (c.bytes.take c.size) (c.decode.instruction, c.decode.index) := by
  have hbehind : readerBehind c.first = plainReader c.first := by
    rw [readerBehind, hx]
  simp only [size, decode, hx]
  by_cases hextended : (c.first == 0xED) = true
  · rw [if_pos hextended, take_bytes_two_add]
    apply (reads_next c.first).bind
    rw [hbehind, plainReader, if_pos hextended]
    exact (reads_next c.second).bind
      ((Instruction.reread_ofExtendedOpcode c.second c.third c.fourth).map _)
  · rw [if_neg hextended]
    by_cases hbits : (c.first == 0xCB) = true
    · rw [if_pos hbits]
      apply (reads_next c.first).bind
      rw [hbehind, plainReader, if_neg hextended, if_pos hbits]
      exact (reads_next c.second).map _
    · rw [if_neg hbits, take_bytes_one_add c (Instruction.operandSize_le_two _)]
      apply (reads_next c.first).bind
      rw [hbehind, plainReader, if_neg hextended, if_neg hbits]
      exact (Instruction.reread_ofOpcode none c.first c.second c.third).map _

/-- An index prefix before another prefix is taken alone, and the other one stays. -/
theorem run_of_stray (hx : IndexRegister.ofPrefix? c.first = some x)
    (hahead : overridesIndex c.second = true) (behind : List UInt8) :
    reader.run (c.bytes.take (max c.size 2) ++ behind) =
      some ((c.decode.instruction, c.decode.index),
        (c.bytes.take (max c.size 2) ++ behind).drop c.size) := by
  have hdecode : c.decode = { instruction := .strayPrefix x, size := 1 } := by
    simp only [decode, hx, if_pos hahead]
  rw [size, hdecode]
  show (readerBehind c.first).run (c.second :: behind) = _
  rw [readerBehind_of_index hx]
  show StateT.run (if overridesIndex c.second = true then _ else _) (c.second :: behind) = _
  rw [if_pos hahead]
  rfl

/-- From the bytes of the instruction and the second byte the reader makes the decoder's
instruction, and has then taken as many bytes as the decoder says. -/
theorem run_reader (c : Code) (behind : List UInt8) :
    reader.run (c.bytes.take (max c.size 2) ++ behind) =
      some ((c.decode.instruction, c.decode.index),
        (c.bytes.take (max c.size 2) ++ behind).drop c.size) := by
  have hlength : c.size ≤ c.bytes.length := c.size_bounds.2
  have hseen : c.size ≤ max c.size 2 := Nat.le_max_left _ _
  cases hx : IndexRegister.ofPrefix? c.first with
  | none => exact (reads_of_plain hx).run_take hlength hseen behind
  | some x =>
    by_cases hahead : overridesIndex c.second = true
    · exact run_of_stray hx hahead behind
    · exact (reads_of_index hx hahead).run_take hlength hseen behind

/-- Four bytes that begin with the bytes of an instruction, and have its second byte, are decoded
as that instruction. -/
theorem decode_congr (hsame : other.bytes.take (max c.size 2) = c.bytes.take (max c.size 2)) :
    other.decode = c.decode := by
  -- The reader is run on the other bytes: once as theirs, once as the first ones with others
  -- behind.
  have hother : other.bytes = c.bytes.take (max c.size 2) ++ other.bytes.drop (max c.size 2) := by
    rw [← hsame, List.take_append_drop]
  have hown := other.run_reader (other.bytes.drop (max other.size 2))
  have hread := c.run_reader (other.bytes.drop (max c.size 2))
  rw [List.take_append_drop] at hown
  rw [← hother, hown] at hread
  simp only [Option.some.injEq, Prod.mk.injEq] at hread
  obtain ⟨⟨hinstruction, hindex⟩, hleft⟩ := hread
  have hsize : other.size = c.size := by
    have hlength := congrArg List.length hleft
    have hfour : other.bytes.length = 4 := rfl
    have hbounds := c.size_bounds
    have hbounds' := other.size_bounds
    simp only [List.length_drop, hfour] at hlength
    omega
  calc other.decode
      = { instruction := other.decode.instruction, index := other.decode.index,
          size := other.size } := rfl
    _ = { instruction := c.decode.instruction, index := c.decode.index, size := c.size } := by
      rw [hinstruction, hindex, hsize]
    _ = c.decode := rfl

-- The second byte counts even where the length is one.
example : ({ first := 0xDD, second := 0xFD, third := 0, fourth := 0 } : Code).size = 1 ∧
    ({ first := 0xDD, second := 0x23, third := 0, fourth := 0 } : Code).size = 2 := by decide

/-- Take any four bytes, any address, and any names for words: those of a table of symbols or none
at all.  The instruction takes one byte to four, and the next line is as many bytes behind the
address.  The reader is content with the bytes of the instruction and the second byte, so it never
asks for a fifth one; whatever follows them, it makes the same instruction and has then taken as
many bytes as the instruction is long.  Any other four bytes that agree on these have the same
length and the same line. -/
theorem decoding_is_local (c : Code) (names : UInt32 → Option String) (address : UInt32) :
    let seen := max c.size 2
    (1 ≤ c.size ∧ c.size ≤ 4) ∧
    (c.line names address).next = address + UInt32.ofNat c.size ∧
    (∀ behind, reader.run (c.bytes.take seen ++ behind) =
      some ((c.decode.instruction, c.decode.index), (c.bytes.take seen ++ behind).drop c.size)) ∧
    ∀ other : Code, other.bytes.take seen = c.bytes.take seen →
      other.size = c.size ∧ other.line names address = c.line names address := by
  intro seen
  refine ⟨c.size_bounds, rfl, c.run_reader, ?_⟩
  intro other hsame
  have hdecode : other.decode = c.decode := decode_congr hsame
  have hsize : other.size = c.size := congrArg Decoded.size hdecode
  refine ⟨hsize, ?_⟩
  rw [line, line, hsize, hdecode]

end Code

end Z80Debugger
