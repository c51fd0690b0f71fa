import Z80Debugger.Proofs.Cpu.Frame
import Z80Debugger.Proofs.Instruction.Flow

/-!
# Where a step sends control

The flow of an opcode value promises where control goes when the instruction runs.  A step either
transfers control, or goes on behind the instruction, whose length the decoder gives, or calls a
routine and leaves that same address on the stack.  With a condition the transfer is made exactly if
the flags satisfy it.  `Cpu.step_agrees_with_flow` states this for every running processor,
whatever the bytes at its program counter.
-/

set_option autoImplicit false

namespace Z80Debugger

/-- Setting a register leaves the program counter. -/
@[simp] theorem Register8.pc_set (r : Registers) (value : UInt8) (x : Register8) :
    (x.set r value).pc = r.pc := by
  cases x <;> rfl

/-- Setting an index register leaves the program counter. -/
@[simp] theorem IndexRegister.pc_set (r : Registers) (value : UInt16) (x : IndexRegister) :
    (x.set r value).pc = r.pc := by
  cases x <;> rfl

/-- Setting a pair leaves the program counter. -/
@[simp] theorem Pair.pc_set (r : Registers) (value : UInt16) (p : Pair) :
    (p.set r value).pc = r.pc := by
  cases p with
  | index x => exact x.pc_set r value
  | _ => rfl

/-- The flow of a call, from which control comes back behind the instruction. -/
def Flow.isCall : Flow → Bool
  | call | conditionalCall _ | restart => true
  | _ => false

namespace Cpu

/-- The processor with control sent to an address. -/
def goTo (c : Cpu) (target : UInt16) : Cpu :=
  { c with registers := { c.registers with pc := target } }

/-- The processor after a word was put onto the stack. -/
def pushed (c : Cpu) (w : UInt16) : Cpu :=
  let place := c.registers.sp - 2
  { (c.writeByte place (lowByte w)).writeByte (place + 1) (highByte w) with
    registers := { c.registers with sp := place } }

/-- The processor after a word was taken from the stack. -/
def popped (c : Cpu) : Cpu :=
  { c with registers := { c.registers with sp := c.registers.sp + 2 } }

/-- The address shows a byte of RAM. -/
def Writable (c : Cpu) (address : UInt16) : Prop :=
  c.layout.romSize ≤ c.physical address ∧ c.physical address < c.layout.memorySize

instance (c : Cpu) (address : UInt16) : Decidable (c.Writable address) :=
  inferInstanceAs (Decidable (_ ∧ _))

/-- A word on the stack is read back if its two bytes lie in different cells of RAM. -/
theorem readWord_pushed {c : Cpu} {w : UInt16} (hlow : c.Writable (c.registers.sp - 2))
    (hhigh : c.Writable (c.registers.sp - 2 + 1))
    (hcells : c.physical (c.registers.sp - 2) ≠ c.physical (c.registers.sp - 2 + 1)) :
    (c.pushed w).readWord (c.registers.sp - 2) = w := by
  have hread : ∀ place, (c.pushed w).read place =
      ((c.writeByte (c.registers.sp - 2) (lowByte w)).writeByte (c.registers.sp - 2 + 1)
        (highByte w)).read place := by
    intro place
    rfl
  have hphysical : ∀ place, (c.writeByte (c.registers.sp - 2) (lowByte w)).physical place =
      c.physical place := by
    intro place
    rfl
  have hlowByte : (c.pushed w).read (c.registers.sp - 2) = lowByte w := by
    rw [hread, read_writeByte, if_neg (fun h => hcells h.1), read_writeByte, if_pos ⟨rfl, hlow⟩]
  have hhighByte : (c.pushed w).read (c.registers.sp - 2 + 1) = highByte w := by
    rw [hread, read_writeByte, layout_writeByte, hphysical, if_pos ⟨rfl, hhigh⟩]
  rw [readWord, hlowByte, hhighByte, wordOf_lowByte_highByte]

/-- A word on the stack changes no cell but its own two. -/
theorem read_pushed_of_ne {c : Cpu} {w : UInt16} {cell : UInt32}
    (hlow : cell ≠ c.physical (c.registers.sp - 2))
    (hhigh : cell ≠ c.physical (c.registers.sp - 2 + 1)) :
    (c.pushed w).memory.read cell = c.memory.read cell := by
  have hwrites : (c.pushed w).memory =
      ((c.writeByte (c.registers.sp - 2) (lowByte w)).writeByte (c.registers.sp - 2 + 1)
        (highByte w)).memory := by
    rfl
  rw [hwrites, writeByte, Memory.read_write, if_neg (fun h => hhigh h.1), writeByte,
    Memory.read_write, if_neg (fun h => hlow h.1)]

/-- The address behind the instruction at the program counter. -/
def behind (c : Cpu) : UInt16 := c.registers.pc + UInt16.ofNat c.code.size

/-- A step that only goes on to the address behind the instruction. -/
def passed (c : Cpu) : Activity := { cpu := c.goTo c.behind }

/-- A step that goes elsewhere. -/
def jumped (c : Cpu) (target : UInt16) : Activity := { cpu := c.goTo target }

/-- A step that calls a routine: the address behind the instruction goes onto the stack. -/
def called (c : Cpu) (target : UInt16) : Activity where
  cpu := (c.pushed c.behind).goTo target
  accesses := [.memoryWrite (c.registers.sp - 2), .memoryWrite (c.registers.sp - 2 + 1)]

/-- A step that returns: it goes to the address on the stack, which it takes off. -/
def returned (c : Cpu) : Activity where
  cpu := c.popped.goTo (c.readWord c.registers.sp)
  accesses := [.memoryRead c.registers.sp, .memoryRead (c.registers.sp + 1)]

/-- Where a branch leads: on by its displacement if it is a relative one, else to its word. -/
def branchTarget (c : Cpu) : UInt16 :=
  if c.code.first < 0x40 then c.behind + signExtend c.code.second
  else wordOf c.code.second c.code.third

end Cpu

namespace Work

/-- The work leaves the program counter where it is. -/
def KeepsPc {α : Type} (w : Work α) : Prop :=
  Respects (fun s t => t.cpu.registers.pc = s.cpu.registers.pc) w

namespace KeepsPc

variable {α β : Type}

/-- Parts that leave the program counter do so one after the other. -/
theorem bind {w : Work α} {f : α → Work β} (hw : KeepsPc w) (hf : ∀ a, KeepsPc (f a)) :
    KeepsPc (w >>= f) :=
  fun s => (hf _ _).trans (hw s)

/-- A change of registers that leaves the program counter does so as work. -/
theorem update {f : Registers → Registers} (hf : ∀ r, (f r).pc = r.pc) : KeepsPc (update f) :=
  fun s => hf s.cpu.registers

/-- Fetching an operand leaves the program counter. -/
theorem fetch (o : Operand) : KeepsPc o.fetch := by
  cases o <;> exact fun _ => rfl

/-- Storing an operand leaves the program counter. -/
theorem store (value : UInt8) (o : Operand) : KeepsPc (o.store value) := by
  cases o with
  | register r => exact update fun rs => r.pc_set rs value
  | highHalf x => exact update fun rs => x.pc_set rs _
  | lowHalf x => exact update fun rs => x.pc_set rs _
  | atHl | atIndex => exact fun _ => rfl

/-- An instruction without an effect on the flow leaves the program counter behind it. -/
theorem work {i : Instruction} (hflow : i.flow = .halt ∨ i.flow = .other) : KeepsPc i.work := by
  cases i with
  | djnz | jumpPair | restart | retInterrupt | retNonMaskable =>
    rcases hflow with hflow | hflow <;> cases hflow
  | jumpRelative c | ret c | jump c | call c =>
    cases c <;> rcases hflow with hflow | hflow <;> cases hflow
  | loadPair p w => exact update fun r => p.pc_set r w
  | addPair dst src => exact update fun r => dst.pc_set r _
  | incPair p => exact update fun r => p.pc_set r _
  | decPair p => exact update fun r => p.pc_set r _
  | fetchPair p w => exact bind (fun _ => rfl) fun value => update fun r => p.pc_set r value
  | pop p => exact bind (fun _ => rfl) fun value => update fun r => p.pc_set r value
  | inc o => exact bind (fetch o) fun _ => bind (store _ o) fun _ => update fun _ => rfl
  | dec o => exact bind (fetch o) fun _ => bind (store _ o) fun _ => update fun _ => rfl
  | load o n => exact store n o
  | move dst src => exact bind (fetch src) fun value => store value dst
  | alu op o => exact bind (fetch o) fun _ => update fun _ => rfl
  | accumulator op => cases op <;> exact fun _ => rfl
  | _ => exact fun _ => rfl

/-- Of what runs behind an index prefix, only the jump moves the program counter. -/
theorem indexedWork {i : Instruction} (hflow : i.flow ≠ .indirectJump) : KeepsPc i.indexedWork := by
  unfold Instruction.indexedWork
  split
  · exact work (Or.inr rfl)
  · exact work (Or.inr rfl)
  · exact work (Or.inr rfl)
  · exact absurd rfl hflow
  · exact work (Or.inr rfl)
  · exact fun _ => rfl

end KeepsPc

/-- Work that is done under a condition. -/
def when (cc : Condition) (w : Work Unit) : Work Unit := do if ← holds (some cc) then w

/-- Work under a condition is done exactly if the flags satisfy it. -/
theorem run_when (cc : Condition) (w : Work Unit) (s : Activity) :
    ((when cc w).run s).2 = if cc.holds s.cpu.registers.f then (w.run s).2 else s := by
  have hrun : (when cc w).run s =
      (if cc.holds s.cpu.registers.f = true then w else pure ()).run s := rfl
  rw [hrun]
  split <;> rfl

/-- A call pushes the program counter and goes to its target. -/
theorem run_callTo (target : UInt16) (s : Activity) :
    ((callTo target).run s).2 =
      { cpu := (s.cpu.pushed s.cpu.registers.pc).goTo target
        accesses := s.accesses ++
          [.memoryWrite (s.cpu.registers.sp - 2), .memoryWrite (s.cpu.registers.sp - 2 + 1)] } := by
  have hrun : ((callTo target).run s).2 =
      { cpu := (s.cpu.pushed s.cpu.registers.pc).goTo target
        accesses := s.accesses ++ [.memoryWrite (s.cpu.registers.sp - 2)] ++
          [.memoryWrite (s.cpu.registers.sp - 2 + 1)] } := rfl
  rw [hrun, List.append_assoc]
  rfl

end Work

namespace Cpu

variable {c : Cpu}

/-- From behind an instruction, that is what it is to be called. -/
theorem run_callTo_passed (c : Cpu) (target : UInt16) :
    ((Work.callTo target).run c.passed).2 = c.called target :=
  Work.run_callTo target c.passed

/-- A conditional call calls or passes. -/
theorem run_conditionalCall (c : Cpu) (cc : Condition) (w : UInt16) :
    ((Instruction.call (some cc) w).work.run c.passed).2 =
      if cc.holds c.registers.f then c.called w else c.passed := by
  rw [← run_callTo_passed]
  exact Work.run_when cc (Work.callTo w) c.passed

/-- A conditional return returns or passes. -/
theorem run_conditionalRet (c : Cpu) (cc : Condition) :
    ((Instruction.ret (some cc)).work.run c.passed).2 =
      if cc.holds c.registers.f then c.returned else c.passed :=
  Work.run_when cc (do Work.jumpTo (← Work.pop)) c.passed

/-- A conditional jump jumps or passes. -/
theorem run_conditionalJump (c : Cpu) (cc : Condition) (w : UInt16) :
    ((Instruction.jump (some cc) w).work.run c.passed).2 =
      if cc.holds c.registers.f then c.jumped w else c.passed :=
  Work.run_when cc (Work.jumpTo w) c.passed

/-- So does a conditional relative jump. -/
theorem run_conditionalJumpRelative (c : Cpu) (cc : Condition) (d : UInt8) :
    ((Instruction.jumpRelative (some cc) d).work.run c.passed).2 =
      if cc.holds c.registers.f then c.jumped (c.behind + signExtend d) else c.passed :=
  Work.run_when cc (Work.jumpBy d) c.passed

/-- No interrupt is going to be served. -/
def Quiet (c : Cpu) : Prop := (c.interruptPending && c.registers.iff1) = false

instance (c : Cpu) : Decidable c.Quiet := inferInstanceAs (Decidable (_ = _))

/-- Without an interrupt to serve nothing happens. -/
theorem serveInterrupt_of_quiet (hquiet : c.Quiet) : c.serveInterrupt = c := by
  rw [serveInterrupt, hquiet]
  rfl

/-- An interrupt that is served sends control to the vector. -/
theorem pc_serveInterrupt_of_not_quiet (hserved : ¬ c.Quiet) :
    c.serveInterrupt.registers.pc = interruptVector := by
  rw [Quiet, Bool.not_eq_false] at hserved
  rw [serveInterrupt, if_pos hserved]
  rfl

/-- A processor that runs executes what stands at the program counter. -/
theorem stepOpcode_of_running (hrunning : c.registers.halted = false) :
    c.stepOpcode = c.code.executedOpcode := by
  rw [stepOpcode, hrunning]
  rfl

/-- The opcode is classified as the decoded instruction is. -/
theorem flow_stepOpcode (hrunning : c.registers.halted = false) :
    c.code.decode.instruction.flow = Flow.ofOpcode c.stepOpcode := by
  rw [stepOpcode_of_running hrunning]
  exact c.code.flow_decode

/-- A step does the work of what is decoded, from behind it on. -/
theorem step_of_running (hrunning : c.registers.halted = false) :
    c.step = (c.code.decode.work.run c.passed).2 :=
  step_eq_work hrunning

/-- Without an index prefix a step does the instruction's own work. -/
theorem step_of_index_eq_none (hrunning : c.registers.halted = false)
    (hindex : c.code.decode.index = none) :
    c.step = (c.code.decode.instruction.work.run c.passed).2 := by
  rw [step_of_running hrunning, Decoded.work, hindex]
  rfl

/-- Such a step transfers control, passes, or calls what its class says is a call. -/
theorem step_cases_of_index_eq_none (hrunning : c.registers.halted = false)
    (hindex : c.code.decode.index = none) :
    (Flow.ofOpcode c.stepOpcode).transfersControl = true ∨
      c.step.cpu.registers.pc = c.behind ∨
      (Flow.ofOpcode c.stepOpcode).isCall = true ∧ ∃ target, c.step = c.called target := by
  have hflow := flow_stepOpcode hrunning
  have hshape := c.code.decode.instruction.exists_of_flow
  rw [hflow] at hshape
  rw [step_of_index_eq_none hrunning hindex]
  cases hkind : Flow.ofOpcode c.stepOpcode with
  | halt =>
    have hkeeps := Work.KeepsPc.work (Or.inl (hflow.trans hkind))
    exact Or.inr (Or.inl (hkeeps c.passed))
  | other =>
    have hkeeps := Work.KeepsPc.work (Or.inr (hflow.trans hkind))
    exact Or.inr (Or.inl (hkeeps c.passed))
  | call =>
    rw [hkind] at hshape
    obtain ⟨w, hw⟩ := hshape
    rw [hw]
    exact Or.inr (Or.inr ⟨rfl, w, run_callTo_passed c w⟩)
  | conditionalCall cc =>
    rw [hkind] at hshape
    obtain ⟨w, hw⟩ := hshape
    rw [hw, run_conditionalCall]
    split
    · exact Or.inr (Or.inr ⟨rfl, w, rfl⟩)
    · exact Or.inr (Or.inl rfl)
  | restart =>
    rw [hkind] at hshape
    obtain ⟨v, hv⟩ := hshape
    rw [hv]
    exact Or.inr (Or.inr ⟨rfl, v.toUInt16, run_callTo_passed c v.toUInt16⟩)
  | ret | conditionalRet | interruptRet | jump | indirectJump | branch => exact Or.inl rfl

/-- A step transfers control, or goes on behind the instruction, or calls a routine. -/
theorem step_cases (hrunning : c.registers.halted = false) :
    (Flow.ofOpcode c.stepOpcode).transfersControl = true ∨
      c.step.cpu.registers.pc = c.behind ∨
      (Flow.ofOpcode c.stepOpcode).isCall = true ∧ ∃ target, c.step = c.called target := by
  cases hindex : c.code.decode.index with
  | none => exact step_cases_of_index_eq_none hrunning hindex
  | some x =>
    have hwork : c.step = (c.code.decode.instruction.indexedWork.run c.passed).2 := by
      rw [step_of_running hrunning, Decoded.work, hindex]
      rfl
    by_cases hjump : Flow.ofOpcode c.stepOpcode = .indirectJump
    · rw [hjump]
      exact Or.inl rfl
    · rw [← flow_stepOpcode hrunning] at hjump
      rw [hwork]
      exact Or.inr (Or.inl (Work.KeepsPc.indexedWork hjump c.passed))

/-- A conditional call, return or branch without a prefix is carried out where its condition holds,
and does nothing where it does not. -/
theorem step_of_condition (hrunning : c.registers.halted = false) (hplain : c.code.Plain)
    (cc : Condition) :
    (Flow.ofOpcode c.stepOpcode = .conditionalCall cc → c.step =
      if cc.holds c.registers.f then c.called (wordOf c.code.second c.code.third) else c.passed) ∧
    (Flow.ofOpcode c.stepOpcode = .conditionalRet cc → c.step =
      if cc.holds c.registers.f then c.returned else c.passed) ∧
    (Flow.ofOpcode c.stepOpcode = .branch (some cc) → c.step =
      if cc.holds c.registers.f then c.jumped c.branchTarget else c.passed) := by
  obtain ⟨hindex, hinstruction⟩ := hplain.decode
  have hreads := Instruction.reads_ofOpcode none c.code.first c.code.second c.code.third
  have hshape := c.code.decode.instruction.exists_of_flow
  rw [flow_stepOpcode hrunning] at hshape
  rw [← hinstruction] at hreads
  rw [step_of_index_eq_none hrunning hindex]
  refine ⟨?_, ?_, ?_⟩
  · intro hkind
    rw [hkind] at hshape
    obtain ⟨w, hw⟩ := hshape
    rw [hw] at hreads ⊢
    rw [run_conditionalCall, hreads.1]
  · intro hkind
    rw [hkind] at hshape
    have hret : c.code.decode.instruction = .ret (some cc) := hshape
    rw [hret, run_conditionalRet]
  · intro hkind
    rw [hkind] at hshape
    rcases hshape with ⟨d, hd⟩ | ⟨w, hw⟩
    · rw [hd] at hreads ⊢
      rw [run_conditionalJumpRelative, branchTarget, if_pos hreads.2, hreads.1]
    · rw [hw] at hreads ⊢
      rw [run_conditionalJump, branchTarget, if_neg hreads.2, hreads.1]

/-- Without a prefix, C9 is the return that no condition holds back. -/
theorem decode_of_ret (hopcode : c.code.first = 0xC9) :
    c.code.decode.index = none ∧ c.code.decode.instruction = .ret none := by
  have hplain : c.code.Plain := by
    rw [Code.Plain, hopcode]
    decide
  refine ⟨hplain.decode.1, ?_⟩
  rw [hplain.decode.2, hopcode]
  rfl

/-- The return opcode returns. -/
theorem step_of_ret (hrunning : c.registers.halted = false) (hopcode : c.code.first = 0xC9) :
    c.step = c.returned := by
  obtain ⟨hindex, hret⟩ := decode_of_ret hopcode
  rw [step_of_index_eq_none hrunning hindex, hret]
  rfl

/-- The return opcode is classified as a return. -/
theorem flow_of_ret (hrunning : c.registers.halted = false) (hopcode : c.code.first = 0xC9) :
    Flow.ofOpcode c.stepOpcode = .ret := by
  rw [← flow_stepOpcode hrunning, (decode_of_ret hopcode).2]
  rfl

/-- For every running processor, what a step does to control agrees with the flow of its opcode
value and with the length of the decoded instruction: control is transferred, or it goes on behind
the instruction, or a routine is called and the address behind the instruction is put onto the
stack, from where it is read back if its two bytes lie in different cells of RAM.  Without a prefix,
a conditional call, return or branch goes where it leads if its condition holds of the flags, and
otherwise only goes on. -/
theorem step_agrees_with_flow (hrunning : c.registers.halted = false) :
    ((Flow.ofOpcode c.stepOpcode).transfersControl = true ∨
      c.step.cpu.registers.pc = c.behind ∨
      (Flow.ofOpcode c.stepOpcode).isCall = true ∧
        c.step.cpu.registers.sp = c.registers.sp - 2 ∧
        (∃ target, c.step = c.called target) ∧
        (c.Writable (c.registers.sp - 2) → c.Writable (c.registers.sp - 2 + 1) →
          c.physical (c.registers.sp - 2) ≠ c.physical (c.registers.sp - 2 + 1) →
          c.step.cpu.readWord c.step.cpu.registers.sp = c.behind)) ∧
    (c.code.Plain → ∀ cc,
      (Flow.ofOpcode c.stepOpcode = .conditionalCall cc → c.step =
        if cc.holds c.registers.f then c.called (wordOf c.code.second c.code.third)
        else c.passed) ∧
      (Flow.ofOpcode c.stepOpcode = .conditionalRet cc → c.step =
        if cc.holds c.registers.f then c.returned else c.passed) ∧
      (Flow.ofOpcode c.stepOpcode = .branch (some cc) → c.step =
        if cc.holds c.registers.f then c.jumped c.branchTarget else c.passed)) := by
  constructor
  · rcases step_cases hrunning with htransfers | hbehind | ⟨hcall, target, hstep⟩
    · exact Or.inl htransfers
    · exact Or.inr (Or.inl hbehind)
    · refine Or.inr (Or.inr ⟨hcall, ?_, ⟨target, hstep⟩, ?_⟩)
      · rw [hstep]
        rfl
      · intro hlow hhigh hcells
        rw [hstep]
        exact readWord_pushed hlow hhigh hcells
  · intro hplain cc
    exact step_of_condition hrunning hplain cc

/-- A processor about to call a routine at 9000 if a result was not zero, with its stack in RAM. -/
def conditionallyCalling : Cpu :=
  { standard.load 0x8000 [0xC4, 0x00, 0x90] with registers := { pc := 0x8000, sp := 0xFFF0 } }

/-- With the zero flag clear the call is made, and 8003 is on the stack. -/
theorem step_agrees_with_flow_calling :
    conditionallyCalling.registers.halted = false ∧ conditionallyCalling.code.Plain ∧
      conditionallyCalling.step = conditionallyCalling.called 0x9000 ∧
      (conditionallyCalling.called 0x9000).cpu.readWord 0xFFEE = 0x8003 := by
  have hrunning : conditionallyCalling.registers.halted = false := by
    decide +kernel
  have hplain : conditionallyCalling.code.Plain := by
    decide +kernel
  have hflow : Flow.ofOpcode conditionallyCalling.stepOpcode = .conditionalCall .nonZero := by
    decide +kernel
  have hstep := ((step_agrees_with_flow hrunning).2 hplain .nonZero).1 hflow
  have hholds : Condition.nonZero.holds conditionallyCalling.registers.f = true := by
    decide +kernel
  have hword : wordOf conditionallyCalling.code.second conditionallyCalling.code.third =
      0x9000 := by
    decide +kernel
  rw [if_pos hholds, hword] at hstep
  refine ⟨hrunning, hplain, hstep, ?_⟩
  decide +kernel

end Cpu

end Z80Debugger
