import Z80Debugger.Proofs.Cpu.Interpreter

/-!
# What every instruction has in common

Every instruction is made of a few kinds of steps: it looks at registers and changes them, reads and
writes bytes of memory, and reads and writes ports.  `Work.Stepwise` says of a property of work that
every such step has it and that it passes to work done in sequence; the work of every instruction
then has it.  A frame is a relation that is reflexive and transitive and that holds between the
activities before and after every step, so it holds before and after a whole step of the processor
and the service of an interrupt.  The first use is that neither changes the banks, the layout of
memory, what the ports give, or the count of instructions.
-/

set_option autoImplicit false

namespace Z80Debugger

/-- The work of a whole step: control moves behind the instruction, whose work is then done. -/
def Cpu.stepWork (c : Cpu) : Work Unit :=
  if c.registers.halted then pure ()
  else do
    Work.update fun r => { r with pc := r.pc + UInt16.ofNat c.code.decode.size }
    c.code.decode.work

/-- What the interpreter does is that work. -/
theorem Cpu.step_eq_run (c : Cpu) : c.step = (c.stepWork.run { cpu := c }).2 := by
  unfold Cpu.stepWork
  cases hhalted : c.registers.halted with
  | true =>
    rw [Cpu.step, hhalted]
    rfl
  | false =>
    rw [Cpu.step_eq_work hhalted]
    rfl

namespace Work

/-- A property of work that can be shown of any instruction by looking at its steps. -/
structure Stepwise (P : ∀ {α : Type}, Work α → Prop) : Prop where
  pure : ∀ {α : Type} (a : α), P (Pure.pure a : Work α)
  bind : ∀ {α β : Type} {w : Work α} {f : α → Work β}, P w → (∀ a, P (f a)) → P (w >>= f)
  registers : P registers
  update : ∀ f, P (update f)
  readByte : ∀ address, P (readByte address)
  writeByte : ∀ address value, P (writeByte address value)
  input : ∀ port, P (input port)
  output : ∀ port value, P (output port value)

namespace Stepwise

variable {P : ∀ {α : Type}, Work α → Prop}

/-- Work under a condition has what its parts have. -/
theorem ite (hP : Stepwise P) {c : Prop} [Decidable c] {w : Work Unit} (hw : P w) :
    P (if c then w else Pure.pure ()) := by
  split
  · exact hw
  · exact hP.pure ()

/-- Testing a condition has it. -/
theorem holds (hP : Stepwise P) (c : Option Condition) : P (holds c) := by
  cases c with
  | none => exact hP.pure _
  | some c => exact hP.bind hP.registers fun _ => hP.pure _

/-- Reading a word has it. -/
theorem readWord (hP : Stepwise P) (address : UInt16) : P (readWord address) :=
  hP.bind (hP.readByte _) fun _ => hP.bind (hP.readByte _) fun _ => hP.pure _

/-- Writing a word has it. -/
theorem writeWord (hP : Stepwise P) (address value : UInt16) : P (writeWord address value) :=
  hP.bind (hP.writeByte _ _) fun _ => hP.writeByte _ _

/-- Pushing a word has it. -/
theorem push (hP : Stepwise P) (value : UInt16) : P (push value) :=
  hP.bind (hP.update _) fun _ => hP.bind hP.registers fun _ => hP.writeWord _ _

/-- Popping a word has it. -/
theorem pop (hP : Stepwise P) : P pop :=
  hP.bind hP.registers fun _ => hP.bind (hP.readWord _) fun _ =>
    hP.bind (hP.update _) fun _ => hP.pure _

/-- Calling has it. -/
theorem callTo (hP : Stepwise P) (target : UInt16) : P (callTo target) :=
  hP.bind hP.registers fun _ => hP.bind (hP.push _) fun _ => hP.update _

/-- Fetching an operand has it. -/
theorem fetch (hP : Stepwise P) (o : Operand) : P o.fetch := by
  cases o with
  | register r => exact hP.bind hP.registers fun _ => hP.pure _
  | highHalf x => exact hP.bind hP.registers fun _ => hP.pure _
  | lowHalf x => exact hP.bind hP.registers fun _ => hP.pure _
  | atHl => exact hP.bind hP.registers fun _ => hP.readByte _
  | atIndex x d => exact hP.bind hP.registers fun _ => hP.readByte _

/-- Storing an operand has it. -/
theorem store (hP : Stepwise P) (value : UInt8) (o : Operand) : P (o.store value) := by
  unfold Operand.store
  cases o with
  | register r => exact hP.update _
  | highHalf x => exact hP.update _
  | lowHalf x => exact hP.update _
  | atHl => exact hP.bind hP.registers fun _ => hP.writeByte _ _
  | atIndex x d => exact hP.bind hP.registers fun _ => hP.writeByte _ _

/-- The work of an instruction has what its steps have. -/
theorem work (hP : Stepwise P) (i : Instruction) : P i.work := by
  unfold Instruction.work
  cases i with
  | djnz d =>
    exact hP.bind hP.registers fun _ => hP.bind (hP.update _) fun _ => hP.ite (hP.update _)
  | jumpRelative c d => exact hP.bind (hP.holds c) fun _ => hP.ite (hP.update _)
  | loadPair p w => exact hP.update _
  | addPair dst src => exact hP.update _
  | storeAtPair p => exact hP.bind hP.registers fun _ => hP.writeByte _ _
  | fetchAtPair p =>
    exact hP.bind hP.registers fun _ => hP.bind (hP.readByte _) fun _ => hP.update _
  | storePair w p => exact hP.bind hP.registers fun _ => hP.writeWord _ _
  | fetchPair p w => exact hP.bind (hP.readWord _) fun _ => hP.update _
  | storeA w => exact hP.bind hP.registers fun _ => hP.writeByte _ _
  | fetchA w => exact hP.bind (hP.readByte _) fun _ => hP.update _
  | incPair p => exact hP.update _
  | decPair p => exact hP.update _
  | inc o =>
    exact hP.bind (hP.fetch o) fun _ => hP.bind (hP.store _ o) fun _ => hP.update _
  | dec o =>
    exact hP.bind (hP.fetch o) fun _ => hP.bind (hP.store _ o) fun _ => hP.update _
  | load o n => exact hP.store _ o
  | accumulator op =>
    cases op with
    | cpl => exact hP.update _
    | scf => exact hP.update _
    | ccf => exact hP.update _
    | rlca | rrca | rla | rra | daa => exact hP.pure _
  | halt => exact hP.update _
  | move dst src => exact hP.bind (hP.fetch src) fun _ => hP.store _ dst
  | alu op o => exact hP.bind (hP.fetch o) fun _ => hP.update _
  | aluImmediate op n => exact hP.update _
  | ret c => exact hP.bind (hP.holds c) fun _ => hP.ite (hP.bind hP.pop fun _ => hP.update _)
  | pop p => exact hP.bind hP.pop fun _ => hP.update _
  | push p => exact hP.bind hP.registers fun _ => hP.push _
  | jumpPair p => exact hP.update _
  | loadSp p => exact hP.update _
  | jump c w => exact hP.bind (hP.holds c) fun _ => hP.ite (hP.update _)
  | call c w => exact hP.bind (hP.holds c) fun _ => hP.ite (hP.callTo w)
  | restart v => exact hP.callTo _
  | output port => exact hP.bind hP.registers fun _ => hP.output _ _
  | input port => exact hP.bind (hP.input _) fun _ => hP.update _
  | exDeHl => exact hP.update _
  | disableInterrupts => exact hP.update _
  | enableInterrupts => exact hP.update _
  | negate => exact hP.update _
  | retInterrupt => exact hP.bind hP.pop fun _ => hP.bind (hP.update _) fun _ => hP.update _
  | retNonMaskable => exact hP.bind hP.pop fun _ => hP.bind (hP.update _) fun _ => hP.update _
  | nop | exAf | exx | exStack | shift | testBit | resetBit | setBit | inputC | outputC
  | subtractPair | addPairCarry | interruptMode | system | block | undefinedExtended
  | strayPrefix => exact hP.pure _

/-- Behind an index prefix too. -/
theorem indexedWork (hP : Stepwise P) (i : Instruction) : P i.indexedWork := by
  unfold Instruction.indexedWork
  split
  · exact hP.work _
  · exact hP.work _
  · exact hP.work _
  · exact hP.work _
  · exact hP.work _
  · exact hP.pure _

/-- The work of a decoded instruction has it. -/
theorem decodedWork (hP : Stepwise P) (d : Decoded) : P d.work := by
  unfold Decoded.work
  split
  · exact hP.indexedWork _
  · exact hP.work _

/-- A whole step has it. -/
theorem stepWork (hP : Stepwise P) (c : Cpu) : P c.stepWork := by
  unfold Cpu.stepWork
  split
  · exact hP.pure _
  · exact hP.bind (hP.update _) fun _ => hP.decodedWork _

end Stepwise

/-- The relation holds between the activities before and after a part of the work. -/
def Respects {α : Type} (R : Activity → Activity → Prop) (w : Work α) : Prop :=
  ∀ s, R s (w.run s).2

/-- A relation between activities that every step respects. -/
structure Frame (R : Activity → Activity → Prop) : Prop where
  refl : ∀ s, R s s
  trans : ∀ a b c, R a b → R b c → R a c
  update : ∀ f, Respects R (update f)
  readByte : ∀ address, Respects R (readByte address)
  writeByte : ∀ address value, Respects R (writeByte address value)
  input : ∀ port, Respects R (input port)
  output : ∀ port value, Respects R (output port value)

namespace Frame

variable {R : Activity → Activity → Prop}

/-- What respects a frame is kept by every part of an instruction's work. -/
theorem stepwise (hR : Frame R) : Stepwise (Respects R) where
  pure _ s := hR.refl s
  bind hw hf s := hR.trans _ _ _ (hw s) (hf _ _)
  registers s := hR.refl s
  update := hR.update
  readByte := hR.readByte
  writeByte := hR.writeByte
  input := hR.input
  output := hR.output

/-- A step of the processor respects what the steps of its work respect. -/
theorem step (hR : Frame R) (c : Cpu) : R { cpu := c } c.step := by
  rw [c.step_eq_run]
  exact hR.stepwise.stepWork c { cpu := c }

end Frame

end Work

namespace Cpu

/-- The processors agree on what no instruction changes. -/
structure SameFrame (c d : Cpu) : Prop where
  banks : d.banks = c.banks
  layout : d.layout = c.layout
  interruptPending : d.interruptPending = c.interruptPending
  inputs : d.inputs = c.inputs
  instructions : d.instructions = c.instructions

/-- Agreement on what no instruction changes is a frame. -/
theorem frame_sameFrame : Work.Frame fun s t => s.cpu.SameFrame t.cpu where
  refl _ := ⟨rfl, rfl, rfl, rfl, rfl⟩
  trans _ _ _ hab hbc := ⟨hbc.banks.trans hab.banks, hbc.layout.trans hab.layout,
    hbc.interruptPending.trans hab.interruptPending, hbc.inputs.trans hab.inputs,
    hbc.instructions.trans hab.instructions⟩
  update _ _ := ⟨rfl, rfl, rfl, rfl, rfl⟩
  readByte _ _ := ⟨rfl, rfl, rfl, rfl, rfl⟩
  writeByte _ _ _ := ⟨rfl, layout_writeByte _ _ _, rfl, rfl, rfl⟩
  input _ _ := ⟨rfl, rfl, rfl, rfl, rfl⟩
  output _ _ _ := ⟨rfl, rfl, rfl, rfl, rfl⟩

/-- A step changes neither banks nor layout, raises and serves no interrupt, and leaves the count of
instructions to the core. -/
theorem sameFrame_step (c : Cpu) : c.SameFrame c.step.cpu := frame_sameFrame.step c

/-- The service of an interrupt is no instruction. -/
theorem instructions_serveInterrupt (c : Cpu) :
    c.serveInterrupt.instructions = c.instructions := by
  unfold serveInterrupt
  split
  · exact (frame_sameFrame.stepwise.callTo interruptVector _).instructions
  · rfl

end Cpu

end Z80Debugger
