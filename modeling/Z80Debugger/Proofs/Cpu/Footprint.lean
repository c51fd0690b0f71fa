import Z80Debugger.Proofs.Cpu.Frame

/-!
# What a step touches

A step notes its accesses to memory and to ports.  `Cpu.touchesOnly_step` says that the notes leave
nothing out.  Memory changes only where a noted write shows RAM, and ports are sent something only
by the noted writes.  For reads there is no trace of an access in the state, so another run is
compared: whatever is changed in memory cells and ports that no noted read looks at, the step does
the same.  The bytes of the instruction itself are no part of this; reading them is no access.
-/

set_option autoImplicit false

namespace Z80Debugger

namespace Access

/-- The port that the access writes, if it writes one. -/
def portWritten? : Access → Option UInt8
  | portWrite port => some port
  | _ => none

/-- The access looks at one of the cells of memory or at one of the ports. -/
def Reads (c : Cpu) (cells : UInt32 → Prop) (ports : UInt8 → Prop) : Access → Prop
  | memoryRead address => cells (c.physical address)
  | portRead port => ports port
  | _ => False

end Access

namespace Cpu

/-- One of the accesses writes the cell, which is in RAM. -/
def Writes (c : Cpu) (accesses : List Access) (cell : UInt32) : Prop :=
  c.layout.romSize ≤ cell ∧ cell < c.layout.memorySize ∧
    ∃ address, .memoryWrite address ∈ accesses ∧ c.physical address = cell

/-- The processors differ at most in some cells of memory and in what some ports give. -/
structure AgreeOutside (cells : UInt32 → Prop) (ports : UInt8 → Prop) (c d : Cpu) : Prop where
  registers : d.registers = c.registers
  layout : d.layout = c.layout
  banks : d.banks = c.banks
  interruptPending : d.interruptPending = c.interruptPending
  outputs : d.outputs = c.outputs
  instructions : d.instructions = c.instructions
  memory : ∀ cell, ¬ cells cell → d.memory.read cell = c.memory.read cell
  inputs : ∀ port, ¬ ports port → d.inputs port = c.inputs port

/-- The accesses are all that a step of the processor touches. -/
structure TouchesOnly (c : Cpu) (accesses : List Access) : Prop where
  /-- What changes in memory is written by one of them. -/
  writes : ∀ cell, c.step.cpu.memory.read cell ≠ c.memory.read cell → c.Writes accesses cell
  /-- What is sent to ports is sent by the noted writes, in their order. -/
  sends : ∃ sent, c.step.cpu.outputs.toList = c.outputs.toList ++ sent ∧
    sent.map (·.1) = accesses.filterMap Access.portWritten?
  /-- What no noted read looks at does not matter, beside the bytes of the instruction: it stays as
  it is or is written over. -/
  reads : ∀ cells ports d, c.AgreeOutside cells ports d → d.code = c.code →
    (∀ a ∈ accesses, ¬ a.Reads c cells ports) →
    d.step.accesses = c.step.accesses ∧
      c.step.cpu.AgreeOutside (fun cell => cells cell ∧ ¬ c.Writes accesses cell) ports d.step.cpu

variable {c d : Cpu} {accesses : List Access} {cell : UInt32} {cells : UInt32 → Prop}
  {ports : UInt8 → Prop}

/-- An address is translated by the banks alone. -/
theorem physical_congr (hbanks : d.banks = c.banks) (address : UInt16) :
    d.physical address = c.physical address := by
  rw [physical, physical, hbanks]

/-- Which cells are written depends on layout and banks alone. -/
theorem Writes.congr (hwrites : d.Writes accesses cell) (hlayout : d.layout = c.layout)
    (hbanks : d.banks = c.banks) : c.Writes accesses cell := by
  obtain ⟨hram, hfits, address, hmem, hshown⟩ := hwrites
  rw [hlayout] at hram hfits
  exact ⟨hram, hfits, address, hmem, (physical_congr hbanks address).symm.trans hshown⟩

/-- More accesses write no less. -/
theorem Writes.mono (hwrites : c.Writes accesses cell) {more : List Access}
    (hsub : accesses ⊆ more) : c.Writes more cell := by
  obtain ⟨hram, hfits, address, hmem, hshown⟩ := hwrites
  exact ⟨hram, hfits, address, hsub hmem, hshown⟩

/-- A write of a program changes a cell of RAM and no other. -/
theorem writes_of_read_writeByte_ne {address : UInt16} {value : UInt8}
    (hchanged : (c.writeByte address value).memory.read cell ≠ c.memory.read cell) :
    c.Writes [.memoryWrite address] cell := by
  rw [writeByte, Memory.read_write] at hchanged
  split at hchanged
  · next hcell =>
    obtain ⟨rfl, hram, hfits⟩ := hcell
    exact ⟨hram, hfits, address, List.mem_singleton.mpr rfl, rfl⟩
  · exact absurd rfl hchanged

end Cpu

namespace Activity

/-- Between two activities the accesses were noted, and they are all that changed memory and the
ports. -/
structure Notes (s t : Activity) (new : List Access) : Prop where
  accesses : t.accesses = s.accesses ++ new
  banks : t.cpu.banks = s.cpu.banks
  layout : t.cpu.layout = s.cpu.layout
  writes : ∀ cell, t.cpu.memory.read cell ≠ s.cpu.memory.read cell → s.cpu.Writes new cell
  sends : ∃ sent, t.cpu.outputs.toList = s.cpu.outputs.toList ++ sent ∧
    sent.map (·.1) = new.filterMap Access.portWritten?

/-- Work that touches neither memory nor outputs only notes its accesses. -/
theorem notes_of_same {s t : Activity} {new : List Access}
    (haccesses : t.accesses = s.accesses ++ new) (hbanks : t.cpu.banks = s.cpu.banks)
    (hmemory : t.cpu.memory = s.cpu.memory) (houtputs : t.cpu.outputs = s.cpu.outputs)
    (hsends : new.filterMap Access.portWritten? = []) : s.Notes t new where
  accesses := haccesses
  banks := hbanks
  layout := by rw [Cpu.layout, hmemory, Cpu.layout]
  writes _ hchanged := absurd (by rw [hmemory]) hchanged
  sends := ⟨[], by rw [houtputs, List.append_nil], hsends.symm⟩

/-- Accesses are noted one after the other. -/
theorem Notes.trans {s t u : Activity} {first second : List Access} (hst : s.Notes t first)
    (htu : t.Notes u second) : s.Notes u (first ++ second) where
  accesses := by rw [htu.accesses, hst.accesses, List.append_assoc]
  banks := htu.banks.trans hst.banks
  layout := htu.layout.trans hst.layout
  writes := by
    intro cell hchanged
    by_cases hlater : u.cpu.memory.read cell = t.cpu.memory.read cell
    · rw [hlater] at hchanged
      exact (hst.writes cell hchanged).mono (List.subset_append_left _ _)
    · have hwrites := (htu.writes cell hlater).congr hst.layout hst.banks
      exact hwrites.mono (List.subset_append_right _ _)
  sends := by
    obtain ⟨sent, hfirst, hports⟩ := hst.sends
    obtain ⟨later, hsecond, hlater⟩ := htu.sends
    refine ⟨sent ++ later, by rw [hsecond, hfirst, List.append_assoc], ?_⟩
    rw [List.map_append, List.filterMap_append, hports, hlater]

/-- Whatever an instruction does to memory and ports is noted. -/
theorem frame_notes : Work.Frame fun s t => ∃ new, s.Notes t new where
  refl s := ⟨[], notes_of_same (List.append_nil _).symm rfl rfl rfl rfl⟩
  trans _ _ _ := fun ⟨_, hst⟩ ⟨_, htu⟩ => ⟨_, hst.trans htu⟩
  update _ _ := ⟨[], notes_of_same (List.append_nil _).symm rfl rfl rfl rfl⟩
  readByte address _ := ⟨[.memoryRead address], notes_of_same rfl rfl rfl rfl rfl⟩
  input port _ := ⟨[.portRead port], notes_of_same rfl rfl rfl rfl rfl⟩
  writeByte address value s := by
    refine ⟨[.memoryWrite address], rfl, rfl, Cpu.layout_writeByte _ _ _, ?_, [],
      (List.append_nil _).symm, rfl⟩
    intro cell hchanged
    exact Cpu.writes_of_read_writeByte_ne hchanged
  output port value s := by
    refine ⟨[.portWrite port], rfl, rfl, rfl, fun _ hchanged => absurd rfl hchanged,
      [(port, value)], ?_, rfl⟩
    exact Array.toList_push

/-- The activities have noted the same, and their processors differ at most in some cells and ports;
a cell that was written is the same in both. -/
structure AgreeOutside (cells : UInt32 → Prop) (ports : UInt8 → Prop) (s t : Activity) : Prop where
  accesses : t.accesses = s.accesses
  cpu : s.cpu.AgreeOutside (fun cell => cells cell ∧ ¬ s.cpu.Writes s.accesses cell) ports t.cpu

variable {cells : UInt32 → Prop} {ports : UInt8 → Prop} {s t : Activity}

/-- A change of registers keeps two activities in agreement. -/
theorem AgreeOutside.update (hagree : s.AgreeOutside cells ports t) (f : Registers → Registers) :
    AgreeOutside cells ports ((Work.update f).run s).2 ((Work.update f).run t).2 where
  accesses := hagree.accesses
  cpu := { hagree.cpu with registers := congrArg f hagree.cpu.registers }

/-- So does noting an access that writes nothing. -/
theorem AgreeOutside.note (hagree : s.AgreeOutside cells ports t) {a : Access}
    (ha : ∀ address, a ≠ .memoryWrite address) :
    AgreeOutside cells ports ((Work.note a).run s).2 ((Work.note a).run t).2 where
  accesses := congrArg (· ++ [a]) hagree.accesses
  cpu := by
    refine { hagree.cpu with memory := ?_ }
    intro cell hcell
    apply hagree.cpu.memory
    rintro ⟨hcells, hwritten⟩
    refine hcell ⟨hcells, fun hwrites => hwritten ?_⟩
    obtain ⟨hram, hfits, address, hmem, hshown⟩ := hwrites
    rcases List.mem_append.mp hmem with hold | hnew
    · exact ⟨hram, hfits, address, hold, hshown⟩
    · exact absurd (List.mem_singleton.mp hnew).symm (ha address)

/-- Outside the cells both read the same byte. -/
theorem AgreeOutside.read (hagree : s.AgreeOutside cells ports t) {address : UInt16}
    (hother : ¬ cells (s.cpu.physical address)) : t.cpu.read address = s.cpu.read address := by
  rw [Cpu.read, Cpu.physical_congr hagree.cpu.banks, Cpu.read]
  exact hagree.cpu.memory _ fun hhidden => hother hhidden.1

/-- After a write the cell is the same in both, if it is in RAM. -/
theorem AgreeOutside.writeByte (hagree : s.AgreeOutside cells ports t) (address : UInt16)
    (value : UInt8) :
    AgreeOutside cells ports ((Work.writeByte address value).run s).2
      ((Work.writeByte address value).run t).2 where
  accesses := congrArg (· ++ [Access.memoryWrite address]) hagree.accesses
  cpu := by
    refine { hagree.cpu with layout := ?_, memory := ?_ }
    · show (t.cpu.writeByte address value).layout = (s.cpu.writeByte address value).layout
      rw [Cpu.layout_writeByte, Cpu.layout_writeByte, hagree.cpu.layout]
    · intro cell hcell
      have hlayout : t.cpu.memory.layout = s.cpu.memory.layout := hagree.cpu.layout
      show (t.cpu.memory.write (t.cpu.physical address) value).read cell =
        (s.cpu.memory.write (s.cpu.physical address) value).read cell
      rw [Memory.read_write, Memory.read_write, hlayout, Cpu.physical_congr hagree.cpu.banks]
      split
      · rfl
      · next hother =>
        apply hagree.cpu.memory
        rintro ⟨hcells, hwritten⟩
        refine hcell ⟨hcells, fun hwrites => ?_⟩
        obtain ⟨hram, hfits, place, hmem, hshown⟩ :=
          Cpu.Writes.congr hwrites (Cpu.layout_writeByte s.cpu address value) rfl
        rcases List.mem_append.mp hmem with hold | hnew
        · exact hwritten ⟨hram, hfits, place, hold, hshown⟩
        · cases List.mem_singleton.mp hnew
          subst hshown
          exact hother ⟨rfl, hram, hfits⟩

/-- Writing a port keeps two activities in agreement. -/
theorem AgreeOutside.output (hagree : s.AgreeOutside cells ports t) (port value : UInt8) :
    AgreeOutside cells ports ((Work.output port value).run s).2
      ((Work.output port value).run t).2 := by
  have hnoted := hagree.note (a := .portWrite port) (by simp)
  exact ⟨hnoted.accesses,
    { hnoted.cpu with outputs := congrArg (·.push (port, value)) hnoted.cpu.outputs }⟩

end Activity

namespace Work

/-- The work notes what it does, and does the same whatever stands in cells and ports that it does
not note to read. -/
structure Oblivious {α : Type} (w : Work α) : Prop where
  notes : Respects (fun s t => ∃ new, s.Notes t new) w
  agrees : ∀ cells ports s t, s.AgreeOutside cells ports t →
    (∀ a ∈ (w.run s).2.accesses, ¬ a.Reads s.cpu cells ports) →
    (w.run t).1 = (w.run s).1 ∧ (w.run s).2.AgreeOutside cells ports (w.run t).2

/-- Parts that do not look at what they leave open do not do so one after the other. -/
theorem Oblivious.bind {α β : Type} {w : Work α} {f : α → Work β} (hw : Oblivious w)
    (hf : ∀ a, Oblivious (f a)) : Oblivious (w >>= f) where
  notes := Activity.frame_notes.stepwise.bind hw.notes fun a => (hf a).notes
  agrees := by
    intro cells ports s t hagree hunread
    obtain ⟨first, hfirst⟩ := hw.notes s
    obtain ⟨rest, hrest⟩ := (hf (w.run s).1).notes (w.run s).2
    have hwhole : ((w >>= f).run s).2.accesses = (w.run s).2.accesses ++ rest := hrest.accesses
    obtain ⟨hvalue, hbetween⟩ := hw.agrees cells ports s t hagree fun a ha =>
      hunread a (hwhole ▸ List.mem_append_left _ ha)
    -- The banks stay as they are, so the rest of the work reads the same cells.
    have hunread' : ∀ a ∈ ((f (w.run s).1).run (w.run s).2).2.accesses,
        ¬ a.Reads (w.run s).2.cpu cells ports := by
      intro a ha hreads
      apply hunread a ha
      cases a with
      | memoryRead address =>
        rw [Access.Reads, Cpu.physical_congr hfirst.banks] at hreads
        exact hreads
      | memoryWrite | portRead | portWrite => exact hreads
    have hresult := (hf (w.run s).1).agrees cells ports _ _ hbetween hunread'
    show ((f (w.run t).1).run (w.run t).2).1 = ((f (w.run s).1).run (w.run s).2).1 ∧
      ((f (w.run s).1).run (w.run s).2).2.AgreeOutside cells ports
        ((f (w.run t).1).run (w.run t).2).2
    rw [hvalue]
    exact hresult

/-- All instructions are oblivious, for every read of memory or of a port is noted. -/
theorem stepwise_oblivious : Stepwise Oblivious where
  pure a := ⟨Activity.frame_notes.stepwise.pure a, fun _ _ _ _ hagree _ => ⟨rfl, hagree⟩⟩
  bind := Oblivious.bind
  registers := ⟨Activity.frame_notes.stepwise.registers,
    fun _ _ _ _ hagree _ => ⟨hagree.cpu.registers, hagree⟩⟩
  update f := ⟨Activity.frame_notes.update f,
    fun _ _ _ _ hagree _ => ⟨rfl, hagree.update f⟩⟩
  writeByte address value := ⟨Activity.frame_notes.writeByte address value,
    fun _ _ _ _ hagree _ => ⟨rfl, hagree.writeByte address value⟩⟩
  output port value := ⟨Activity.frame_notes.output port value,
    fun _ _ _ _ hagree _ => ⟨rfl, hagree.output port value⟩⟩
  readByte address := by
    refine ⟨Activity.frame_notes.readByte address, ?_⟩
    intro cells ports s t hagree hunread
    have hother : ¬ cells (s.cpu.physical address) :=
      hunread (.memoryRead address) (List.mem_append_right _ (List.mem_singleton.mpr rfl))
    exact ⟨hagree.read hother, hagree.note (by simp)⟩
  input port := by
    refine ⟨Activity.frame_notes.input port, ?_⟩
    intro cells ports s t hagree hunread
    have hother : ¬ ports port :=
      hunread (.portRead port) (List.mem_append_right _ (List.mem_singleton.mpr rfl))
    exact ⟨hagree.cpu.inputs port hother, hagree.note (by simp)⟩

end Work

/-- The noted accesses of a step are all that it touches. -/
theorem Cpu.touchesOnly_step (c : Cpu) : c.TouchesOnly c.step.accesses := by
  obtain ⟨new, hnotes⟩ := Activity.frame_notes.step c
  have hnew : c.step.accesses = new := hnotes.accesses
  refine ⟨?_, ?_, ?_⟩
  · rw [hnew]
    exact hnotes.writes
  · rw [hnew]
    exact hnotes.sends
  · intro cells ports d hagree hcode hunread
    have hwork : d.stepWork = c.stepWork := by
      rw [stepWork, hagree.registers, hcode, stepWork]
    have hstart : Activity.AgreeOutside cells ports { cpu := c } { cpu := d } := by
      refine ⟨rfl, { hagree with memory := ?_ }⟩
      intro cell hcell
      apply hagree.memory
      intro hcells
      refine hcell ⟨hcells, fun hwrites => ?_⟩
      obtain ⟨_, _, address, hmem, _⟩ := hwrites
      cases hmem
    rw [c.step_eq_run] at hunread hnotes
    have hend := ((Work.stepwise_oblivious.stepWork c).agrees cells ports _ _ hstart hunread).2
    rw [c.step_eq_run, d.step_eq_run, hwork]
    refine ⟨hend.accesses, { hend.cpu with memory := ?_ }⟩
    intro cell hcell
    apply hend.cpu.memory
    rintro ⟨hcells, hwritten⟩
    refine hcell ⟨hcells, fun hwrites => hwritten ?_⟩
    exact hwrites.congr hnotes.layout.symm hnotes.banks.symm

end Z80Debugger
