import Z80Debugger.Proofs.Debugger.Operation
import Z80Debugger.Proofs.Listing.Selection

/-!
# The selected line is on the screen

A command acts on the selected line, so a user has to see it.  Operations that do not change the
view move the cursor in it, if they touch it: `moves_perform`.  `Debugger.Steady` says that the
cursor of a debugger is anchored in the listing of its processor.  A debugger is steady when it has
been given a core, and whatever a user does to look around keeps it so; `selection_is_shown` says
what this means for the rows that are shown.
-/

set_option autoImplicit false

namespace Z80Debugger

/-- A change of the breakpoints leaves the processor. -/
theorem Machine.cpu?_storeChanged {α : Type} (m : Machine)
    (f : Store → Traps → α × Store × Traps) : (Operation.storeChanged m f).cpu? = m.cpu? := by
  obtain ⟨core, paused, stepper, store, lastStop⟩ := m
  cases core <;> rfl

namespace Debugger

variable {d after : Debugger} {c : Cpu} {lines : Nat}

/-- With a processor the cursor moves as the function says. -/
theorem moveCursor_of_cpu (hcpu : d.cpu? = some c) (f : Cpu → Cursor → Cursor) :
    d.moveCursor f = { d with cursor := f c d.cursor } := by
  rw [moveCursor, hcpu]

/-- The cursor moves in the listing of the processor, if there is one. -/
theorem moves_moveCursor {f : Cpu → Cursor → Cursor}
    (hf : ∀ c, d.cursor.Moves (some (d.listing c)) (f c d.cursor)) :
    d.cursor.Moves (d.cpu?.map d.listing) (d.moveCursor f).cursor := by
  unfold moveCursor
  split
  · next c hcpu =>
    rw [hcpu]
    exact hf c
  · exact .stay

/-- Showing the program counter is a move of the cursor, wherever that is. -/
theorem moves_goToPc (d : Debugger) (l? : Option Listing) : d.cursor.Moves l? d.goToPc.cursor := by
  unfold goToPc moveCursor
  split
  · exact .goToPc _
  · exact .stay

/-- Setting a breakpoint leaves the cursor. -/
theorem cursor_setBreakpoint (d : Debugger) (text : String) (existing : Option BreakpointId) :
    (d.perform (.setBreakpoint text existing)).2.cursor = d.cursor := by
  simp only [perform, setBreakpoint]
  cases Breakpoint.parse d.defaults d.context text with
  | error cause => rfl
  | ok b =>
    simp only
    cases d.machine.updateStore (putBreakpoint existing b) <;> rfl

/-- So does a change of a breakpoint. -/
theorem cursor_changeBreakpoint (d : Debugger) (id : BreakpointId)
    (f : Store → Traps → Option (Store × Traps)) :
    (d.conclude .lookup (d.changeBreakpoint id f)).2.cursor = d.cursor := by
  unfold changeBreakpoint
  split
  · rfl
  · cases d.machine.updateStore? f <;> rfl

/-- So does a toggle. -/
theorem cursor_toggle (d : Debugger) (address : UInt32) :
    (d.concludeToggle (d.toggle address)).2.cursor = d.cursor := by
  unfold toggle
  cases d.machine.updateStore fun store traps => store.toggle traps address d.viewSpace with
  | none => rfl
  | some pair =>
    obtain ⟨done, machine⟩ := pair
    cases done with
    | removed id => rfl
    | added id =>
      simp only [Option.map_some, concludeToggle]
      split <;> rfl

/-- An operation that does not change the view moves the cursor in it. -/
theorem moves_perform (d : Debugger) {op : Operation} (hview : ∀ view, op ≠ .setView view) :
    d.cursor.Moves (d.cpu?.map d.listing) (d.perform op).2.cursor := by
  cases op with
  | setBreakpoint text existing =>
    rw [cursor_setBreakpoint]
    exact .stay
  | removeBreakpoint | setEnabled =>
    simp only [perform, removeBreakpoint, setEnabled, cursor_changeBreakpoint]
    exact .stay
  | toggle | toggleSelected =>
    simp only [perform, toggleSelected, cursor_toggle]
    exact .stay
  | stepInto | stepOver | finish | run | pause | machine => exact .stay
  | goTo text =>
    simp only [perform, Debugger.goTo]
    cases d.addressOf? (Text.trim text.toList) with
    | none => exact .stay
    | some address => exact .goTo address
  | goToPc => exact d.moves_goToPc _
  | goToStack entry =>
    simp only [perform, goToStack]
    split
    · exact d.moves_goToPc _
    · exact moves_moveCursor fun _ => .goTo _
  | scroll delta => exact moves_moveCursor fun _ => .scroll rfl delta
  | move direction => exact moves_moveCursor fun _ => .move rfl direction
  | setView view => exact (hview view rfl).elim
  -- Both show the program counter of the core that is attached then.
  | attach core => exact moves_goToPc { d with machine := (d.machine.replaceCore (some core)).2 } _
  | coreChanged => exact moves_goToPc { d with machine := d.machine.reset } _
  | disassembly =>
    simp only [perform, disassembly]
    split
    · exact .stay
    · next c hcpu => exact .sync (by rw [hcpu]; rfl) _
  | loadSymbols name contents =>
    simp only [perform, loadSymbols]
    cases d.symbols.load name contents <;> exact .stay

/-- No operation changes the number of lines. -/
theorem lines_perform (d : Debugger) (op : Operation) :
    (d.perform op).2.cursor.lines = d.cursor.lines := by
  by_cases hview : ∃ view, op = .setView view
  · obtain ⟨view, rfl⟩ := hview
    exact (moves_goToPc { d with cursor := d.cursor.setView view } none).lines_eq
  · exact (d.moves_perform (not_exists.mp hview)).lines_eq

/-- Any operations leave the number of lines. -/
theorem lines_performAll (d : Debugger) (ops : List Operation) :
    (d.performAll ops).cursor.lines = d.cursor.lines := by
  induction ops generalizing d with
  | nil => rfl
  | cons op ops ih => exact (ih _).trans (d.lines_perform op)

/-- The cursor of a new debugger goes to the program counter, if there is one. -/
theorem moves_ofCore (core : Option Core) (options : DebuggerOptions) (l? : Option Listing) :
    (Cursor.ofLines options.lines options.view).Moves l? (ofCore core options).cursor := by
  unfold ofCore goToPc moveCursor
  split
  · exact .goToPc _
  · exact .stay

/-- A new debugger shows at least one line. -/
theorem lines_ofCore (core : Option Core) (options : DebuggerOptions) :
    (ofCore core options).cursor.lines = max options.lines 1 :=
  (moves_ofCore core options none).lines_eq

/-- The debugger is attached to a processor, and its cursor is anchored in the listing of it. -/
structure Steady (d : Debugger) (c : Cpu) (lines : Nat) : Prop where
  cpu : d.cpu? = some c
  lines : d.cursor.lines = lines
  anchored : d.cursor.Anchored (d.listing c)

/-- Showing the program counter makes a debugger steady. -/
theorem steady_goToPc (hcpu : d.cpu? = some c) (hlines : d.cursor.lines = lines)
    (hpos : 0 < lines) : d.goToPc.Steady c lines := by
  rw [goToPc, moveCursor_of_cpu hcpu]
  exact ⟨hcpu, hlines, Cursor.anchored_goToPc rfl (by omega) _⟩

/-- A debugger stays steady as long as the processor stays and the cursor moves in its listing. -/
theorem Steady.moves (h : d.Steady c lines) (hcpu : after.cpu? = d.cpu?)
    (hmoves : d.cursor.Moves (d.cpu?.map d.listing) after.cursor) : after.Steady c lines where
  cpu := hcpu.trans h.cpu
  lines := hmoves.lines_eq.trans h.lines
  anchored := by
    rw [h.cpu] at hmoves
    have hanchored := h.anchored.moves hmoves
    have hview : after.cursor.view = d.cursor.view := hanchored.view
    -- There may be other symbols now, but they do not change where lines end.
    rw [listing, hview]
    exact hanchored.congr rfl (Listing.next_of_symbols _ _ _ _)

/-- A steady debugger shows at least one line. -/
theorem Steady.lines_pos (h : d.Steady c lines) : 0 < lines :=
  h.lines ▸ h.anchored.lines_pos

/-- Operations that look around or switch breakpoints at addresses: the program does not run, and
the core stays. -/
def Operation.Browses : Operation → Prop
  | .goToPc | .goTo _ | .goToStack _ | .scroll _ | .move _ | .setView _ => True
  | .toggle _ | .toggleSelected | .disassembly | .loadSymbols _ _ => True
  | _ => False

/-- Looking around leaves the processor. -/
theorem cpu?_perform {op : Operation} (hop : op.Browses) : (d.perform op).2.cpu? = d.cpu? := by
  rw [cpu?, machine_perform]
  cases op with
  | toggle | toggleSelected => exact d.machine.cpu?_storeChanged _
  | goToPc | goTo | goToStack | scroll | move | setView | disassembly | loadSymbols => rfl
  | setBreakpoint | removeBreakpoint | setEnabled | stepInto | stepOver | finish | run | pause
  | attach | coreChanged | machine => exact hop.elim

/-- Looking around keeps a debugger steady. -/
theorem Steady.perform (h : d.Steady c lines) {op : Operation} (hop : op.Browses) :
    (d.perform op).2.Steady c lines := by
  by_cases hview : ∃ view, op = .setView view
  · obtain ⟨view, rfl⟩ := hview
    exact steady_goToPc h.cpu h.lines h.lines_pos
  · exact h.moves (cpu?_perform hop) (d.moves_perform (not_exists.mp hview))

/-- Any operations that browse keep a debugger steady. -/
theorem Steady.performAll (h : d.Steady c lines) {ops : List Operation}
    (hops : ∀ op ∈ ops, op.Browses) : (d.performAll ops).Steady c lines := by
  induction ops generalizing d with
  | nil => exact h
  | cons op ops ih =>
    exact ih (h.perform (hops op List.mem_cons_self)) fun next hnext =>
      hops next (List.mem_cons_of_mem op hnext)

/-- A debugger that has just been given a processor: it was made with the core, or after any history
a core was attached to it, or the core that its machine has was reported to it. -/
inductive Given (options : DebuggerOptions) (c : Cpu) : Debugger → Prop
  | made (core : Core) (symbols : Symbols) (hcpu : core.cpu = c) :
    Given options c { ofCore (some core) options with symbols }
  | attached (first : Option Core) (history : List Operation) (core : Core) (hcpu : core.cpu = c) :
    Given options c (((ofCore first options).performAll history).attach core).2
  | reported (first : Option Core) (history : List Operation)
    (hcpu : ((ofCore first options).performAll history).cpu? = some c) :
    Given options c ((ofCore first options).performAll history).coreChanged

/-- Attaching a core replaces the one there was and shows the program counter. -/
theorem attach_eq (d : Debugger) (core : Core) : (d.attach core).2 =
    { d with machine := (d.machine.replaceCore (some core)).2 }.goToPc :=
  rfl

/-- Removing all breakpoints leaves the processor as it is. -/
theorem cpu?_reset (m : Machine) : m.reset.cpu? = m.cpu? := by
  unfold Machine.cpu? Machine.reset Machine.cancelStep
  cases m.core <;> rfl

/-- A debugger as it is given is steady. -/
theorem Given.steady {options : DebuggerOptions} (h : Given options c d) :
    d.Steady c (max options.lines 1) := by
  have hpos : 0 < max options.lines 1 := by omega
  cases h with
  | made core symbols hcpu =>
    have hmade : (ofCore (some core) options).Steady c (max options.lines 1) :=
      steady_goToPc (congrArg some hcpu) rfl hpos
    exact hmade.moves rfl .stay
  | attached first history core hcpu =>
    rw [attach_eq]
    apply steady_goToPc
    · exact congrArg some hcpu
    · exact (lines_performAll _ history).trans (lines_ofCore first options)
    · exact hpos
  | reported first history hcpu =>
    apply steady_goToPc
    · exact (cpu?_reset _).trans hcpu
    · exact (lines_performAll _ history).trans (lines_ofCore first options)
    · exact hpos

/-- The rows that a steady debugger shows. -/
theorem Steady.rows (h : d.Steady c lines) :
    d.disassembly.1.length = lines ∧ (∃ row ∈ d.disassembly.1, row.isSelected = true) ∧
      (d.cursor.followsPc = true →
        ∃ row ∈ d.disassembly.1, row.isSelected = true ∧ row.isPc = true) := by
  have hrows : d.disassembly.1 = (d.cursor.sync (d.listing c) (d.pcInView c)).rows (d.listing c)
      (d.pcInView c) d.hasBreakpoint := by
    simp only [disassembly, h.cpu]
  rw [hrows]
  obtain ⟨row, hrow, hselected, hpc⟩ :=
    (h.anchored.sync (d.pcInView c)).exists_row (d.pcInView c) d.hasBreakpoint
  refine ⟨by rw [Cursor.length_rows, Cursor.lines_sync, h.lines], ⟨row, hrow, hselected⟩, ?_⟩
  intro hfollows
  exact ⟨row, hrow, hselected, hpc (Cursor.selected_sync _ hfollows _)⟩

/-- Give a debugger a core and look around in it in any way, with any number of lines and any
symbols.  Then base and selection have addresses of the view, and the selection is the address of
one of the lines from the base on; there is one line at least.  The listing that is shown has as
many rows as lines, one of them is selected, and while the cursor follows the program counter, one
is selected and marked as the program counter. -/
theorem selection_is_shown {options : DebuggerOptions} {start : Debugger}
    (hstart : Given options c start) {ops : List Operation} (hops : ∀ op ∈ ops, op.Browses) :
    let d := start.performAll ops
    let l := d.listing c
    let lines := max options.lines 1
    d.cpu? = some c ∧ l.cut d.cursor.base = d.cursor.base ∧
      l.cut d.cursor.selected = d.cursor.selected ∧
      (∃ line < lines, l.addressAt d.cursor.base line = d.cursor.selected) ∧
      d.disassembly.1.length = lines ∧ (∃ row ∈ d.disassembly.1, row.isSelected = true) ∧
      (d.cursor.followsPc = true →
        ∃ row ∈ d.disassembly.1, row.isSelected = true ∧ row.isPc = true) := by
  intro d l lines
  have h : d.Steady c lines := hstart.steady.performAll hops
  have hline := h.anchored.exists_line
  rw [h.lines] at hline
  exact ⟨h.cpu, h.anchored.base, h.anchored.selected, hline, h.rows⟩

/-- A walk that scrolls in the physical view, fails to go somewhere, leaves a breakpoint at the
selection and comes back to the logical view, in a window of two lines. -/
def roundTrip : List Operation :=
  [.setView .physical, .scroll 3, .goTo "nowhere", .move .up, .toggleSelected, .setView .logical]

/-- In the end the cursor follows the program counter at 9000 again, and its row is selected. -/
theorem selection_is_shown_returning :
    let core : Core := { cpu := { Cpu.standard.load 0x9000 [0x3E, 0x01, 0x00, 0xC9] with
      registers := { pc := 0x9000 } } }
    let start := ofCore (some core) { lines := 2 }
    let d := start.performAll roundTrip
    Given { lines := 2 } core.cpu start ∧ (∀ op ∈ roundTrip, op.Browses) ∧
      d.machine.store.size = 1 ∧ d.cursor.followsPc = true ∧ d.disassembly.1.length = 2 ∧
      ∃ row ∈ d.disassembly.1, row.isSelected = true ∧ row.isPc = true := by
  intro core start d
  have hstart : Given { lines := 2 } core.cpu start := .made core {} rfl
  have hops : ∀ op ∈ roundTrip, op.Browses := by
    simp [roundTrip, Operation.Browses]
  have hfollows : d.cursor.followsPc = true := by
    decide +kernel
  obtain ⟨-, -, -, -, hlength, -, hpc⟩ := selection_is_shown hstart hops
  exact ⟨hstart, hops, by decide +kernel, hfollows, hlength, hpc hfollows⟩

end Debugger

end Z80Debugger
