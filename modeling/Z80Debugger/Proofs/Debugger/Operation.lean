import Z80Debugger.Debugger
import Z80Debugger.Proofs.Machine.Control

/-!
# Operations on a debugger

All that a user can ask of a debugger, with what may happen to its machine beside it: the program
runs, the core is changed from outside or another one is attached.  `Debugger.perform` carries out
an operation and says why it failed, if it did.  `Operation.action?` is what an operation does to
the machine, which is one action or nothing, and `machine_perform` says that it does nothing else
there.  So what actions on machines keep is kept by operations on debuggers.
-/

set_option autoImplicit false

namespace Z80Debugger.Debugger

/-- What an operation reports when it fails. -/
inductive Failure where
  | noCore
  | text (cause : BreakpointError)
  | lookup (cause : LookupError)
  | notStarted
  | symbols (cause : SymbolsError)

/-- One thing that is asked of a debugger or happens to its machine. -/
inductive Operation where
  | setBreakpoint (text : String) (existing : Option BreakpointId)
  | removeBreakpoint (id : BreakpointId)
  | setEnabled (id : BreakpointId) (enabled : Bool)
  | toggle (address : UInt32)
  | toggleSelected
  | stepInto
  | stepOver
  | finish
  | run
  | pause
  | goTo (text : String)
  | goToPc
  | goToStack (entry : Int)
  | scroll (delta : Int)
  | move (direction : Direction)
  | setView (view : View)
  | disassembly
  | attach (core : Core)
  | coreChanged
  | loadSymbols (name : String) (contents : Option ByteArray)
  /-- The machine is shared, and something else acts on it. -/
  | machine (action : Machine.Action)

/-- What a change comes to; an error gives back no debugger, so the one before is kept. -/
def conclude {ε : Type} (d : Debugger) (report : ε → Failure) :
    Except ε Debugger → Option Failure × Debugger
  | .error cause => (some (report cause), d)
  | .ok after => (none, after)

def concludeToggle (d : Debugger) : Option (Toggle × Debugger) → Option Failure × Debugger
  | none => (some .noCore, d)
  | some (_, after) => (none, after)

def concludeStart : Bool × Debugger → Option Failure × Debugger
  | (started, after) => (if started then none else some .notStarted, after)

/-- Carries out an operation: why it failed, if it did, and the debugger after it. -/
def perform (d : Debugger) : Operation → Option Failure × Debugger
  | .setBreakpoint text existing => match d.setBreakpoint text existing with
    | .error cause => (some (.text cause), d)
    | .ok (none, after) => (some .noCore, after)
    | .ok (some _, after) => (none, after)
  | .removeBreakpoint id => d.conclude .lookup (d.removeBreakpoint id)
  | .setEnabled id enabled => d.conclude .lookup (d.setEnabled id enabled)
  | .toggle address => d.concludeToggle (d.toggle address)
  | .toggleSelected => d.concludeToggle d.toggleSelected
  | .stepInto => concludeStart d.stepInto
  | .stepOver => concludeStart d.stepOver
  | .finish => concludeStart d.finish
  | .run => (none, d.run)
  | .pause => (none, d.pause)
  | .goTo text => d.conclude .text (d.goTo text)
  | .goToPc => (none, d.goToPc)
  | .goToStack entry => (none, d.goToStack entry)
  | .scroll delta => (none, d.scroll delta)
  | .move direction => (none, d.move direction)
  | .setView view => (none, d.setView view)
  | .disassembly => (none, d.disassembly.2)
  | .attach core => (none, (d.attach core).2)
  | .coreChanged => (none, d.coreChanged)
  | .loadSymbols name contents =>
    d.conclude .symbols ((d.loadSymbols name contents).map (·.2))
  | .machine action => (none, { d with machine := action.apply d.machine })

/-- The debugger after operations in order, whether they fail or not. -/
def performAll (d : Debugger) (ops : List Operation) : Debugger :=
  ops.foldl (fun d op => (d.perform op).2) d

/-- What it is for the machine to put a breakpoint: one with the number is replaced, and without one
the breakpoint is added. -/
def putting (d : Debugger) (b : Breakpoint) : Option BreakpointId → Machine.Operation
  | none => .add b
  | some id => if (d.machine.store.get? id).isSome then .replace id b else .add b

/-- What an operation does to the machine, if it does anything to it. -/
def Operation.action? (d : Debugger) : Operation → Option Machine.Action
  | setBreakpoint text existing => match Breakpoint.parse d.defaults d.context text with
    | .error _ => none
    | .ok b => some (.operation (d.putting b existing))
  | removeBreakpoint id => some (.operation (.remove id))
  | setEnabled id enabled => some (.operation (.setEnabled id enabled))
  | toggle address => some (.operation (.toggle address d.viewSpace))
  | toggleSelected => some (.operation (.toggle d.cursor.selected d.viewSpace))
  | stepInto => some (.operation .stepInto)
  | stepOver => some (.operation (.stepOver d.symbols.disassembler))
  | finish => some (.operation .finish)
  | run => some (.operation .run)
  | pause => some (.operation .pause)
  | attach core => some (.attach (some core))
  | coreChanged => some (.operation .reset)
  | machine action => some action
  | goTo _ | goToPc | goToStack _ | scroll _ | move _ | setView _ | disassembly => none
  | loadSymbols _ _ => none

variable {d after : Debugger}

/-- Moving the cursor leaves the machine. -/
@[simp] theorem machine_moveCursor (d : Debugger) (f : Cpu → Cursor → Cursor) :
    (d.moveCursor f).machine = d.machine := by
  unfold moveCursor
  split <;> rfl

/-- Showing the program counter leaves the machine. -/
@[simp] theorem machine_goToPc (d : Debugger) : d.goToPc.machine = d.machine :=
  d.machine_moveCursor _

/-- Putting a breakpoint is one operation on the machine. -/
theorem storeChanged_putBreakpoint (d : Debugger) (existing : Option BreakpointId)
    (b : Breakpoint) : Machine.Operation.storeChanged d.machine (putBreakpoint existing b) =
      (d.putting b existing).apply d.machine := by
  cases existing with
  | none => rfl
  | some id =>
    cases hcore : d.machine.core with
    | none =>
      -- Nothing is put, whether there is one with the number or not.
      cases hget : d.machine.store.get? id <;>
        simp [putting, hget, hcore, Machine.Operation.apply, Machine.Operation.storeChanged,
          Machine.updateStore, Machine.updateStore?]
    | some core =>
      cases hget : d.machine.store.get? id <;>
        simp [putting, hget, hcore, Machine.Operation.apply, Machine.Operation.storeChanged,
          Machine.updateStore, Machine.updateStore?, putBreakpoint, Store.replace?]

/-- Setting a breakpoint puts what is read. -/
theorem machine_setBreakpoint (d : Debugger) (text : String) (existing : Option BreakpointId) :
    (d.perform (.setBreakpoint text existing)).2.machine =
      ((Operation.setBreakpoint text existing).action? d).elim d.machine
        (Machine.Action.apply d.machine) := by
  simp only [perform, setBreakpoint, Operation.action?]
  cases hparse : Breakpoint.parse d.defaults d.context text with
  | error cause => rfl
  | ok b =>
    simp only [Option.elim_some, Machine.Action.apply, ← storeChanged_putBreakpoint,
      Machine.Operation.storeChanged]
    cases d.machine.updateStore (putBreakpoint existing b) <;> rfl

/-- A change of a breakpoint leaves the machine with it, or as it was. -/
theorem machine_changeBreakpoint (d : Debugger) (id : BreakpointId)
    (f : Store → Traps → Option (Store × Traps)) :
    (d.conclude .lookup (d.changeBreakpoint id f)).2.machine =
      (d.machine.updateStore? f).getD d.machine := by
  unfold changeBreakpoint
  cases hcore : d.machine.core with
  | none => simp [Machine.updateStore?, hcore, conclude]
  | some core => cases hupdate : d.machine.updateStore? f <;> simp [conclude]

/-- A toggle is the operation on the machine in the view's space. -/
theorem machine_toggle (d : Debugger) (address : UInt32) :
    (d.concludeToggle (d.toggle address)).2.machine =
      (Machine.Operation.toggle address d.viewSpace).apply d.machine := by
  rw [Machine.Operation.apply, Machine.Operation.storeChanged, toggle]
  cases hupdate : d.machine.updateStore fun store traps =>
    store.toggle traps address d.viewSpace with
  | none => rfl
  | some pair =>
    obtain ⟨done, machine⟩ := pair
    cases done with
    | removed id => rfl
    | added id =>
      simp only [Option.map_some, concludeToggle]
      split <;> rfl

/-- Whether it fails or not, an operation does to the machine what it is meant to do, and nothing
else. -/
theorem machine_perform (d : Debugger) (op : Operation) :
    (d.perform op).2.machine = (op.action? d).elim d.machine (Machine.Action.apply d.machine) := by
  cases op with
  | setBreakpoint text existing => exact d.machine_setBreakpoint text existing
  | removeBreakpoint id | setEnabled id => exact d.machine_changeBreakpoint id _
  | toggle address => exact d.machine_toggle address
  | toggleSelected => exact d.machine_toggle d.cursor.selected
  | stepInto | stepOver | finish | run | pause | machine => rfl
  | goTo text =>
    simp only [perform, goTo]
    split <;> rfl
  | goToPc => exact d.machine_goToPc
  | goToStack entry =>
    simp only [perform, goToStack]
    split
    · exact d.machine_goToPc
    · exact d.machine_moveCursor _
  | scroll | move => exact d.machine_moveCursor _
  | setView | attach | coreChanged => exact machine_goToPc _
  | disassembly =>
    simp only [perform, disassembly]
    split <;> rfl
  | loadSymbols name contents =>
    simp only [perform, loadSymbols]
    cases d.symbols.load name contents <;> rfl

/-- Loading symbols leaves the machine. -/
theorem machine_of_loadSymbols {name : String} {contents : Option ByteArray} {count : Nat}
    (hload : d.loadSymbols name contents = .ok (count, after)) : after.machine = d.machine := by
  have hmachine := d.machine_perform (.loadSymbols name contents)
  rwa [perform, hload] at hmachine

/-- A new debugger has a new machine. -/
theorem machine_ofCore (core : Option Core) (options : DebuggerOptions) :
    (ofCore core options).machine = .ofCore core :=
  machine_goToPc _

/-- A new debugger has a controlled machine. -/
theorem controlled_ofCore (core : Option Core) (options : DebuggerOptions) :
    (ofCore core options).machine.Controlled := by
  rw [machine_ofCore]
  exact Machine.controlled_ofCore core

/-- Every operation keeps the machine controlled, whether it fails or not. -/
theorem controlled_perform (hd : d.machine.Controlled) (op : Operation) :
    (d.perform op).2.machine.Controlled := by
  rw [machine_perform]
  cases op.action? d with
  | none => exact hd
  | some action => exact hd.act action

/-- Any operations keep the machine controlled. -/
theorem controlled_performAll (hd : d.machine.Controlled) (ops : List Operation) :
    (d.performAll ops).machine.Controlled := by
  induction ops generalizing d with
  | nil => exact hd
  | cons op ops ih => exact ih (controlled_perform hd op)

end Z80Debugger.Debugger
