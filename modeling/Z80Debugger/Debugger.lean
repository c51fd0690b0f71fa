import Z80Debugger.Breakpoint.Text
import Z80Debugger.Listing.Cursor
import Z80Debugger.Machine
import Z80Debugger.Symbols.Load

/-!
# The debugger

A debugger is a machine with what a user sees of it: symbols, a cursor on the listing, and the space
and modes that were used last for a breakpoint.  Each command is a function on the debugger; one
that cannot be carried out says why, and leaves the debugger as it was.
-/

set_option autoImplicit false

namespace Z80Debugger

/-- How a debugger starts. -/
structure DebuggerOptions where
  lines : Nat := 16
  view : View := .logical
  defaults : Breakpoint.Defaults := {}
  deriving DecidableEq, Repr, Inhabited

/-- A debugging session. -/
structure Debugger where
  machine : Machine
  symbols : Symbols := {}
  /-- The space and the modes that were used last. -/
  defaults : Breakpoint.Defaults
  cursor : Cursor

/-- Why a command on the breakpoint with a number cannot be carried out. -/
inductive LookupError where
  | noCore
  | unknownBreakpoint (id : BreakpointId)
  deriving DecidableEq, Repr

/-- The cause, as it is shown. -/
def LookupError.message : LookupError → String
  | noCore => "No calculator core attached"
  | unknownBreakpoint id => "Breakpoint not found (" ++ toString id ++ ")"

namespace View

/-- The space of the breakpoints that the view shows. -/
def space : View → Space
  | logical => .logical
  | physical => .physical

end View

namespace Debugger

/-- The processor, if a core is attached. -/
def cpu? (d : Debugger) : Option Cpu := d.machine.cpu?

/-- The layout of the attached core's memory. -/
def layout? (d : Debugger) : Option Layout := d.cpu?.map (·.layout)

/-- The space of the breakpoints that the cursor's view shows. -/
def viewSpace (d : Debugger) : Space := d.cursor.view.space

/-- The listing in the cursor's view. -/
def listing (d : Debugger) (c : Cpu) : Listing := .of d.symbols.disassembler c d.cursor.view

/-- The program counter in the cursor's view. -/
def pcInView (d : Debugger) (c : Cpu) : UInt32 := d.viewSpace.ofLogical c c.registers.pc

/-- The debugger with its cursor changed, if a core is attached. -/
def moveCursor (d : Debugger) (f : Cpu → Cursor → Cursor) : Debugger :=
  match d.cpu? with
  | some c => { d with cursor := f c d.cursor }
  | none => d

/-- Shows the program counter and follows it. -/
def goToPc (d : Debugger) : Debugger := d.moveCursor fun c cursor => cursor.goToPc (d.pcInView c)

/-- A debugger of a core, which shows the program counter. -/
def ofCore (core : Option Core) (options : DebuggerOptions) : Debugger :=
  goToPc {
    machine := .ofCore core
    defaults := options.defaults
    cursor := .ofLines options.lines options.view }

/-- Attaches a core in the place of the one before, which is given back without breakpoints. -/
def attach (d : Debugger) (core : Core) : Option Core × Debugger :=
  let (previous, machine) := d.machine.replaceCore (some core)
  (previous, { d with machine }.goToPc)

/-- Removes all breakpoints and the session after the core has changed, and shows the program
counter. -/
def coreChanged (d : Debugger) : Debugger := { d with machine := d.machine.reset }.goToPc

/-- Ends the debugger's work: the core is left without breakpoints. -/
def close (d : Debugger) : Machine := d.machine.reset

/-- Adds the symbols of a file and counts them. -/
def loadSymbols (d : Debugger) (name : String) (contents : Option ByteArray) :
    Except SymbolsError (Nat × Debugger) :=
  (d.symbols.load name contents).map fun (symbols, count) => (count, { d with symbols })

/-- Switches a breakpoint on running the instruction at an address of the view on or off, if a core
is attached. -/
def toggle (d : Debugger) (address : UInt32) : Option (Toggle × Debugger) :=
  (d.machine.updateStore fun store traps => store.toggle traps address d.viewSpace).map
    fun (toggle, machine) =>
      let d := { d with machine }
      match toggle with
      | .added id =>
        (toggle, match machine.store.get? id with
          | some e => { d with defaults := e.breakpoint.defaults }
          | none => d)
      | .removed _ => (toggle, d)

/-- Switches a breakpoint at the selected address. -/
def toggleSelected (d : Debugger) : Option (Toggle × Debugger) := d.toggle d.cursor.selected

/-- What addresses may refer to in a breakpoint's text. -/
def context (d : Debugger) : Breakpoint.Context where
  labels := d.symbols.resolve
  layout := d.layout?

/-- Puts a breakpoint in the place of the one with a number, or adds it if no number is given or
there is none with that number. -/
def putBreakpoint (existing : Option BreakpointId) (b : Breakpoint) (store : Store)
    (traps : Traps) : BreakpointId × Store × Traps :=
  match existing with
  | none => store.add traps b
  | some id => match store.replace? traps id b with
    | some (store, traps) => (id, store, traps)
    | none => store.add traps b

/-- Adds the breakpoint that a text describes, or puts it in the place of another one.  Nothing is
done without a core. -/
def setBreakpoint (d : Debugger) (text : String) (existing : Option BreakpointId) :
    Except BreakpointError (Option BreakpointId × Debugger) :=
  match Breakpoint.parse d.defaults d.context text with
  | .error e => .error e
  | .ok b => match d.machine.updateStore (putBreakpoint existing b) with
    | some (id, machine) => .ok (some id, { d with machine, defaults := b.defaults })
    | none => .ok (none, d)

/-- Carries out a change of the breakpoint with a number. -/
def changeBreakpoint (d : Debugger) (id : BreakpointId)
    (f : Store → Traps → Option (Store × Traps)) : Except LookupError Debugger :=
  if d.machine.core.isNone then .error .noCore
  else match d.machine.updateStore? f with
    | some machine => .ok { d with machine }
    | none => .error (.unknownBreakpoint id)

/-- Removes the breakpoint with a number. -/
def removeBreakpoint (d : Debugger) (id : BreakpointId) : Except LookupError Debugger :=
  d.changeBreakpoint id fun store traps => store.remove? traps id

/-- Enables or disables the breakpoint with a number. -/
def setEnabled (d : Debugger) (id : BreakpointId) (enabled : Bool) : Except LookupError Debugger :=
  d.changeBreakpoint id fun store traps => store.setEnabled? traps id enabled

/-- The text of the breakpoint with a number. -/
def breakpointText? (d : Debugger) (id : BreakpointId) : Option String :=
  (d.machine.store.get? id).map (·.breakpoint.text)

/-- The text of a new breakpoint at the selected address. -/
def template (d : Debugger) : String :=
  let address := d.cursor.selected.toNat
  match d.cursor.view with
  | .logical => "logical x " ++ Text.Hex.text 4 address
  | .physical =>
    let width := match d.layout? with
      | some layout => layout.addressWidth
      | none => 6
    "physical x " ++ Text.Hex.text width address

/-- Steps into the next instruction. -/
def stepInto (d : Debugger) : Bool × Debugger :=
  let (started, machine) := d.machine.stepInto
  (started, { d with machine })

/-- Steps over the next instruction. -/
def stepOver (d : Debugger) : Bool × Debugger :=
  let (started, machine) := d.machine.stepOver d.symbols.disassembler
  (started, { d with machine })

/-- Runs until the routine returns. -/
def finish (d : Debugger) : Bool × Debugger :=
  let (started, machine) := d.machine.finish
  (started, { d with machine })

/-- Runs the machine. -/
def run (d : Debugger) : Debugger := { d with machine := d.machine.run }

/-- Pauses the machine. -/
def pause (d : Debugger) : Debugger := { d with machine := d.machine.pause }

/-- Shows what an entry of the stack points to; entries are counted from zero at its top, and a
negative number stands for the program counter. -/
def goToStack (d : Debugger) (entry : Int) : Debugger :=
  if entry < 0 then d.goToPc
  else d.moveCursor fun c cursor =>
    let slot := c.registers.sp + 2 * UInt16.ofNat entry.toNat
    cursor.goTo (d.viewSpace.ofLogical c (c.readWord slot))

/-- The address that a text gives in the cursor's view. -/
def addressOf? (d : Debugger) (text : List Char) : Option UInt32 :=
  match d.cursor.view, d.layout? with
  | .physical, some layout =>
    if ':' ∈ text then Address.parsePaged? layout d.symbols.resolve text
    else Address.parse? d.symbols.resolve text
  | _, _ => Address.parse? d.symbols.resolve text

/-- Shows the address that a text gives. -/
def goTo (d : Debugger) (text : String) : Except BreakpointError Debugger :=
  let trimmed := Text.trim text.toList
  match d.addressOf? trimmed with
  | some address => .ok { d with cursor := d.cursor.goTo address }
  | none => .error (.invalidAddress (String.ofList trimmed))

/-- Moves the window by a number of lines. -/
def scroll (d : Debugger) (delta : Int) : Debugger :=
  d.moveCursor fun c cursor => cursor.scroll (d.listing c) delta

/-- Moves the selection by one line. -/
def move (d : Debugger) (direction : Direction) : Debugger :=
  d.moveCursor fun c cursor => cursor.move (d.listing c) direction

/-- Looks at memory in another way and shows the program counter. -/
def setView (d : Debugger) (view : View) : Debugger :=
  { d with cursor := d.cursor.setView view }.goToPc

/-- Whether an enabled breakpoint stops before the instruction at an address of the view. -/
def hasBreakpoint (d : Debugger) (address : UInt32) : Bool :=
  (d.machine.store.findExec? address d.viewSpace).isSome

/-- The lines of the window, once the selection is where it belongs; there are none without a
core. -/
def disassembly (d : Debugger) : List Row × Debugger :=
  match d.cpu? with
  | none => ([], d)
  | some c =>
    let listing := d.listing c
    let pc := d.pcInView c
    let cursor := d.cursor.sync listing pc
    (cursor.rows listing pc d.hasBreakpoint, { d with cursor })

end Debugger

end Z80Debugger
