import Z80Debugger.Command
import Z80Debugger.Console.Report

/-!
# The command loop

The console reads a line, carries out its command and prints what came of it.  A command that runs
the program waits for it to stop, and pauses it after a while; so whenever the next line is read,
the machine is paused.  The files that a command may read are given as a function from names to
contents.
-/

set_option autoImplicit false

namespace Z80Debugger

/-- The contents of the files that exist. -/
abbrev Files : Type := String → Option ByteArray

/-- A line of the input. -/
inductive InputLine where
  | text (line : String)
  /-- The line is not text. -/
  | garbled
  deriving DecidableEq, Repr

/-- A debugger at the console. -/
structure Console where
  debugger : Debugger
  /-- The seconds for which a running program is waited for. -/
  timeout : Nat
  /-- The number of instructions that run in that time. -/
  patience : Nat

/-- What came of a command. -/
structure Reply where
  console : Console
  messages : List Message
  /-- The lines that are still to be read. -/
  input : List InputLine
  /-- The user wants to leave. -/
  quits : Bool := false

namespace Console

/-- The console with another debugger. -/
def withDebugger (c : Console) (debugger : Debugger) : Console := { c with debugger }

/-- Prints the listing. -/
def showListing (c : Console) : Console × List Message :=
  let (lines, debugger) := Report.disassembly c.debugger
  (c.withDebugger debugger, Message.outputs lines)

/-- Lets the machine run until it is paused, and pauses it if that takes too long. -/
def settle (c : Console) : Debugger × List String :=
  let machine := c.debugger.machine.runUntilPaused c.patience
  let debugger := { c.debugger with machine }
  if machine.paused then (debugger, [])
  else (debugger.pause, ["Still running after " ++ toString c.timeout ++ "s, paused"])

/-- Waits until the machine is paused, then prints where that is. -/
def waitForStop (c : Console) : Console × List Message :=
  let (debugger, lines) := c.settle
  let place := match debugger.cpu? with
    | some cpu => [Report.stopped debugger.symbols cpu.registers.pc]
    | none => []
  let (c, listing) := (c.withDebugger debugger.goToPc).showListing
  (c, Message.outputs (lines ++ place) ++ listing)

/-- Starts a step and waits for its end. -/
def step (c : Console) (start : Debugger → Bool × Debugger) : Console × List Message :=
  match start c.debugger with
  | (true, debugger) => (c.withDebugger debugger).waitForStop
  | (false, debugger) =>
    (c.withDebugger debugger, [.output "Cannot step: program is running or not loaded"])

/-- Adds or replaces the breakpoint that a text describes. -/
def define (c : Console) (existing : Option BreakpointId) (definition : String) :
    Console × List Message :=
  match c.debugger.setBreakpoint definition existing with
  | .error e => (c, [.failure e.message])
  | .ok (none, debugger) => (c.withDebugger debugger, [.output Report.noProgram])
  | .ok (some id, debugger) =>
    let line := if existing = some id then Report.breakpointChanged debugger id
      else Report.breakpointSet debugger id
    (c.withDebugger debugger, [.output line])

/-- Whether there is something to edit: a new breakpoint, or one that exists. -/
def canEdit (c : Console) : Option BreakpointId → Except LookupError Unit
  | none => .ok ()
  | some id =>
    if (c.debugger.breakpointText? id).isSome then .ok () else .error (.unknownBreakpoint id)

/-- Adds or replaces a breakpoint; the next line of input describes it if the command does not. -/
def defineOrAsk (c : Console) (existing : Option BreakpointId) (definition : String)
    (input : List InputLine) : Reply :=
  if definition.isEmpty then
    match c.canEdit existing, input with
    | .error e, _ => { console := c, messages := [.failure e.message], input }
    | .ok (), [] => { console := c, messages := [.failure "EOF"], input := [] }
    | .ok (), .garbled :: input =>
      { console := c, messages := [.failure FileError.notText.message], input }
    | .ok (), .text line :: input =>
      let (console, messages) := c.define existing (Text.trimmed line)
      { console, messages, input }
  else
    let (console, messages) := c.define existing definition
    { console, messages, input }

/-- Switches a breakpoint at the selected address. -/
def toggleSelected (c : Console) : Console × List Message :=
  match c.debugger.toggleSelected with
  | some (.added id, debugger) =>
    (c.withDebugger debugger, [.output (Report.breakpointSet debugger id)])
  | some (.removed id, debugger) =>
    (c.withDebugger debugger, [.output (Report.breakpointDeleted id)])
  | none => (c, [.output Report.noProgram])

/-- Switches a breakpoint at an address, or at the selected one. -/
def toggle (c : Console) : Option String → Console × List Message
  | none => c.toggleSelected
  | some address => match c.debugger.goTo address with
    | .ok debugger => (c.withDebugger debugger).toggleSelected
    | .error e => (c, [.failure e.message])

/-- Changes a breakpoint and says what was done. -/
def change (c : Console) (result : Except LookupError Debugger) (done : String) :
    Console × List Message :=
  match result with
  | .ok debugger => (c.withDebugger debugger, [.output done])
  | .error e => (c, [.failure e.message])

/-- Adds the symbols of a file. -/
def loadSymbols (c : Console) (files : Files) (name : String) : Console × List Message :=
  match c.debugger.loadSymbols name (files name) with
  | .ok (count, debugger) =>
    (c.withDebugger debugger, [.output ("Loaded " ++ toString count ++ " symbols from " ++ name)])
  | .error e => (c, [.failure e.message])

/-- Changes the window and prints the listing. -/
def navigate (c : Console) (debugger : Debugger) : Console × List Message :=
  (c.withDebugger debugger).showListing

/-- Carries out a command; some commands take the next line of the input too. -/
def perform (c : Console) (files : Files) (input : List InputLine) (command : Command) : Reply :=
  match command with
  | .breakAt definition => c.defineOrAsk none definition input
  | .edit id definition => c.defineOrAsk (some id) definition input
  | .delete id => reply (c.change (c.debugger.removeBreakpoint id) (Report.breakpointDeleted id))
  | .enable id =>
    reply (c.change (c.debugger.setEnabled id true) ("Breakpoint " ++ toString id ++ " enabled"))
  | .disable id =>
    reply (c.change (c.debugger.setEnabled id false) ("Breakpoint " ++ toString id ++ " disabled"))
  | .toggle address => reply (c.toggle address)
  | .breakpoints => print (Report.breakpoints c.debugger)
  | .resume =>
    let (c, messages) := (c.withDebugger c.debugger.run).waitForStop
    reply (c, .output "Continuing execution..." :: messages)
  | .step => reply (c.step Debugger.stepInto)
  | .next => reply (c.step Debugger.stepOver)
  | .finish => reply (c.step Debugger.finish)
  | .disassemble => reply c.showListing
  | .goTo address => match c.debugger.goTo address with
    | .ok debugger => reply (c.navigate debugger)
    | .error e => reply (c, [.failure e.message])
  | .goToPc => reply (c.navigate c.debugger.goToPc)
  | .stack entry => reply (c.navigate (c.debugger.goToStack entry))
  | .scroll delta => reply (c.navigate (c.debugger.scroll delta))
  | .move direction => reply (c.navigate (c.debugger.move direction))
  | .view view => reply (c.navigate (c.debugger.setView view))
  | .registers => match c.debugger.cpu? with
    | some cpu => print (Report.registers cpu.registers)
    | none => print [Report.noProgram]
  | .symbols file => reply (c.loadSymbols files file)
  | .help => print Report.help
  | .quit => { console := c, messages := [], input, quits := true }
where
  /-- The reply of a command that takes no further line. -/
  reply (result : Console × List Message) : Reply :=
    { console := result.1, messages := result.2, input }
  /-- The reply of a command that only prints. -/
  print (lines : List String) : Reply := reply (c, Message.outputs lines)

/-- Carries out the command of a line that is not blank. -/
def handle (c : Console) (files : Files) (line : String) (input : List InputLine) : Reply :=
  match Command.parse? line with
  | none => { console := c, messages := Message.outputs (Report.unknownCommand line), input }
  | some command => c.perform files input command

/-- The number of lines that the command of a line may take besides its own. -/
def linesWanted (line : String) : Nat :=
  match Command.parse? (Text.trimmed line) with
  | some (.breakAt definition) | some (.edit _ definition) => if definition.isEmpty then 1 else 0
  | _ => 0

/-- Reads a line and carries out its command; a blank line is passed over. -/
def handleLine (c : Console) (files : Files) (line : String) (input : List InputLine) : Reply :=
  let line := Text.trimmed line
  if line.isEmpty then { console := c, messages := [], input } else c.handle files line input

/-- The error at a line that is not text. -/
def garbledLine : String :=
  "Io(Error \x7b kind: InvalidData, message: \"stream did not contain valid UTF-8\" \x7d)"

/-- Carries out the commands of the input until the user leaves or the input ends.  Every command
takes at least one line, so the number of lines is fuel enough. -/
def loop (c : Console) (files : Files) : Nat → List InputLine → List Message
  | _, [] => [.output "CTRL-D"]
  | _, .garbled :: _ => [.failure garbledLine]
  | 0, _ :: _ => []
  | n + 1, .text line :: input =>
    let reply := c.handleLine files line input
    if reply.quits then reply.messages
    else reply.messages ++ loop reply.console files n reply.input

end Console

end Z80Debugger
