import Z80Debugger.Console.Options
import Z80Debugger.Console.Prompt
import Z80Debugger.Text.Typing

/-!
# The program

The program loads an image into a core, reads the symbols it is given, and then carries out the
commands of its input.  What goes wrong before the first command ends it: a wrong argument with exit
status 2, a core that cannot be started with exit status 101, anything else with exit status 1.
-/

set_option autoImplicit false

namespace Z80Debugger

/-- Why a console cannot be started. -/
inductive StartError where
  | missingImage (name : String)
  | imageTooLarge (size : Nat) (origin : UInt16)
  | layoutTooLarge (romSize ramSize : UInt32)
  /-- The second RAM page has no number. -/
  | noPage
  | defaults (space modes : String) (cause : BreakpointError)
  | symbols (cause : SymbolsError)
  deriving DecidableEq, Repr

namespace StartError

/-- The error and the error that caused it, if there is one. -/
def texts : StartError → String × Option String
  | missingImage name => ("failed to read image " ++ name, some FileError.missing.message)
  | imageTooLarge size origin =>
    ("image of " ++ toString size ++ " bytes does not fit at $" ++ Report.word origin, none)
  | layoutTooLarge romSize ramSize =>
    ("memory layout " ++ Text.Hex.text 1 romSize.toNat ++ "+" ++ Text.Hex.text 1 ramSize.toNat ++
      " is too large", none)
  | noPage => ("no page follows the first RAM page", none)
  | defaults space modes cause =>
    ("invalid breakpoint defaults '" ++ space ++ " " ++ modes ++ "'", some cause.message)
  | symbols cause => (cause.message, none)

/-- The lines that report the error, with its cause in a paragraph of its own. -/
def messages (e : StartError) : List Message :=
  match e.texts with
  | (text, none) => [.failure text]
  | (text, some cause) => [.failure text, .error "", .error "Caused by:", .error ("    " ++ cause)]

/-- The exit status after the error. -/
def status : StartError → Nat
  | noPage => 101
  | _ => 1

end StartError

namespace Options

/-- The space and modes that breakpoints have when they leave them out, read as a breakpoint at zero
would be. -/
def defaults? (space modes : String) : Except BreakpointError Breakpoint.Defaults :=
  (Breakpoint.parse {} {} (space ++ " " ++ modes ++ " 0")).map Breakpoint.defaults

end Options

/-- The result of the program. -/
structure Finished where
  status : Nat
  messages : List Message
  deriving DecidableEq, Repr

namespace Console

/-- A core that holds an image and is about to run it. -/
def coreWithImage (o : Options) (layout : Layout) (image : List UInt8) : Except StartError Core :=
  match Core.ofLayout? layout with
  | none => .error .noPage
  | some core =>
    let cpu := core.cpu.load o.origin image
    .ok { core with cpu := { cpu with registers := { cpu.registers with pc := o.origin } } }

/-- The core that the options describe, with the number of bytes of its image. -/
def loadImage (o : Options) (files : Files) : Except StartError (Core × Nat) := do
  let some image := files o.image | throw (.missingImage o.image)
  if 0x10000 < o.origin.toNat + image.size then throw (.imageTooLarge image.size o.origin)
  let some layout := Layout.ofSizes? o.romSize o.ramSize o.ramPageBase
    | throw (.layoutTooLarge o.romSize o.ramSize)
  let core ← coreWithImage o layout image.toList
  return (core, image.size)

/-- The debugger that the options describe. -/
def debuggerOf (o : Options) (core : Core) : Except StartError Debugger :=
  match Options.defaults? o.defaultSpace o.defaultModes with
  | .error cause => .error (.defaults o.defaultSpace o.defaultModes cause)
  | .ok defaults =>
    let view := if o.physical then View.physical else .logical
    .ok (.ofCore (some core) { lines := o.lines, view, defaults })

/-- The debugger with the symbols of the options, and the line that reports them. -/
def withSymbols (o : Options) (files : Files) (d : Debugger) :
    Except StartError (Debugger × List Message) :=
  match o.symbols with
  | none => .ok (d, [])
  | some name => match d.loadSymbols name (files name) with
    | .error cause => .error (.symbols cause)
    | .ok (count, d) =>
      .ok (d, [.output ("Loaded " ++ toString count ++ " symbols from " ++ name)])

/-- The line that reports an image. -/
def imageLoaded (size : Nat) (origin : UInt16) : String :=
  "Loaded " ++ toString size ++ " bytes at $" ++ Report.word origin

/-- The lines before the first command. -/
def greeting (origin : UInt16) : List String := [
  "Program stopped at $" ++ Report.word origin,
  "Set breakpoints and use 'continue' to start execution",
  "",
  "Type 'help' for available commands, 'quit' to exit.",
  ""]

/-- Starts a console.  The messages tell how far that came. -/
def start (o : Options) (files : Files) (patience : Nat) :
    List Message × Except StartError Console :=
  let loading := [Message.output ("Loading image: " ++ o.image)]
  match loadImage o files with
  | .error e => (loading, .error e)
  | .ok (core, size) =>
    let loaded := loading ++ [.output (imageLoaded size o.origin)]
    match debuggerOf o core with
    | .error e => (loaded, .error e)
    | .ok debugger => match withSymbols o files debugger with
      | .error e => (loaded, .error e)
      | .ok (debugger, symbols) =>
        (loaded ++ symbols ++ Message.outputs (greeting o.origin),
          .ok { debugger, timeout := o.timeout, patience })

/-- The number of instructions that run while a command waits. -/
def standardPatience : Nat := 2000000

/-- The whole program: its arguments, the files that exist and its input give what it prints. -/
def program (args : List String) (files : Files) (input : List InputLine) : Finished :=
  let banner := Message.outputs Report.banner
  match Options.parse? args with
  | none => { status := 2, messages := banner }
  | some o => match start o files standardPatience with
    | (messages, .error e) =>
      { status := e.status, messages := banner ++ messages ++ e.messages }
    | (messages, .ok console) => {
        status := 0
        messages := banner ++ messages ++ console.loop files input.length input ++
          [.output Report.farewell] }

end Console

namespace InputLine

/-- The line that a row of bytes holds, with its backspaces carried out as the line input does. -/
def ofRow (row : List UInt8) : InputLine :=
  match String.fromUTF8? ⟨row.toArray⟩ with
  | some line => text (Text.Typing.readString line)
  | none => garbled

/-- The lines of an input of bytes.  A last line need not end. -/
def ofBytes (bytes : ByteArray) : List InputLine :=
  let rows := Text.pieces (· == 0x0A) bytes.toList
  (if rows.getLast? = some [] then rows.dropLast else rows).map ofRow

end InputLine

end Z80Debugger
