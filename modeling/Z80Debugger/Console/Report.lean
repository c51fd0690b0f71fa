import Z80Debugger.Debugger

/-!
# What the console shows

The lines that commands print, one message a line.  Results go to the output, errors to a stream of
their own.
-/

set_option autoImplicit false

namespace Z80Debugger

/-- A printed line. -/
inductive Message where
  | output (line : String)
  | error (line : String)
  deriving DecidableEq, Repr

namespace Message

/-- Lines for the output. -/
def outputs (lines : List String) : List Message := lines.map output

/-- An error, as it is shown. -/
def failure (text : String) : Message := .error ("Error: " ++ text)

/-- The text that a list of messages puts on the output. -/
def outputText (ms : List Message) : String :=
  String.join (ms.map fun
    | output line => line ++ "\n"
    | error _ => "")

/-- The text that a list of messages puts on the stream of errors. -/
def errorText (ms : List Message) : String :=
  String.join (ms.map fun
    | output _ => ""
    | error line => line ++ "\n")

end Message

namespace Report

/-- A word as four digits without a mark. -/
def word (w : UInt16) : String := Text.Hex.text 4 w.toNat

/-- A flip-flop as a digit. -/
def digit (b : Bool) : String := if b then "1" else "0"

/-- The registers in two lines. -/
def registers (r : Registers) : List String := [
  "AF=" ++ word r.af ++ " BC=" ++ word r.bc ++ " DE=" ++ word r.de ++ " HL=" ++ word r.hl ++
    " IX=" ++ word r.ix ++ " IY=" ++ word r.iy,
  "SP=" ++ word r.sp ++ " PC=" ++ word r.pc ++ " IFF1=" ++ digit r.iff1 ++
    " IFF2=" ++ digit r.iff2 ++ (if r.halted then " (halted)" else "")]

/-- The line for a debugger without a core. -/
def noProgram : String := "No program loaded"

/-- The mark of a row: the program counter, else the selection. -/
def marker (r : Row) : String := if r.isPc then "=>" else if r.isSelected then " >" else "  "

/-- A row of the listing, below the name of its address if it has one. -/
def row (symbols : Symbols) (width : Nat) (r : Row) : List String :=
  let line := marker r ++ (if r.hasBreakpoint then "*" else " ") ++ " " ++
    Text.Hex.text width r.address.toNat ++ "  " ++ r.text
  match symbols.nameAt r.address with
  | some name => [name ++ ":", line]
  | none => [line]

/-- The number of digits of the addresses in the listing. -/
def addressWidth (d : Debugger) : Nat :=
  match d.cursor.view, d.layout? with
  | .physical, some layout => layout.addressWidth
  | _, _ => 4

/-- The listing in the window. -/
def disassembly (d : Debugger) : List String × Debugger :=
  let (rows, shown) := d.disassembly
  (if rows.isEmpty then [noProgram] else rows.flatMap (row d.symbols (addressWidth d)), shown)

/-- A breakpoint in the list. -/
def breakpoint (entry : BreakpointId × Breakpoint) : String :=
  "  " ++ toString entry.1 ++ ". " ++ entry.2.text

/-- The list of breakpoints. -/
def breakpoints (d : Debugger) : List String :=
  let entries := d.machine.store.toList
  if entries.isEmpty then ["No breakpoints"]
  else ("Breakpoints (" ++ toString entries.length ++ " found):") :: entries.map breakpoint

/-- Where the machine stopped. -/
def stopped (symbols : Symbols) (pc : UInt16) : String :=
  "Stopped at $" ++ word pc ++
    match symbols.nameAt pc.toUInt32 with
    | some name => " <" ++ name ++ ">"
    | none => ""

/-- A breakpoint that was set. -/
def breakpointSet (d : Debugger) (id : BreakpointId) : String :=
  "Breakpoint " ++ toString id ++ " set: " ++ (d.breakpointText? id).getD ""

/-- A breakpoint that was replaced. -/
def breakpointChanged (d : Debugger) (id : BreakpointId) : String :=
  "Breakpoint " ++ toString id ++ " changed: " ++ (d.breakpointText? id).getD ""

/-- A breakpoint that was removed. -/
def breakpointDeleted (id : BreakpointId) : String := "Breakpoint " ++ toString id ++ " deleted"

/-- A line that names no command. -/
def unknownCommand (line : String) : List String :=
  ["Unknown command: " ++ line, "Type 'help' for available commands."]

/-- The first lines of the program. -/
def banner : List String := ["zdb - Z80 Calculator Debugger", "Version 0.1.0", ""]

/-- The last line of the program. -/
def farewell : String := "Goodbye!"

/-- The commands. -/
def help : List String := [
  "Available commands:",
  "",
  "  help (h, ?)           - Show this help message",
  "  quit/exit/q           - Exit the debugger",
  "",
  "Execution:",
  "  continue (c)          - Continue execution",
  "  step (s)              - Execute one instruction",
  "  next (n)              - Execute one instruction, stepping over calls",
  "  finish (f)            - Run until the current routine returns",
  "",
  "Breakpoints:",
  "  break (b) [def]       - Add a breakpoint, e.g. 'b io w 10-1f' (prompts when omitted)",
  "  edit (e) <id> [def]   - Replace a breakpoint (prompts with its definition when omitted)",
  "  delete (d) <id>       - Delete a breakpoint",
  "  enable/disable <id>   - Enable or disable a breakpoint",
  "  toggle (t) [addr]     - Toggle an execution breakpoint at addr or the cursor",
  "  breakpoints (bl)      - List breakpoints",
  "",
  "Disassembly:",
  "  list (l)              - Show disassembly",
  "  goto (g) <addr|label> - Show disassembly at an address",
  "  pc                    - Show disassembly at PC",
  "  stack [n]             - Show disassembly at the n-th stack entry",
  "  up/down               - Move the cursor",
  "  scroll <n>            - Scroll the view by n lines",
  "  view logical|physical - Switch the address view",
  "  registers (r)         - Show registers",
  "  symbols <file>        - Load a symbol file",
  "",
  "Breakpoint definitions:",
  "  [type] [mode] START[-END] [mask=MASK]",
  "  type: logical (l), physical (p), io, opcode (op)",
  "  mode: r, w, x or a combination such as rw",
  "",
  "Examples:",
  "  break l x 9d95",
  "  break p w 1f:0100",
  "  break op x ed44"]

end Report

end Z80Debugger
