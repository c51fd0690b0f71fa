import Z80Debugger.Breakpoint.Store
import Z80Debugger.Disassembly
import Z80Debugger.Listing.Cursor
import Z80Debugger.Text.Decimal

/-!
# Commands

A command line is words between blanks: the name of a command, in full or short, and its arguments.
A definition of a breakpoint, an address or a file name takes all words that are left, joined by
single spaces.  Words beyond what a command takes are ignored.
-/

set_option autoImplicit false

namespace Z80Debugger

/-- A command of the user. -/
inductive Command where
  /-- Adds a breakpoint; an empty definition is asked for. -/
  | breakAt (definition : String)
  /-- Replaces a breakpoint; an empty definition is asked for. -/
  | edit (id : BreakpointId) (definition : String)
  | delete (id : BreakpointId)
  | enable (id : BreakpointId)
  | disable (id : BreakpointId)
  /-- Switches a breakpoint at an address, or at the selected one. -/
  | toggle (address : Option String)
  | breakpoints
  | resume
  | step
  | next
  | finish
  | disassemble
  | goTo (address : String)
  | goToPc
  | stack (entry : Int)
  | scroll (delta : Int)
  | move (direction : Direction)
  | view (view : View)
  | registers
  | symbols (file : String)
  | help
  | quit
  deriving DecidableEq, Repr

namespace Command

/-- The words that are left, as one text. -/
def rest (args : List (List Char)) : String := String.ofList (Text.joinWords args)

/-- The number of a breakpoint in the first word. -/
def id? (args : List (List Char)) : Option BreakpointId := args.head?.bind Text.Decimal.count?

/-- A view by its name or first letter. -/
def view? (word : List Char) : Option View :=
  let folded := Text.fold word
  if folded = "logical".toList || folded = "l".toList then some .logical
  else if folded = "physical".toList || folded = "p".toList then some .physical
  else none

/-- The command of a name and its arguments. -/
def ofWords? (name : String) (args : List (List Char)) : Option Command :=
  match name with
  | "break" | "b" => some (breakAt (rest args))
  | "edit" | "e" => (id? args).map fun id => edit id (rest args.tail)
  | "delete" | "d" => (id? args).map delete
  | "enable" => (id? args).map enable
  | "disable" => (id? args).map disable
  | "toggle" | "t" => some (toggle (args.head?.map String.ofList))
  | "breakpoints" | "bl" => some breakpoints
  | "info" => match args.head?.map String.ofList with
    | some "breakpoints" | some "b" => some breakpoints
    | some "registers" | some "r" => some registers
    | _ => none
  | "continue" | "c" => some resume
  | "step" | "s" => some step
  | "next" | "n" => some next
  | "finish" | "f" => some finish
  | "disasm" | "x" | "list" | "l" => some disassemble
  | "goto" | "g" => if args.isEmpty then none else some (goTo (rest args))
  | "pc" => some goToPc
  | "stack" => match args with
    | [] => some (stack 0)
    | word :: _ => (Text.Decimal.signed? word).map stack
  | "scroll" => (args.head?.bind Text.Decimal.signed?).map scroll
  | "up" => some (move .up)
  | "down" => some (move .down)
  | "view" => (args.head?.bind view?).map view
  | "registers" | "regs" | "r" => some registers
  | "symbols" | "sym" => if args.isEmpty then none else some (symbols (rest args))
  | "help" | "h" | "?" => some help
  | "quit" | "q" | "exit" => some quit
  | _ => none

/-- The command of a line, if it names one and its arguments are right. -/
def parse? (line : String) : Option Command :=
  match Text.words line.toList with
  | [] => none
  | name :: args => ofWords? (String.ofList name) args

end Command

end Z80Debugger
