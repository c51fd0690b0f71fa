import Z80Debugger.Memory.Layout
import Z80Debugger.Text.Decimal
import Z80Debugger.Text.Hex

/-!
# Command-line options

The program is called as `run IMAGE` with options in any place.  A long option takes its value as
`--name=value` or as the next argument, a short one also directly behind its letter; a value that
starts with a dash must be given in one of the joined forms.  No option may be given twice, and what
follows `--` is no option.
-/

set_option autoImplicit false

namespace Z80Debugger

/-- What the program is asked to do. -/
structure Options where
  /-- The name of the program image. -/
  image : String
  /-- Where the image is loaded and execution starts. -/
  origin : UInt16 := 0x9D95
  symbols : Option String := none
  romSize : UInt32 := 0x80000
  ramSize : UInt32 := 0x8000
  ramPageBase : UInt32 := 0x40
  lines : Nat := 16
  physical : Bool := false
  defaultSpace : String := "logical"
  defaultModes : String := "x"
  /-- The seconds for which a command waits for a running program. -/
  timeout : Nat := 5
  deriving DecidableEq, Repr

namespace Options

/-- A hexadecimal number behind any number of dollar signs and then of `0x`, with an optional plus
sign. -/
def hexWord? (text : String) : Option UInt32 :=
  let digits := dropRadix (text.toList.dropWhile (· == '$'))
  match digits with
  | '+' :: rest => Text.Hex.word? rest
  | _ => Text.Hex.word? digits
where
  dropRadix : List Char → List Char
    | '0' :: 'x' :: rest => dropRadix rest
    | cs => cs

/-- The largest size of ROM and of RAM. -/
def maxMemorySize : UInt32 := 0x4000000

/-- A size from one byte to the largest. -/
def memorySize? (text : String) : Option UInt32 :=
  (hexWord? text).filter fun size => 0 < size && size ≤ maxMemorySize

/-- A 16-bit address. -/
def address? (text : String) : Option UInt16 :=
  (hexWord? text).bind fun w => if w ≤ 0xFFFF then some w.toUInt16 else none

/-- The options that take a value, by their long names. -/
inductive Name where
  | org
  | symbols
  | romSize
  | ramSize
  | ramPageBase
  | lines
  | defaultType
  | defaultMode
  | timeout
  deriving DecidableEq, Repr

/-- The option with a long name. -/
def Name.ofLong? (name : String) : Option Name :=
  match name with
  | "org" => some .org
  | "symbols" => some .symbols
  | "rom-size" => some .romSize
  | "ram-size" => some .ramSize
  | "ram-page-base" => some .ramPageBase
  | "lines" => some .lines
  | "default-type" => some .defaultType
  | "default-mode" => some .defaultMode
  | "timeout" => some .timeout
  | _ => none

/-- The option with a letter. -/
def Name.ofLetter? (c : Char) : Option Name :=
  if c = 's' then some .symbols else if c = 'l' then some .lines else none

/-- An argument list taken apart. -/
structure Parsed where
  image : Option String := none
  physical : Bool := false
  values : List (Name × String) := []

namespace Parsed

/-- Takes in the image's name; there is only one. -/
def addImage (p : Parsed) (name : String) : Option Parsed :=
  if p.image.isSome then none else some { p with image := some name }

/-- Takes in the value of an option that has none yet. -/
def addValue (p : Parsed) (name : Name) (value : String) : Option Parsed :=
  if p.values.any (·.1 == name) then none else some { p with values := (name, value) :: p.values }

/-- Takes in the switch for the physical view. -/
def addPhysical (p : Parsed) : Option Parsed :=
  if p.physical then none else some { p with physical := true }

end Parsed

/-- An argument by its form. -/
inductive Argument where
  | plain
  | endOfOptions
  /-- A switch. -/
  | physical
  /-- An option with its value, or without one. -/
  | option (name : Name) (value : Option String)
  | unknown

/-- An argument that begins with two dashes. -/
def longArgument (cs : List Char) : Argument :=
  let (name, value) := match Text.splitFirst? '=' cs with
    | some (name, value) => (String.ofList name, some (String.ofList value))
    | none => (String.ofList cs, none)
  if name = "physical" then if value.isNone then .physical else .unknown
  else match Name.ofLong? name with
    | some name => .option name value
    | none => .unknown

/-- An argument that begins with one dash and a letter. -/
def shortArgument (letter : Char) (rest : List Char) : Argument :=
  match Name.ofLetter? letter with
  | none => .unknown
  | some name => match rest with
    | [] => .option name none
    | '=' :: value => .option name (some (String.ofList value))
    | value => .option name (some (String.ofList value))

/-- The form of an argument. -/
def Argument.ofText (text : String) : Argument :=
  match text.toList with
  | ['-', '-'] => .endOfOptions
  | '-' :: '-' :: cs => longArgument cs
  | '-' :: letter :: rest => shortArgument letter rest
  | _ => .plain

/-- Takes in all arguments. -/
def scan (p : Parsed) : List String → Option Parsed
  | [] => some p
  | arg :: args => match Argument.ofText arg with
    | .plain => (p.addImage arg).bind fun p => scan p args
    | .endOfOptions => args.foldlM Parsed.addImage p
    | .physical => p.addPhysical.bind fun p => scan p args
    | .option name (some value) => (p.addValue name value).bind fun p => scan p args
    | .option name none => match args with
      | [] => none
      | value :: args => match Argument.ofText value with
        | .plain => (p.addValue name value).bind fun p => scan p args
        | _ => none
    | .unknown => none

/-- Puts the value of one option in its place. -/
def set (o : Options) (name : Name) (value : String) : Option Options :=
  match name with
  | .org => (address? value).map fun origin => { o with origin }
  | .symbols => some { o with symbols := some value }
  | .romSize => (memorySize? value).map fun romSize => { o with romSize }
  | .ramSize => (memorySize? value).map fun ramSize => { o with ramSize }
  | .ramPageBase => (hexWord? value).map fun ramPageBase => { o with ramPageBase }
  | .lines => (Text.Decimal.count? value.toList).map fun lines => { o with lines }
  | .defaultType => some { o with defaultSpace := value }
  | .defaultMode => some { o with defaultModes := value }
  | .timeout => (Text.Decimal.count? value.toList).map fun timeout => { o with timeout }

/-- The options of an argument list, if it is right. -/
def parse? (args : List String) : Option Options := do
  let "run" :: args := args | none
  let parsed ← scan {} args
  let image ← parsed.image
  parsed.values.foldlM (fun o (name, value) => o.set name value)
    { image, physical := parsed.physical }

end Options

end Z80Debugger
