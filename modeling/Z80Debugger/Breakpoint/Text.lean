import Z80Debugger.Address
import Z80Debugger.Breakpoint.Basic

/-!
# Breakpoints as text

A breakpoint is written as words in any order and case: a space, modes, a mask, `(disabled)` and a
range `START`, `START-` or `START-END`.  Of several words of one kind the first counts, though every
mask must be a number.  Space and modes may be left out; the ones of the last breakpoint then take
their place.  A mask counts only in the physical and the opcode space.

`Breakpoint.text` writes a breakpoint in one fixed form, which gives the same breakpoint back when
it is read.
-/

set_option autoImplicit false

namespace Z80Debugger

/-- Why a text gives no breakpoint. -/
inductive BreakpointError where
  | empty
  | missingAddress
  | invalidAddress (text : String)
  | invalidEnd (text : String)
  | invalidMask (text : String)
  /-- A port was given modes, but neither read nor write. -/
  | invalidModes (text : String)
  | endBeforeStart (text : String)
  deriving DecidableEq, Repr

namespace BreakpointError

/-- The cause, as it is shown. -/
def message : BreakpointError → String
  | empty => "Empty breakpoint definition"
  | missingAddress => "Missing address"
  | invalidAddress t => "Invalid address '" ++ t ++ "'"
  | invalidEnd t => "Invalid end address '" ++ t ++ "'"
  | invalidMask t => "Invalid mask '" ++ t ++ "'"
  | invalidModes t =>
    "Invalid access mode '" ++ t ++ "' (I/O port breakpoints accept only read and write)"
  | endBeforeStart t => "End < start in '" ++ t ++ "'"

end BreakpointError

namespace Breakpoint

/-- The space and the modes that are taken when a text leaves them out. -/
structure Defaults where
  space : Space := .logical
  modes : Modes := .only .exec
  deriving DecidableEq, Repr, Inhabited

/-- The space and the modes of a breakpoint. -/
def defaults (b : Breakpoint) : Defaults where
  space := b.space
  modes := b.modes

/-- What addresses in a text may refer to. -/
structure Context where
  labels : Labels := Labels.none
  layout : Option Layout := none

/-- A word of a breakpoint's text. -/
inductive Word where
  | space (s : Space)
  /-- The text of a mask. -/
  | mask (value : List Char)
  | disabled
  | modes (m : Modes)
  | address

/-- The space that a folded word names. -/
def spaceWord? (w : List Char) : Option Space :=
  if w ∈ ["logical".toList, "log".toList, "l".toList, "mem".toList] then some .logical
  else if w ∈ ["physical".toList, "phys".toList, "p".toList, "abs".toList] then some .physical
  else if w ∈ ["port".toList, "io".toList, "i/o".toList] then some .port
  else if w ∈ ["opcode".toList, "op".toList] then some .opcode
  else none

/-- The mode that a letter stands for. -/
def modeLetter? (c : Char) : Option Mode :=
  if c = 'r' then some .read
  else if c = 'w' then some .write
  else if c = 'x' then some .exec
  else none

/-- The modes of a run of letters, all of which must stand for one. -/
def modeLetters? : List Char → Option Modes
  | [] => some .empty
  | c :: cs => match modeLetter? c, modeLetters? cs with
    | some m, some ms => some ((Modes.only m).union ms)
    | _, _ => none

/-- The modes of one part of a mode word. -/
def modePart? (part : List Char) : Option Modes :=
  if part = "read".toList then some (.only .read)
  else if part = "write".toList then some (.only .write)
  else if part = "exec".toList || part = "execute".toList then some (.only .exec)
  else if part.isEmpty then none
  else modeLetters? part

/-- The characters that join the parts of a mode word. -/
def isModeSeparator (c : Char) : Bool := c == '/' || c == '+' || c == ',' || c == '|' || c == '-'

/-- The modes of all parts, each of which must give some. -/
def modeParts? : List (List Char) → Option Modes
  | [] => some .empty
  | part :: parts => match modePart? part, modeParts? parts with
    | some m, some ms => some (m.union ms)
    | _, _ => none

/-- The modes that a folded word names. -/
def modesWord? (w : List Char) : Option Modes := modeParts? (Text.pieces isModeSeparator w)

/-- The text behind `mask=` or `mask:` in a folded word. -/
def maskWord? (w : List Char) : Option (List Char) :=
  (Text.after? "mask=".toList w).or (Text.after? "mask:".toList w)

/-- What a word says.  Case does not matter. -/
def Word.ofText (w : List Char) : Word :=
  let folded := Text.fold w
  match spaceWord? folded with
  | some s => .space s
  | none => match maskWord? folded with
    | some value => .mask value
    | none =>
      if folded = "(disabled)".toList then .disabled
      else match modesWord? folded with
        | some m => .modes m
        | none => .address

/-- What the words of a text have said so far. -/
structure Fields where
  space : Option Space := none
  /-- The modes and the word that named them. -/
  modes : Option (Modes × List Char) := none
  mask : Option UInt32 := none
  address : Option (List Char) := none
  enabled : Bool := true

namespace Fields

/-- Takes in one word. -/
def add (labels : Labels) (f : Fields) (w : List Char) : Except BreakpointError Fields :=
  match Word.ofText w with
  | .space s => .ok { f with space := f.space.or (some s) }
  | .mask value => match Address.parse? labels value with
    | some v => .ok { f with mask := f.mask.or (some v) }
    | none => .error (.invalidMask (String.ofList w))
  | .disabled => .ok { f with enabled := false }
  | .modes m => .ok { f with modes := f.modes.or (some (m, w)) }
  | .address => .ok { f with address := f.address.or (some w) }

/-- Takes in words in order. -/
def addAll (labels : Labels) (f : Fields) : List (List Char) → Except BreakpointError Fields
  | [] => .ok f
  | w :: ws => match f.add labels w with
    | .ok f => addAll labels f ws
    | .error e => .error e

end Fields

/-- The modes of a breakpoint in a space, from those that the text named or else the last ones.
Opcodes are always run; a port keeps what it knows of the modes and is read if nothing was named;
memory is run if there is no mode at all. -/
def modesIn (space : Space) (named : Option (Modes × List Char)) (last : Modes) :
    Except BreakpointError Modes :=
  let modes := match named with
    | some (m, _) => m
    | none => last
  match space with
  | .opcode => .ok (.only .exec)
  | .port =>
    let legal := modes.inter Space.port.legalModes
    if legal.isEmpty then
      match named with
      | some (_, w) => .error (.invalidModes (String.ofList w))
      | none => .ok (.only .read)
    else .ok legal
  | .logical | .physical => .ok (if modes.isEmpty then .only .exec else modes)

/-- The value of an address in a space; a page and an offset count only in the physical space. -/
def addressIn? (space : Space) (context : Context) (cs : List Char) : Option UInt32 :=
  if space = .physical ∧ ':' ∈ cs then
    match context.layout with
    | some layout => Address.parsePaged? layout context.labels cs
    | none => none
  else Address.parse? context.labels cs

/-- The two ends of a range; the second is missing when it is not written or empty. -/
def rangeEnds (cs : List Char) : List Char × Option (List Char) :=
  match Text.splitFirst? '-' cs with
  | some (a, []) => (a, none)
  | some (a, b) => (a, some b)
  | none => (cs, none)

/-- The mask of a breakpoint: only the physical and the opcode space take one. -/
def maskIn (space : Space) (named : Option UInt32) : UInt32 :=
  match space, named with
  | .physical, some m | .opcode, some m => m
  | _, _ => space.defaultMask

/-- The two values of a range in a space. -/
def rangeIn (space : Space) (context : Context) (cs : List Char) :
    Except BreakpointError (UInt32 × UInt32) :=
  let (start, stop?) := rangeEnds cs
  match addressIn? space context start with
  | none => .error (.invalidAddress (String.ofList start))
  | some first => match stop? with
    | none => .ok (first, first)
    | some stop => match addressIn? space context stop with
      | none => .error (.invalidEnd (String.ofList stop))
      | some last => .ok (first, last)

/-- The breakpoint that the words of a text describe. -/
def ofFields (d : Defaults) (context : Context) (f : Fields) :
    Except BreakpointError Breakpoint := do
  let space := f.space.getD d.space
  let modes ← modesIn space f.modes d.modes
  let some range := f.address | throw .missingAddress
  let (first, last) ← rangeIn space context range
  let b := ((ofRange space modes first last).withMask (maskIn space f.mask)).withEnabled f.enabled
  if b.last < b.first then throw (.endBeforeStart (String.ofList range))
  return b

/-- The breakpoint that words describe. -/
def parseWords (d : Defaults) (context : Context) (words : List (List Char)) :
    Except BreakpointError Breakpoint :=
  if words.isEmpty then .error .empty
  else match Fields.addAll context.labels {} words with
    | .ok f => ofFields d context f
    | .error e => .error e

/-- The breakpoint that a text describes. -/
def parse (d : Defaults) (context : Context) (text : String) : Except BreakpointError Breakpoint :=
  parseWords d context (Text.words text.toList)

/-- The letters of the modes in a set. -/
def modeLetters (m : Modes) : List Char :=
  (if m.read then ['R'] else []) ++ (if m.write then ['W'] else []) ++
    (if m.exec then ['X'] else [])

/-- The number of digits with which the range is written. -/
def rangeWidth (b : Breakpoint) : Nat :=
  match b.space with
  | .logical => 4
  | .physical => if 0xFFFF < b.last then 6 else 4
  | .port => 2
  | .opcode => if 0xFFFF < b.last then 6 else 2

/-- The range, as one address or two. -/
def rangeText (b : Breakpoint) : List Char :=
  let first := Text.Hex.padded b.rangeWidth b.first.toNat
  if b.first = b.last then first
  else first ++ '-' :: Text.Hex.padded b.rangeWidth b.last.toNat

/-- The words of a breakpoint's text: space, modes, range, then a mask that is not the space's own,
and a mark if the breakpoint is disabled. -/
def textWords (b : Breakpoint) : List (List Char) :=
  [b.space.label.toList, modeLetters b.modes, b.rangeText] ++
    (if b.mask = b.space.defaultMask then []
      else ["mask=".toList ++ Text.Hex.padded 1 b.mask.toNat]) ++
    (if b.enabled then [] else ["(disabled)".toList])

/-- The breakpoint's text. -/
def text (b : Breakpoint) : String := String.ofList (Text.joinWords b.textWords)

end Breakpoint

end Z80Debugger
