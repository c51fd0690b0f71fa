import Z80Debugger.Symbols.Table
import Z80Debugger.Text.Hex
import Z80Debugger.Text.WordCharacter

/-!
# Symbol files

A symbol file defines one name a line, as `NAME = ADDRESS`, `NAME equ ADDRESS` or
`NAME .equ ADDRESS`.  The address is hexadecimal, with an optional `$` or `0x` before it and an
optional `h` behind it; a comment may follow behind a semicolon.  Blank lines and lines that begin
with `;` or `#` define nothing.  A file is taken as a whole: one bad line and none of it counts.

A name may itself end in letters that read as `equ`, or in a dot; of the readings of a line, the one
with the longest name is taken.
-/

set_option autoImplicit false

namespace Z80Debugger

namespace Symbols

/-- The line at which a symbol file could not be read. -/
structure Malformed where
  /-- The number of the line, counted from one. -/
  line : Nat
  /-- The line without the blanks around it. -/
  text : String
  deriving DecidableEq, Repr

/-- What is wrong, as it is shown. -/
def Malformed.message (e : Malformed) : String :=
  "line " ++ toString e.line ++ ": cannot parse symbol definition '" ++ e.text ++ "'"

namespace File

/-- The characters that begin a name: the ASCII letters with the two others that fold to one of
them, the underscore and the dot. -/
def isNameStart (c : Char) : Bool :=
  c.isAlpha || c == '_' || c == '.' || c.toNat == 0x17F || c.toNat == 0x212A

/-- The characters that continue a name. -/
def isNameCharacter (c : Char) : Bool := Text.isWordCharacter c || c == '.'

/-- What stands behind `equ` in any case, if the text begins with it. -/
def afterEqu? (cs : List Char) : Option (List Char) :=
  match cs with
  | e :: q :: u :: rest =>
    if Text.fold [e, q, u] = ['e', 'q', 'u'] then some rest else none
  | _ => none

/-- What stands behind the sign of a definition, if the text begins with one. -/
def afterSign? (cs : List Char) : Option (List Char) :=
  match cs with
  | '=' :: rest => some rest
  | '.' :: rest => afterEqu? rest
  | _ => afterEqu? cs

/-- The text without an `h` at its start. -/
def withoutSuffix (cs : List Char) : List Char :=
  match cs with
  | 'h' :: rest => rest
  | 'H' :: rest => rest
  | _ => cs

/-- Whether nothing but blanks and a comment is left. -/
def isTail (cs : List Char) : Bool :=
  match Text.trimStart cs with
  | [] => true
  | c :: _ => c == ';'

/-- The digits of the address that the rest of a definition gives, after its name. -/
def digitsAfterName? (cs : List Char) : Option (List Char) := do
  let rest ← afterSign? (Text.trimStart cs)
  let number := Text.Hex.withoutRadix (Text.trimStart rest)
  let isDigit c := (Text.Hex.digit? c).isSome
  let digits := number.takeWhile isDigit
  if digits.isEmpty then none
  else if isTail (withoutSuffix (number.dropWhile isDigit)) then some digits
  else none

/-- Reads a definition whose name has at most the given number of characters, the longest first. -/
def splitAtName? (line : List Char) : Nat → Option (List Char × List Char)
  | 0 => none
  | n + 1 => match digitsAfterName? (line.drop (n + 1)) with
    | some digits => some (line.take (n + 1), digits)
    | none => splitAtName? line n

/-- The name and the address that a trimmed line defines. -/
def definition? (line : List Char) : Option (String × UInt32) := do
  let first :: rest := line | none
  if isNameStart first then
    let (name, digits) ← splitAtName? line (1 + (rest.takeWhile isNameCharacter).length)
    let address ← Text.Hex.word? digits
    return (String.ofList name, address)
  else none

/-- Whether a trimmed line defines nothing: it is empty or a comment. -/
def isSilent (line : List Char) : Bool :=
  match line with
  | [] => true
  | c :: _ => c == ';' || c == '#'

/-- The definitions of the lines, the first of which has the given number. -/
def definitionsFrom (number : Nat) : List (List Char) → Except Malformed (List (String × UInt32))
  | [] => .ok []
  | line :: lines =>
    let text := Text.trim line
    if isSilent text then definitionsFrom (number + 1) lines
    else match definition? text with
      | some entry => (definitionsFrom (number + 1) lines).map (entry :: ·)
      | none => .error { line := number, text := String.ofList text }

/-- The definitions of a file in their order. -/
def definitions (text : String) : Except Malformed (List (String × UInt32)) :=
  definitionsFrom 1 (Text.pieces (· == '\n') text.toList)

end File

/-- Adds the definitions of a file and counts them; a bad line adds nothing. -/
def parse (s : Symbols) (text : String) : Except Malformed (Symbols × Nat) :=
  (File.definitions text).map fun ds => (s.insertAll ds, ds.length)

end Symbols

end Z80Debugger
