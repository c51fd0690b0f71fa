import Z80Debugger.Symbols.File

/-!
# Loading symbols

A symbol file is read as a whole.  It may be missing, it may not be text, or one of its lines may
not be a definition; in all these cases the table stays as it was.
-/

set_option autoImplicit false

namespace Z80Debugger

/-- Why a file cannot be read as text. -/
inductive FileError where
  | missing
  | notText
  deriving DecidableEq, Repr

namespace FileError

/-- The cause, as it is shown. -/
def message : FileError → String
  | missing => "No such file or directory (os error 2)"
  | notText => "stream did not contain valid UTF-8"

/-- The text of a file with the given contents; a file that does not exist has none. -/
def textOf (contents : Option ByteArray) : Except FileError String :=
  match contents with
  | none => .error .missing
  | some bytes => match String.fromUTF8? bytes with
    | some text => .ok text
    | none => .error .notText

end FileError

/-- Why symbols cannot be loaded from a file. -/
inductive SymbolsError where
  | unreadable (name : String) (cause : FileError)
  | malformed (cause : Symbols.Malformed)
  deriving DecidableEq, Repr

/-- The cause, as it is shown. -/
def SymbolsError.message : SymbolsError → String
  | unreadable name cause => "Failed to read symbol file " ++ name ++ ": " ++ cause.message
  | malformed cause => cause.message

namespace Symbols

/-- Adds the definitions of a file and counts them. -/
def load (s : Symbols) (name : String) (contents : Option ByteArray) :
    Except SymbolsError (Symbols × Nat) :=
  match FileError.textOf contents with
  | .error cause => .error (.unreadable name cause)
  | .ok text => (s.parse text).mapError .malformed

end Symbols

end Z80Debugger
