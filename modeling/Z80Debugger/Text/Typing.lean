import Z80Debugger.Text.Cluster

/-!
# Typed text

A line of input may hold backspaces, each of which takes back the cluster before it, if there is
one.  The program leaves this to the line input of a library beside it, so what stands here and
under `ClusterClass` and `ClusterContext` describes that library's behaviour, and no part of the
debugger itself.  Only the outermost layer, `InputLine.ofRow`, reads with it; commands are defined
on the lines that come out of it, and no statement about them depends on how a line was typed.
-/

set_option autoImplicit false

namespace Z80Debugger.Text

/-- Text as it is being typed. -/
structure Typing where
  /-- The characters that stand, the last one first. -/
  text : List Char := []
  /-- The number of bytes of each cluster that can be taken back, the last one first. -/
  widths : List Nat := []
  context : ClusterContext := .start

namespace Typing

/-- The character that takes back a cluster. -/
def backspace : Char := '\x08'

/-- The widths after a character of the given size has gone on with the last cluster. -/
def widenLast (size : Nat) : List Nat → List Nat
  | [] => [size]
  | width :: widths => (width + size) :: widths

/-- Types a character. -/
def put (t : Typing) (c : Char) : Typing :=
  let k := ClusterClass.ofChar c
  { text := c :: t.text
    widths := if t.context.joins k then widenLast c.utf8Size t.widths else c.utf8Size :: t.widths
    context := t.context.next k }

/-- Takes characters off the front of a list until the given number of bytes is gone. -/
def dropBytes : Nat → List Char → List Char
  | _, [] => []
  | 0, cs => cs
  | n + 1, c :: cs => dropBytes (n + 1 - c.utf8Size) cs

/-- Takes back the last cluster.  Its width is kept in one byte, so of a cluster of 256 bytes or
more only the remainder goes.  Nothing joins what stood before the backspace. -/
def takeBack (t : Typing) : Typing :=
  match t.widths with
  | [] => { t with context := .start }
  | width :: widths => { text := dropBytes (width % 256) t.text, widths, context := .start }

/-- Takes in a character or a backspace. -/
def step (t : Typing) (c : Char) : Typing := if c = backspace then t.takeBack else t.put c

/-- The text that stands after everything has been typed. -/
def read (cs : List Char) : List Char := (cs.foldl step {}).text.reverse

/-- The string that stands after everything has been typed. -/
def readString (s : String) : String := String.ofList (read s.toList)

example : read ['b', 'e', backspace, 'l'] = ['b', 'l'] := by
  decide +kernel

example : read ['g', '🇯', '🇵', backspace, 'p'] = ['g', 'p'] := by
  decide +kernel

end Typing

end Z80Debugger.Text
