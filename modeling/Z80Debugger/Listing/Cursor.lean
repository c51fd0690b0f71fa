import Z80Debugger.Listing.Walk

/-!
# The cursor of a listing

A window shows a number of lines of a listing from a base address on, and one address is selected.
While the cursor follows the program counter, it selects the program counter before the window is
shown; moving the cursor ends that.  The selection and the base stay together: when one leaves the
window, the other is set to it.
-/

set_option autoImplicit false

namespace Z80Debugger

/-- Whether a window or a selection moves to lower or to higher addresses. -/
inductive Direction where
  | up
  | down
  deriving DecidableEq, Repr

/-- A window on a listing with a selected address. -/
structure Cursor where
  base : UInt32 := 0
  selected : UInt32 := 0
  lines : Nat
  /-- The selection is the program counter. -/
  followsPc : Bool := true
  view : View
  deriving DecidableEq, Repr

/-- A line as it is shown. -/
structure Row where
  address : UInt32
  text : String
  isPc : Bool
  hasBreakpoint : Bool
  isSelected : Bool
  deriving DecidableEq, Repr

namespace Listing

/-- The instruction one line away from an address. -/
def neighbour (l : Listing) (direction : Direction) (address : UInt32) : UInt32 :=
  match direction with
  | .up => l.previous address
  | .down => l.next address

/-- The text of the line at an address. -/
def textAt (l : Listing) (address : UInt32) : String :=
  match l.line? address with
  | some line => line.text
  | none => "??"

/-- The addresses of a number of lines from an address on. -/
def addresses (l : Listing) : Nat → UInt32 → List UInt32
  | 0, _ => []
  | lines + 1, address => address :: addresses l lines (l.next address)

/-- As many addresses are listed as there are lines. -/
@[simp] theorem length_addresses (l : Listing) (lines : Nat) (address : UInt32) :
    (l.addresses lines address).length = lines := by
  induction lines generalizing address with
  | zero => rfl
  | succ lines ih => simp [addresses, ih]

end Listing

namespace Cursor

/-- A cursor that follows the program counter in a window of at least one line. -/
def ofLines (lines : Nat) (view : View) : Cursor := { lines := max lines 1, view }

/-- Looks at memory in another way, and follows the program counter again. -/
def setView (c : Cursor) (view : View) : Cursor := { c with view, followsPc := true }

/-- Whether an address stands in the window. -/
def shows (c : Cursor) (l : Listing) (address : UInt32) : Bool :=
  (l.lineOf? c.base c.lines address).isSome

/-- The cursor with its selection moved into the window, to the first line if it is not there. -/
def selectShown (c : Cursor) (l : Listing) : Cursor :=
  if c.shows l c.selected then c else { c with selected := c.base }

/-- The cursor with its window moved to the selection, if that is not shown. -/
def showSelected (c : Cursor) (l : Listing) : Cursor :=
  if c.shows l c.selected then c else { c with base := c.selected }

/-- Moves the window by a number of lines: down for positive numbers, up for negative ones. -/
def scroll (c : Cursor) (l : Listing) (delta : Int) : Cursor :=
  let direction := if 0 < delta then Direction.down else .up
  let moved := { c with base := delta.natAbs.repeat (l.neighbour direction) c.base }
  { moved.selectShown l with followsPc := false }

/-- Moves the selection by one line. -/
def move (c : Cursor) (l : Listing) (direction : Direction) : Cursor :=
  let moved := { c with selected := l.neighbour direction c.selected }
  { moved.showSelected l with followsPc := false }

/-- Selects an address and shows it first. -/
def goTo (c : Cursor) (address : UInt32) : Cursor :=
  let place := address &&& c.view.mask
  { c with base := place, selected := place, followsPc := false }

/-- Selects the program counter, shows it first and follows it from now on. -/
def goToPc (c : Cursor) (pc : UInt32) : Cursor := { c.goTo pc with followsPc := true }

/-- Brings the selection to the program counter, if the cursor follows it. -/
def sync (c : Cursor) (l : Listing) (pc : UInt32) : Cursor :=
  if c.followsPc then { c with selected := pc &&& c.view.mask }.showSelected l else c

/-- The lines of the window. -/
def rows (c : Cursor) (l : Listing) (pc : UInt32) (hasBreakpoint : UInt32 → Bool) : List Row :=
  (l.addresses c.lines c.base).map fun address => {
    address
    text := l.textAt address
    isPc := address == pc &&& c.view.mask
    hasBreakpoint := hasBreakpoint address
    isSelected := address == c.selected }

/-- The window has as many rows as it has lines. -/
@[simp] theorem length_rows (c : Cursor) (l : Listing) (pc : UInt32)
    (hasBreakpoint : UInt32 → Bool) : (c.rows l pc hasBreakpoint).length = c.lines := by
  simp [rows]

end Cursor

end Z80Debugger
