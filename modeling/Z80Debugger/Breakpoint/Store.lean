import Z80Debugger.Breakpoint.Basic

/-!
# The breakpoint store

The store keeps breakpoints in the order in which they were added, each under a number that is never
used again, together with the handles of the traps that are registered for it.  An enabled
breakpoint has a trap for each of its modes that its space knows, as far as the table of traps took
them; a disabled one has none.
-/

set_option autoImplicit false

namespace Z80Debugger

/-- The number of a breakpoint; numbers start at one. -/
abbrev BreakpointId : Type := Nat

/-- The registered traps of a breakpoint, one for each mode at most. -/
structure Handles where
  exec : Option Handle := none
  write : Option Handle := none
  read : Option Handle := none
  deriving DecidableEq, Repr, Inhabited

namespace Handles

/-- The handle for a mode. -/
def get (hs : Handles) : Mode → Option Handle
  | .exec => hs.exec
  | .write => hs.write
  | .read => hs.read

/-- The registered handles. -/
def toList (hs : Handles) : List Handle := [hs.exec, hs.write, hs.read].filterMap id

end Handles

namespace Traps

/-- Registers a breakpoint's trap for one mode, if it has one and there is room. -/
def arm (ts : Traps) (b : Breakpoint) (mode : Mode) : Option Handle × Traps :=
  if b.modes.contains mode then
    match (b.trap? mode).bind ts.add? with
    | some (h, ts) => (some h, ts)
    | none => (none, ts)
  else (none, ts)

/-- Registers the traps of a breakpoint; a disabled one has none. -/
def armAll (ts : Traps) (b : Breakpoint) : Handles × Traps :=
  if b.enabled then
    let (exec, ts) := ts.arm b .exec
    let (write, ts) := ts.arm b .write
    let (read, ts) := ts.arm b .read
    ({ exec, write, read }, ts)
  else ({}, ts)

/-- Removes traps. -/
def disarm (ts : Traps) (handles : List Handle) : Traps := handles.foldl erase ts

end Traps

/-- A breakpoint in the store. -/
structure Entry where
  id : BreakpointId
  breakpoint : Breakpoint
  handles : Handles := {}
  deriving DecidableEq, Repr

/-- The breakpoints of a user. -/
structure Store where
  /-- The breakpoints in the order in which they were added. -/
  entries : List Entry := []
  /-- The number of the next breakpoint. -/
  nextId : BreakpointId := 1
  deriving DecidableEq, Repr, Inhabited

/-- What switching a breakpoint on or off did. -/
inductive Toggle where
  | added (id : BreakpointId)
  | removed (id : BreakpointId)
  deriving DecidableEq, Repr

namespace Store

/-- The number of breakpoints. -/
def size (s : Store) : Nat := s.entries.length

/-- The breakpoints with their numbers. -/
def toList (s : Store) : List (BreakpointId × Breakpoint) :=
  s.entries.map fun e => (e.id, e.breakpoint)

/-- The registered handles of all breakpoints. -/
def handles (s : Store) : List Handle := s.entries.flatMap (·.handles.toList)

/-- The entry with a number. -/
def get? (s : Store) (id : BreakpointId) : Option Entry := s.entries.find? (·.id == id)

/-- Puts an entry in the place of the one with its number. -/
def put (s : Store) (entry : Entry) : Store :=
  { s with entries := s.entries.map fun e => if e.id = entry.id then entry else e }

/-- Adds a breakpoint and gives its number. -/
def add (s : Store) (ts : Traps) (b : Breakpoint) : BreakpointId × Store × Traps :=
  let (handles, ts) := ts.armAll b
  let entry := { id := s.nextId, breakpoint := b, handles }
  (s.nextId, { entries := s.entries ++ [entry], nextId := s.nextId + 1 }, ts)

/-- Removes the breakpoint with a number, if there is one. -/
def remove? (s : Store) (ts : Traps) (id : BreakpointId) : Option (Store × Traps) :=
  (s.get? id).map fun e =>
    ({ s with entries := s.entries.filter (·.id != id) }, ts.disarm e.handles.toList)

/-- Registers the traps of an entry anew after its breakpoint has changed. -/
def rearm (s : Store) (ts : Traps) (e : Entry) (b : Breakpoint) : Store × Traps :=
  let (handles, ts) := (ts.disarm e.handles.toList).armAll b
  (s.put { e with breakpoint := b, handles }, ts)

/-- Puts another breakpoint in the place of the one with a number, enabled as that one was. -/
def replace? (s : Store) (ts : Traps) (id : BreakpointId) (b : Breakpoint) :
    Option (Store × Traps) :=
  (s.get? id).map fun e => s.rearm ts e (b.withEnabled e.breakpoint.enabled)

/-- Enables or disables the breakpoint with a number. -/
def setEnabled? (s : Store) (ts : Traps) (id : BreakpointId) (enabled : Bool) :
    Option (Store × Traps) :=
  (s.get? id).map fun e =>
    if e.breakpoint.enabled = enabled then (s, ts)
    else s.rearm ts e (e.breakpoint.withEnabled enabled)

/-- The first enabled breakpoint on running the instruction at an address of a space. -/
def findExec? (s : Store) (address : UInt32) (space : Space) : Option BreakpointId :=
  (s.entries.find? fun e =>
    e.breakpoint.enabled && e.breakpoint.space == space && e.breakpoint.modes.exec &&
      e.breakpoint.covers address).map (·.id)

/-- Removes the first breakpoint on running the instruction at an address, or adds one there. -/
def toggle (s : Store) (ts : Traps) (address : UInt32) (space : Space) : Toggle × Store × Traps :=
  match s.findExec? address space with
  | some id =>
    let (s, ts) := (s.remove? ts id).getD (s, ts)
    (.removed id, s, ts)
  | none =>
    let (id, s, ts) := s.add ts (.execAt space address)
    (.added id, s, ts)

/-- The store without any breakpoint; numbers go on from where they were. -/
def forget (s : Store) : Store := { s with entries := [] }

/-- Removes all breakpoints. -/
def clear (s : Store) (ts : Traps) : Store × Traps := (s.forget, ts.disarm s.handles)

/-- A new breakpoint stands last. -/
@[simp] theorem toList_add (s : Store) (ts : Traps) (b : Breakpoint) :
    (s.add ts b).2.1.toList = s.toList ++ [(s.nextId, b)] := by
  simp [add, toList]

/-- Removing a breakpoint takes it out and keeps the order of the others. -/
theorem toList_remove? {s after : Store} {ts traps : Traps} {id : BreakpointId}
    (h : s.remove? ts id = some (after, traps)) :
    after.toList = s.toList.filter (·.1 != id) := by
  obtain ⟨e, _, he⟩ := Option.map_eq_some_iff.mp h
  rw [← (Prod.mk.inj he).1]
  simp only [toList, List.filter_map]
  rfl

/-- Only the breakpoint with the number of the entry changes. -/
theorem toList_rearm (s : Store) (ts : Traps) (e : Entry) (b : Breakpoint) :
    (s.rearm ts e b).1.toList = s.toList.map fun x => if x.1 = e.id then (e.id, b) else x := by
  simp only [rearm, put, toList, List.map_map]
  apply List.map_congr_left
  intro x _
  by_cases hx : x.id = e.id <;> simp [hx]

/-- There is nothing to remove exactly if no breakpoint has the number. -/
theorem remove?_eq_none_iff {s : Store} {ts : Traps} {id : BreakpointId} :
    s.remove? ts id = none ↔ ∀ x ∈ s.toList, x.1 ≠ id := by
  simp [remove?, get?, toList]

end Store

end Z80Debugger
