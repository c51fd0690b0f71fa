import Z80Debugger.Cpu.Run

/-!
# Traps

A trap is what a processor core can stop for: an access to memory or to a port, an instruction about
to be fetched, or an opcode that has just run.  It covers the values that lie in its range once its
mask is applied.  A tested trap does not stop by itself; a test is asked first.

`Traps` is the table of the registered ones.  Each registration gets a handle that is larger than
every handle before it, so a handle is never given twice and the table is in ascending order.  A
registration is refused when its range is empty or the table is full.
-/

set_option autoImplicit false

namespace Z80Debugger

/-- What a trap watches. -/
inductive TrapKind where
  | memoryRead
  | memoryWrite
  /-- An instruction at a covered address, before it runs. -/
  | memoryExec
  | portRead
  | portWrite
  /-- An instruction with a covered opcode value, after it has run. -/
  | opcode
  deriving DecidableEq, Repr

/-- A trap. -/
structure Trap where
  kind : TrapKind
  /-- For memory: the range holds physical addresses. -/
  physical : Bool := false
  first : UInt32
  last : UInt32
  mask : UInt32
  /-- A test decides whether a hit stops. -/
  tested : Bool := false
  deriving DecidableEq, Repr

/-- The number by which a registered trap is known; handles start at one. -/
abbrev Handle : Type := Nat

/-- Something that happens in a core and may hit a trap. -/
inductive Event where
  /-- The instruction at an address is about to run. -/
  | fetch (pc : UInt16)
  /-- An instruction made an access. -/
  | access (a : Access)
  /-- An instruction with an opcode value has run. -/
  | ran (opcode : UInt32)
  deriving DecidableEq, Repr

namespace Event

/-- The kind of trap that the event can hit. -/
def kind : Event → TrapKind
  | fetch _ => .memoryExec
  | access (.memoryRead _) => .memoryRead
  | access (.memoryWrite _) => .memoryWrite
  | access (.portRead _) => .portRead
  | access (.portWrite _) => .portWrite
  | ran _ => .opcode

/-- The logical address of an event in memory. -/
def address? : Event → Option UInt16
  | fetch a | access (.memoryRead a) | access (.memoryWrite a) => some a
  | _ => none

/-- The value that is compared with a range: an address, a port or an opcode value. -/
def value : Event → UInt32
  | fetch a | access (.memoryRead a) | access (.memoryWrite a) => a.toUInt32
  | access (.portRead p) | access (.portWrite p) => p.toUInt32
  | ran opcode => opcode

/-- The value that a trap compares: for physical traps on memory, the physical address. -/
def valueFor (c : Cpu) (physical : Bool) (e : Event) : UInt32 :=
  match physical, e.address? with
  | true, some a => c.physical a
  | _, _ => e.value

end Event

namespace Trap

/-- Whether a value lies in the range once the mask is applied. -/
def covers (t : Trap) (value : UInt32) : Bool :=
  t.first ≤ (value &&& t.mask) && (value &&& t.mask) ≤ t.last

/-- Whether an event in a core hits the trap. -/
def isHitBy (t : Trap) (c : Cpu) (e : Event) : Bool :=
  t.kind == e.kind && t.covers (e.valueFor c t.physical)

end Trap

/-- The table of registered traps. -/
structure Traps where
  /-- The traps with their handles, in the order of registration. -/
  entries : List (Handle × Trap) := []
  /-- The handle of the next registration. -/
  nextHandle : Handle := 1
  /-- The number of traps that the table may hold, if it is limited. -/
  limit : Option Nat := none
  deriving DecidableEq, Repr, Inhabited

namespace Traps

/-- The number of registered traps. -/
def size (ts : Traps) : Nat := ts.entries.length

/-- The registered handles, in ascending order. -/
def handles (ts : Traps) : List Handle := ts.entries.map (·.1)

/-- The trap behind a handle. -/
def find? (ts : Traps) (h : Handle) : Option Trap :=
  (ts.entries.find? (·.1 == h)).map (·.2)

/-- Whether a handle is registered. -/
def contains (ts : Traps) (h : Handle) : Bool := ts.entries.any (·.1 == h)

/-- Whether the table has room for one more trap. -/
def hasRoom (ts : Traps) : Bool :=
  match ts.limit with
  | some n => ts.size < n
  | none => true

/-- Registers a trap and gives its handle, or refuses it. -/
def add? (ts : Traps) (t : Trap) : Option (Handle × Traps) :=
  if t.first ≤ t.last && ts.hasRoom then
    some (ts.nextHandle,
      { ts with entries := ts.entries ++ [(ts.nextHandle, t)], nextHandle := ts.nextHandle + 1 })
  else none

/-- The table without the trap behind a handle. -/
def erase (ts : Traps) (h : Handle) : Traps :=
  { ts with entries := ts.entries.filter (·.1 != h) }

/-- The handles of the traps that an event hits. -/
def hits (ts : Traps) (c : Cpu) (e : Event) : List Handle :=
  (ts.entries.filter fun entry => entry.2.isHitBy c e).map (·.1)

/-- Removing a handle leaves the entries under other handles. -/
@[simp] theorem entries_erase (ts : Traps) (h : Handle) :
    (ts.erase h).entries = ts.entries.filter (·.1 != h) := rfl

/-- Removing a handle leaves the limit. -/
@[simp] theorem limit_erase (ts : Traps) (h : Handle) : (ts.erase h).limit = ts.limit := rfl

/-- Removing a handle does not free its number. -/
@[simp] theorem nextHandle_erase (ts : Traps) (h : Handle) :
    (ts.erase h).nextHandle = ts.nextHandle := rfl

/-- A handle is registered exactly if it is among the handles of the table. -/
theorem contains_iff {ts : Traps} {h : Handle} : ts.contains h = true ↔ h ∈ ts.handles := by
  simp [contains, handles]

/-- Removing a trap takes its handle, and no other, out of the table. -/
theorem mem_handles_erase {ts : Traps} {h k : Handle} :
    k ∈ (ts.erase h).handles ↔ k ∈ ts.handles ∧ k ≠ h := by
  simp only [handles, entries_erase, List.mem_map, List.mem_filter, bne_iff_ne]
  constructor
  · rintro ⟨entry, ⟨hm, hne⟩, rfl⟩
    exact ⟨⟨entry, hm, rfl⟩, hne⟩
  · rintro ⟨⟨entry, hm, rfl⟩, hne⟩
    exact ⟨entry, ⟨hm, hne⟩, rfl⟩

/-- Removing a handle that is not registered changes nothing. -/
theorem erase_of_not_contains {ts : Traps} {h : Handle} (hc : ts.contains h = false) :
    ts.erase h = ts := by
  have hkept : ts.entries.filter (·.1 != h) = ts.entries := by
    rw [List.filter_eq_self]
    intro entry hm
    simp only [contains, List.any_eq_false] at hc
    simpa using hc entry hm
  simp [erase, hkept]

/-- A registration is taken exactly if its range is not empty and there is room; the trap then
stands last in the table, under the next handle. -/
theorem add?_eq_some_iff {ts after : Traps} {t : Trap} {h : Handle} :
    ts.add? t = some (h, after) ↔
      t.first ≤ t.last ∧ ts.hasRoom = true ∧ h = ts.nextHandle ∧
        after = { ts with
          entries := ts.entries ++ [(ts.nextHandle, t)], nextHandle := ts.nextHandle + 1 } := by
  unfold add?
  by_cases hr : t.first ≤ t.last <;> by_cases hl : ts.hasRoom = true <;>
    simp [hr, hl, eq_comm]

end Traps

end Z80Debugger
