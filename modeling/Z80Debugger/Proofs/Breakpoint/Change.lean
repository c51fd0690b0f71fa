import Z80Debugger.Proofs.Breakpoint.Armed

/-!
# What an operation does to a store and its table

There are six operations on a store, and each changes the store and the table of traps together, in
one of five ways: nothing happens, a breakpoint is added, one is removed, the traps of one are
registered anew, or all go.  `Store.Change` lists the five with what they need, and
`Store.change_apply` says which breakpoints an operation can bring.  What is to be shown of every
operation is shown of the five changes, and what only depends on the entries and the limit follows
from `Change.mem_entries` and `Change.limit_eq`.
-/

set_option autoImplicit false

namespace Z80Debugger

namespace Traps

/-- Registering the trap of a mode leaves the limit. -/
@[simp] theorem limit_arm (ts : Traps) (b : Breakpoint) (mode : Mode) :
    (ts.arm b mode).2.limit = ts.limit := by
  unfold arm
  split
  · split
    · next h taken hadd =>
      obtain ⟨t, _, hadd⟩ := Option.bind_eq_some_iff.mp hadd
      obtain ⟨_, _, _, rfl⟩ := add?_eq_some_iff.mp hadd
      rfl
    · rfl
  · rfl

/-- Registering the traps of a breakpoint leaves the limit. -/
@[simp] theorem limit_armAll (ts : Traps) (b : Breakpoint) :
    (ts.armAll b).2.limit = ts.limit := by
  unfold armAll
  split
  · simp
  · rfl

/-- Removing traps leaves the limit. -/
@[simp] theorem limit_disarm (ts : Traps) (hs : List Handle) : (ts.disarm hs).limit = ts.limit := by
  rw [disarm_eq]

end Traps

namespace Store

/-- One thing that can be done to a store. -/
inductive Operation where
  | add (b : Breakpoint)
  | replace (id : BreakpointId) (b : Breakpoint)
  | remove (id : BreakpointId)
  | setEnabled (id : BreakpointId) (enabled : Bool)
  | toggle (address : UInt32) (space : Space)
  | clear

/-- The store and the table after an operation; without a breakpoint of the number they stay as they
are. -/
def Operation.apply (s : Store × Traps) : Operation → Store × Traps
  | add b => (s.1.add s.2 b).2
  | replace id b => (s.1.replace? s.2 id b).getD s
  | remove id => (s.1.remove? s.2 id).getD s
  | setEnabled id enabled => (s.1.setEnabled? s.2 id enabled).getD s
  | toggle address space => (s.1.toggle s.2 address space).2
  | clear => s.1.clear s.2

/-- The operation may bring the breakpoint into a store. -/
def Operation.Brings : Operation → Breakpoint → Prop
  | add b, new => new = b
  | replace _ b, new => ∃ enabled, new = b.withEnabled enabled
  | toggle address space, new => new = .execAt space address
  | _, _ => False

/-- How one operation changes a store and its table, if it may bring only certain breakpoints. -/
inductive Change (Brings : Breakpoint → Prop) (s : Store) (ts : Traps) : Store × Traps → Prop where
  | same : Change Brings s ts (s, ts)
  | add {b : Breakpoint} (hb : Brings b) : Change Brings s ts (s.add ts b).2
  | remove {id : BreakpointId} {e : Entry} (hget : s.get? id = some e) :
    Change Brings s ts
      ({ s with entries := s.entries.filter (·.id != id) }, ts.disarm e.handles.toList)
  /-- A breakpoint is put in the place of another one, or that one is switched on or off. -/
  | rearm {id : BreakpointId} {e : Entry} {b : Breakpoint} (hget : s.get? id = some e)
    (hb : Brings b ∨ ∃ enabled, b = e.breakpoint.withEnabled enabled) :
    Change Brings s ts (s.rearm ts e b)
  | clear : Change Brings s ts (s.clear ts)

variable {Brings : Breakpoint → Prop} {s : Store} {ts : Traps} {after : Store × Traps}

/-- A breakpoint is removed if there is one with the number. -/
theorem change_remove? (s : Store) (ts : Traps) (id : BreakpointId) :
    Change Brings s ts ((s.remove? ts id).getD (s, ts)) := by
  rw [remove?]
  cases hget : s.get? id with
  | none => exact .same
  | some e => exact .remove hget

/-- Every operation changes a store and its table in one of these ways, and brings no other
breakpoints. -/
theorem change_apply (s : Store) (ts : Traps) (op : Operation) :
    Change op.Brings s ts (op.apply (s, ts)) := by
  cases op with
  | add b => exact .add rfl
  | remove id => exact change_remove? s ts id
  | replace id b =>
    simp only [Operation.apply, replace?]
    cases hget : s.get? id with
    | none => exact .same
    | some e => exact .rearm hget (.inl ⟨_, rfl⟩)
  | setEnabled id enabled =>
    simp only [Operation.apply, setEnabled?]
    cases hget : s.get? id with
    | none => exact .same
    | some e =>
      simp only [Option.map_some, Option.getD_some]
      split
      · exact .same
      · exact .rearm hget (.inr ⟨enabled, rfl⟩)
  | toggle address space =>
    simp only [Operation.apply, toggle]
    split
    · exact change_remove? s ts _
    · exact .add rfl
  | clear => exact .clear

/-- The entry that is put is the only one that may be new. -/
theorem mem_entries_put {new x : Entry} (hx : x ∈ (s.put new).entries) :
    x = new ∨ x ∈ s.entries := by
  obtain ⟨old, hold, rfl⟩ := List.mem_map.mp hx
  split
  · exact Or.inl rfl
  · exact Or.inr hold

/-- No operation changes how many traps the table takes. -/
theorem Change.limit_eq (hchange : Change Brings s ts after) : after.2.limit = ts.limit := by
  cases hchange with
  | same => rfl
  | add => exact Traps.limit_armAll ts _
  | remove => exact Traps.limit_disarm ts _
  | rearm => simp [Store.rearm]
  | clear => exact Traps.limit_disarm ts _

/-- An entry that was not there before has just been given its handles, by a table with the same
limit, and its breakpoint was brought or is an old one switched on or off. -/
theorem Change.mem_entries (hchange : Change Brings s ts after) {x : Entry}
    (hx : x ∈ after.1.entries) :
    x ∈ s.entries ∨
      (∃ table : Traps, table.limit = ts.limit ∧ x.handles = (table.armAll x.breakpoint).1) ∧
        (Brings x.breakpoint ∨
          ∃ e ∈ s.entries, ∃ enabled, x.breakpoint = e.breakpoint.withEnabled enabled) := by
  cases hchange with
  | same => exact .inl hx
  | add hb =>
    rcases List.mem_append.mp hx with hold | hnew
    · exact .inl hold
    · rw [List.mem_singleton.mp hnew]
      exact .inr ⟨⟨ts, rfl, rfl⟩, .inl hb⟩
  | remove => exact .inl (List.mem_of_mem_filter hx)
  | @rearm id e b hget hb =>
    rcases mem_entries_put hx with rfl | hold
    · have he : e ∈ s.entries := List.mem_of_find?_eq_some hget
      refine .inr ⟨⟨_, Traps.limit_disarm ts _, rfl⟩, ?_⟩
      exact hb.imp_right fun hswitched => ⟨e, he, hswitched⟩
    · exact .inl hold
  | clear => cases hx

end Store

end Z80Debugger
