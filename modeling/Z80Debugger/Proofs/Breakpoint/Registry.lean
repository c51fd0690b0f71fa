import Z80Debugger.Proofs.Breakpoint.History

/-!
# A store is a map in the order of insertion

What a user sees of a store is the list of its breakpoints with their numbers.  `Registry` is that
list without handles and traps, together with all numbers that were ever given, and `Registry.Step`
says what each operation does to it and answers.  A store represents a registry when both list the
same and every number that was given is older than the store's next one.  Each operation on a store
is then a step of the registry, with whatever table of traps it is done: what a core takes or
refuses shows nowhere in the list.
-/

set_option autoImplicit false

namespace Z80Debugger

/-- A map from numbers to breakpoints in the order of insertion, with all numbers given so far. -/
structure Registry where
  listed : List (BreakpointId × Breakpoint)
  issued : List BreakpointId
  increasing : (listed.map (·.1)).Pairwise (· < ·)
  known : ∀ x ∈ listed, x.1 ∈ issued

namespace Registry

/-- What an operation on breakpoints answers. -/
inductive Answer where
  | added (id : BreakpointId)
  /-- Whether a breakpoint has the number. -/
  | found (present : Bool)
  | toggled (toggle : Toggle)
  | cleared
  deriving DecidableEq, Repr

def empty : Registry where
  listed := []
  issued := []
  increasing := .nil
  known := by simp

def contains (r : Registry) (id : BreakpointId) : Bool := r.listed.any (·.1 == id)

/-- A breakpoint comes last, under a number that is larger than all before. -/
def append (r : Registry) (id : BreakpointId) (b : Breakpoint) (hnew : ∀ k ∈ r.issued, k < id) :
    Registry where
  listed := r.listed ++ [(id, b)]
  issued := r.issued ++ [id]
  increasing := by
    rw [List.map_append]
    refine List.pairwise_append.mpr ⟨r.increasing, List.pairwise_singleton _ _, ?_⟩
    intro k hk l hl
    obtain ⟨x, hx, rfl⟩ := List.mem_map.mp hk
    rw [List.mem_singleton.mp hl]
    exact hnew x.1 (r.known x hx)
  known := by
    intro x hx
    rcases List.mem_append.mp hx with hx | hx
    · exact List.mem_append_left _ (r.known x hx)
    · rw [List.mem_singleton.mp hx]
      exact List.mem_append_right _ List.mem_cons_self

/-- The breakpoint with the number is gone; the others keep their order. -/
def without (r : Registry) (id : BreakpointId) : Registry where
  listed := r.listed.filter (·.1 != id)
  issued := r.issued
  increasing := r.increasing.sublist (List.filter_sublist.map _)
  known x hx := r.known x (List.mem_filter.mp hx).1

/-- The breakpoint with the number is changed in its place. -/
def update (r : Registry) (id : BreakpointId) (f : Breakpoint → Breakpoint) : Registry where
  listed := r.listed.map fun x => if x.1 = id then (x.1, f x.2) else x
  issued := r.issued
  increasing := by
    have hids : (r.listed.map fun x => if x.1 = id then (x.1, f x.2) else x).map (·.1) =
        r.listed.map (·.1) := by
      rw [List.map_map]
      apply List.map_congr_left
      intro x _
      simp only [Function.comp_apply]
      split <;> rfl
    rw [hids]
    exact r.increasing
  known := by
    intro x hx
    obtain ⟨y, hy, rfl⟩ := List.mem_map.mp hx
    split <;> exact r.known y hy

def cleared (r : Registry) : Registry where
  listed := []
  issued := r.issued
  increasing := .nil
  known := by simp

/-- The first enabled breakpoint on running the instruction at an address of a space. -/
def firstExec? (r : Registry) (address : UInt32) (space : Space) : Option BreakpointId :=
  (r.listed.find? fun x =>
    x.2.enabled && x.2.space == space && x.2.modes.exec && x.2.covers address).map (·.1)

/-- What an operation does to a registry, and what it answers. -/
inductive Step : Registry → Store.Operation → Answer → Registry → Prop where
  | add {r : Registry} (b : Breakpoint) (id : BreakpointId) (hnew : ∀ k ∈ r.issued, k < id) :
    Step r (.add b) (.added id) (r.append id b hnew)
  | remove {r : Registry} (id : BreakpointId) :
    Step r (.remove id) (.found (r.contains id)) (r.without id)
  | replace {r : Registry} (id : BreakpointId) (b : Breakpoint) :
    Step r (.replace id b) (.found (r.contains id))
      (r.update id fun old => b.withEnabled old.enabled)
  | setEnabled {r : Registry} (id : BreakpointId) (enabled : Bool) :
    Step r (.setEnabled id enabled) (.found (r.contains id))
      (r.update id fun old => old.withEnabled enabled)
  | toggleOff {r : Registry} (address : UInt32) (space : Space) (id : BreakpointId)
    (hfirst : r.firstExec? address space = some id) :
    Step r (.toggle address space) (.toggled (.removed id)) (r.without id)
  | toggleOn {r : Registry} (address : UInt32) (space : Space) (id : BreakpointId)
    (hfirst : r.firstExec? address space = none) (hnew : ∀ k ∈ r.issued, k < id) :
    Step r (.toggle address space) (.toggled (.added id))
      (r.append id (.execAt space address) hnew)
  | clear {r : Registry} : Step r .clear .cleared r.cleared

/-- What operations in order do to a registry, and what they answer. -/
inductive Run : Registry → List Store.Operation → List Answer → Registry → Prop where
  | nil (r : Registry) : Run r [] [] r
  | cons {r between last : Registry} {op : Store.Operation} {answer : Answer}
    {ops : List Store.Operation} {answers : List Answer} (hstep : Step r op answer between)
    (hrest : Run between ops answers last) : Run r (op :: ops) (answer :: answers) last

/-- A change of no breakpoint changes nothing. -/
theorem listed_update_of_forall {r : Registry} {id : BreakpointId} {f : Breakpoint → Breakpoint}
    (hsame : ∀ x ∈ r.listed, x.1 = id → f x.2 = x.2) : (r.update id f).listed = r.listed := by
  have hkept : ∀ x ∈ r.listed, (if x.1 = id then (x.1, f x.2) else x) = x := by
    intro x hx
    split
    · next hid => rw [hsame x hx hid]
    · rfl
  exact (List.map_congr_left hkept).trans (List.map_id' r.listed)

end Registry

namespace Store

/-- What an operation on a store answers. -/
def Operation.answer (s : Store × Traps) : Operation → Registry.Answer
  | add b => .added (s.1.add s.2 b).1
  | replace id b => .found (s.1.replace? s.2 id b).isSome
  | remove id => .found (s.1.remove? s.2 id).isSome
  | setEnabled id enabled => .found (s.1.setEnabled? s.2 id enabled).isSome
  | toggle address space => .toggled (s.1.toggle s.2 address space).1
  | clear => .cleared

/-- The operation is about the breakpoint with the number. -/
def Operation.Names (id : BreakpointId) : Operation → Prop
  | replace k _ | remove k | setEnabled k _ => k = id
  | _ => False

/-- The answers of operations in order, each done with a table of its own, and the store after
them. -/
def serve (s : Store) : List (Operation × Traps) → List Registry.Answer × Store
  | [] => ([], s)
  | (op, ts) :: rest =>
    let after := serve (op.apply (s, ts)).1 rest
    (op.answer (s, ts) :: after.1, after.2)

/-- The store lists what the registry does, and its next number was never given. -/
structure Represents (s : Store) (r : Registry) : Prop where
  listed : s.toList = r.listed
  fresh : ∀ k ∈ r.issued, k < s.nextId

variable {s : Store} {r : Registry} {ts : Traps} {id : BreakpointId} {e : Entry}

/-- The entry with a number is listed under it. -/
theorem mem_toList_of_get?_eq_some (hget : s.get? id = some e) :
    e.id = id ∧ (id, e.breakpoint) ∈ s.toList := by
  have hid : e.id = id := by simpa using List.find?_some hget
  refine ⟨hid, ?_⟩
  rw [← hid]
  exact List.mem_map_of_mem (List.mem_of_find?_eq_some hget)

/-- There is no entry with a number exactly if the number is not listed. -/
theorem get?_eq_none_iff : s.get? id = none ↔ ∀ x ∈ s.toList, x.1 ≠ id := by
  simp [get?, toList]

namespace Represents

/-- The store has an entry with a number exactly if the registry has one. -/
theorem isSome_get? (hs : s.Represents r) (id : BreakpointId) :
    (s.get? id).isSome = r.contains id := by
  rw [Registry.contains, ← hs.listed, Bool.eq_iff_iff, List.any_eq_true,
    ← Option.ne_none_iff_isSome, ne_eq, get?_eq_none_iff]
  simp

/-- The number of a breakpoint leads to it and no other. -/
theorem eq_of_mem (hs : s.Represents r) (hget : s.get? id = some e)
    {x : BreakpointId × Breakpoint} (hx : x ∈ r.listed) (hid : x.1 = id) :
    x = (id, e.breakpoint) := by
  have hmem := (mem_toList_of_get?_eq_some hget).2
  rw [hs.listed] at hmem
  have hnodup : (r.listed.map (·.1)).Nodup := r.increasing.imp fun hlt => Nat.ne_of_lt hlt
  exact List.inj_on_of_nodup_map hnodup hx hmem hid

/-- Adding a breakpoint appends it to the registry. -/
theorem add (hs : s.Represents r) (ts : Traps) (b : Breakpoint) :
    (s.add ts b).2.1.Represents (r.append s.nextId b hs.fresh) where
  listed := by rw [toList_add, hs.listed]; rfl
  fresh := by
    intro k hk
    rcases List.mem_append.mp hk with hk | hk
    · exact Nat.lt_succ_of_lt (hs.fresh k hk)
    · rw [List.mem_singleton.mp hk]
      exact Nat.lt_succ_self _

/-- Removing a breakpoint takes its number out of the registry. -/
theorem remove? (hs : s.Represents r) (ts : Traps) (id : BreakpointId) :
    ((s.remove? ts id).getD (s, ts)).1.Represents (r.without id) := by
  cases hremove : s.remove? ts id with
  | none =>
    have hother := remove?_eq_none_iff.mp hremove
    refine ⟨?_, hs.fresh⟩
    have hall : r.listed.filter (·.1 != id) = r.listed := by
      rw [← hs.listed, List.filter_eq_self]
      intro x hx
      simpa using hother x hx
    exact hs.listed.trans hall.symm
  | some pair =>
    refine ⟨?_, ?_⟩
    · show pair.1.toList = r.listed.filter (·.1 != id)
      rw [toList_remove? hremove, hs.listed]
    · obtain ⟨e, _, rfl⟩ := Option.map_eq_some_iff.mp hremove
      exact hs.fresh

/-- A change of a breakpoint shows in its place alone. -/
theorem rearm (hs : s.Represents r) (hget : s.get? id = some e) (ts : Traps)
    (f : Breakpoint → Breakpoint) :
    (s.rearm ts e (f e.breakpoint)).1.Represents (r.update id f) where
  listed := by
    rw [toList_rearm, (mem_toList_of_get?_eq_some hget).1, hs.listed]
    apply List.map_congr_left
    intro x hx
    split
    · next hid => rw [hs.eq_of_mem hget hx hid]
    · rfl
  fresh := hs.fresh

/-- So does a change that changes nothing, or of a breakpoint that is not there. -/
theorem update_of_same (hs : s.Represents r) {f : Breakpoint → Breakpoint}
    (hsame : ∀ x ∈ r.listed, x.1 = id → f x.2 = x.2) : s.Represents (r.update id f) where
  listed := hs.listed.trans (Registry.listed_update_of_forall hsame).symm
  fresh := hs.fresh

/-- Updating a number that is not listed does nothing. -/
theorem update_of_get?_eq_none (hs : s.Represents r) (hget : s.get? id = none)
    (f : Breakpoint → Breakpoint) : s.Represents (r.update id f) := by
  apply hs.update_of_same
  intro x hx hid
  rw [← hs.listed] at hx
  exact absurd hid (get?_eq_none_iff.mp hget x hx)

/-- Replacing a breakpoint updates it in its place, enabled as it was. -/
theorem replace? (hs : s.Represents r) (ts : Traps) (id : BreakpointId) (b : Breakpoint) :
    ((s.replace? ts id b).getD (s, ts)).1.Represents
      (r.update id fun old => b.withEnabled old.enabled) := by
  rw [Store.replace?]
  cases hget : s.get? id with
  | none => exact hs.update_of_get?_eq_none hget _
  | some e => exact hs.rearm hget ts fun old => b.withEnabled old.enabled

/-- Switching a breakpoint updates it in its place. -/
theorem setEnabled? (hs : s.Represents r) (ts : Traps) (id : BreakpointId) (enabled : Bool) :
    ((s.setEnabled? ts id enabled).getD (s, ts)).1.Represents
      (r.update id fun old => old.withEnabled enabled) := by
  rw [Store.setEnabled?]
  cases hget : s.get? id with
  | none => exact hs.update_of_get?_eq_none hget _
  | some e =>
    simp only [Option.map_some, Option.getD_some]
    split
    · next hflag =>
      apply hs.update_of_same
      intro x hx hid
      rw [hs.eq_of_mem hget hx hid, ← hflag]
      rfl
    · exact hs.rearm hget ts fun old => old.withEnabled enabled

/-- Store and registry find the same breakpoint first. -/
theorem findExec? (hs : s.Represents r) (address : UInt32) (space : Space) :
    s.findExec? address space = r.firstExec? address space := by
  rw [Store.findExec?, Registry.firstExec?, ← hs.listed, toList, List.find?_map, Option.map_map]
  rfl

/-- Clearing a store clears the registry. -/
theorem clear (hs : s.Represents r) (ts : Traps) : (s.clear ts).1.Represents r.cleared where
  listed := rfl
  fresh := hs.fresh

/-- Every operation is a step of the registry, and answers as the step does. -/
theorem step (hs : s.Represents r) (op : Operation) (ts : Traps) :
    ∃ after, Registry.Step r op (op.answer (s, ts)) after ∧
      (op.apply (s, ts)).1.Represents after := by
  cases op with
  | add b => exact ⟨_, .add b s.nextId hs.fresh, hs.add ts b⟩
  | remove id =>
    refine ⟨_, ?_, hs.remove? ts id⟩
    rw [Operation.answer, Store.remove?, Option.isSome_map, hs.isSome_get?]
    exact .remove id
  | replace id b =>
    refine ⟨_, ?_, hs.replace? ts id b⟩
    rw [Operation.answer, Store.replace?, Option.isSome_map, hs.isSome_get?]
    exact .replace id b
  | setEnabled id enabled =>
    refine ⟨_, ?_, hs.setEnabled? ts id enabled⟩
    rw [Operation.answer, Store.setEnabled?, Option.isSome_map, hs.isSome_get?]
    exact .setEnabled id enabled
  | toggle address space =>
    have hsame := hs.findExec? address space
    simp only [Operation.answer, Operation.apply, Store.toggle]
    cases hfind : s.findExec? address space with
    | some id =>
      rw [hfind] at hsame
      exact ⟨_, .toggleOff address space id hsame.symm, hs.remove? ts id⟩
    | none =>
      rw [hfind] at hsame
      exact ⟨_, .toggleOn address space s.nextId hsame.symm hs.fresh, hs.add ts _⟩
  | clear => exact ⟨_, .clear, hs.clear ts⟩

/-- Whatever operations a store serves, with whatever tables, the registry has a run with the same
answers. -/
theorem run (hs : s.Represents r) (history : List (Operation × Traps)) :
    ∃ after, Registry.Run r (history.map (·.1)) (s.serve history).1 after ∧
      (s.serve history).2.Represents after := by
  induction history generalizing s r with
  | nil => exact ⟨r, .nil r, hs⟩
  | cons first rest ih =>
    obtain ⟨op, ts⟩ := first
    obtain ⟨between, hstep, hbetween⟩ := hs.step op ts
    obtain ⟨after, hrun, hafter⟩ := ih hbetween
    exact ⟨after, .cons hstep hrun, hafter⟩

end Represents

/-- An operation on a number that no breakpoint has finds nothing and changes nothing. -/
theorem apply_of_unknown {op : Operation} (hnames : op.Names id)
    (hunknown : ∀ x ∈ s.toList, x.1 ≠ id) (ts : Traps) :
    op.answer (s, ts) = .found false ∧ op.apply (s, ts) = (s, ts) := by
  have hget : s.get? id = none := get?_eq_none_iff.mpr hunknown
  cases op with
  | replace k b =>
    cases hnames
    simp [Operation.answer, Operation.apply, Store.replace?, hget]
  | remove k =>
    cases hnames
    simp [Operation.answer, Operation.apply, Store.remove?, hget]
  | setEnabled k enabled =>
    cases hnames
    simp [Operation.answer, Operation.apply, Store.setEnabled?, hget]
  | add | toggle | clear => cases hnames

/-- Take any operations in order on a store without breakpoints, each done with whatever table of
traps there is at that time, so that any registration may be refused.  There is a run of the
registry with the same operations and the same answers that ends with the list of the store.  And a
removal, a replacement or a switch of a number that is not listed is answered with no, and leaves
store and table as they are. -/
theorem refines_registry (history : List (Operation × Traps)) :
    let answers := (serve {} history).1
    let s := (serve {} history).2
    (∃ r, Registry.Run .empty (history.map (·.1)) answers r ∧ s.toList = r.listed) ∧
      ∀ id, (∀ x ∈ s.toList, x.1 ≠ id) → ∀ op, Operation.Names id op → ∀ ts,
        op.answer (s, ts) = .found false ∧ op.apply (s, ts) = (s, ts) := by
  intro answers s
  have hstart : ({} : Store).Represents .empty := ⟨rfl, by simp [Registry.empty]⟩
  obtain ⟨r, hrun, hlast⟩ := hstart.run history
  refine ⟨⟨r, hrun, hlast.listed⟩, ?_⟩
  intro id hunknown op hnames ts
  exact apply_of_unknown hnames hunknown ts

/-- No number is given twice, not even after all breakpoints were removed. -/
example (b : Breakpoint) (ts : Traps) :
    (serve {} [(.add b, ts), (.clear, ts), (.add b, ts)]).2.toList = [(2, b)] := by
  rfl

end Store

end Z80Debugger
