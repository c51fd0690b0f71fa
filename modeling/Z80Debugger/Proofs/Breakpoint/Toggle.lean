import Z80Debugger.Proofs.Breakpoint.History
import Z80Debugger.Proofs.Breakpoint.Log

/-!
# Switching a breakpoint on and off

A toggle looks for the first enabled breakpoint on running the instruction at an address.  If there
is none, it adds one, which is the one that the next toggle there finds and removes, so that list
and table are what they were.  If there is one, it goes with what is registered for it, and nothing
else changes.  `toggle_adds_or_removes_first` says so of every store, whatever happened to it and to
the table before: operations on the store, registrations and removals by others in the same table,
limits, and the loss of the core.
-/

set_option autoImplicit false

namespace Z80Debugger

/-- The breakpoint is enabled and stops before the instruction at an address of the space. -/
structure Breakpoint.IsExecAt (b : Breakpoint) (address : UInt32) (space : Space) : Prop where
  enabled : b.enabled = true
  space_eq : b.space = space
  exec : b.modes.contains .exec = true
  covers : b.covers address = true

/-- The range and the value are cut by the same mask, so a new breakpoint covers its address. -/
theorem Breakpoint.isExecAt_execAt (address : UInt32) (space : Space) :
    (execAt space address).IsExecAt address space := by
  have hcut (mask : UInt32) :
      inRange address (address &&& mask) (address &&& mask) mask = true := by
    simp [inRange]
  exact ⟨rfl, rfl, rfl, hcut _⟩

namespace Store

variable {s last : Store} {ts traps : Traps} {log : List (Handle × Trap)} {address : UInt32}
  {space : Space} {e : Entry} {before behind : List Entry}

/-- Something that happens to a store or to the table of its core. -/
inductive Turn where
  | operation (op : Operation)
  /-- Another part of the program registers a trap. -/
  | register (t : Trap)
  /-- A handle is removed from the table directly, whoever it belongs to. -/
  | unregister (h : Handle)
  /-- The number of traps that the table takes is limited anew. -/
  | limit (traps : Option Nat)
  /-- The core is lost with all that is registered in it, and a new one takes its place. -/
  | renew

def Turn.apply (s : Store × Traps) : Turn → Store × Traps
  | operation op => op.apply s
  | register t => (s.1, ((s.2.add? t).map (·.2)).getD s.2)
  | unregister h => (s.1, s.2.erase h)
  | limit traps => (s.1, { s.2 with limit := traps })
  | renew => (s.1.forget, {})

/-- A store and its table after turns in order. -/
def reached (turns : List Turn) : Store × Traps := turns.foldl Turn.apply ({}, {})

/-- Whatever happens to a store or its table, there is a log. -/
theorem Logged.turn {s : Store × Traps} (hs : s.1.Logged s.2 log) (turn : Turn) :
    ∃ log', (turn.apply s).1.Logged (turn.apply s).2 log' := by
  cases turn with
  | operation op => exact hs.change (change_apply s.1 s.2 op)
  | register t =>
    simp only [Turn.apply]
    cases hadd : s.2.add? t with
    | none => exact ⟨_, hs⟩
    | some pair => exact ⟨_, hs.of_table (hs.table.add? hadd)⟩
  | unregister h => exact ⟨log, hs.toWellFormed, hs.table.disarm [h], hs.armed⟩
  | limit traps =>
    exact ⟨log, hs.toWellFormed, hs.table.of_sublist rfl (List.Sublist.refl _), hs.armed⟩
  | renew => exact ⟨[], logged_of_entries_eq_nil rfl ⟨.nil, by simp, List.Sublist.refl _⟩⟩

/-- Whatever turns were taken, there is a log. -/
theorem logged_reached (turns : List Turn) :
    ∃ log, (reached turns).1.Logged (reached turns).2 log := by
  have hrun : ∀ (turns : List Turn) (s : Store × Traps) (log : List (Handle × Trap)),
      s.1.Logged s.2 log → ∃ log', (turns.foldl Turn.apply s).1.Logged
        (turns.foldl Turn.apply s).2 log' := by
    intro turns
    induction turns with
    | nil =>
      intro s log hs
      exact ⟨log, hs⟩
    | cons turn turns ih =>
      intro s log hs
      obtain ⟨log', hnext⟩ := hs.turn turn
      exact ih _ log' hnext
  exact hrun turns _ [] (logged_of_entries_eq_nil rfl ⟨.nil, by simp, List.Sublist.refl _⟩)

/-- Nothing is found if no breakpoint stops before the instruction. -/
theorem findExec?_eq_none (hnone : ∀ e ∈ s.entries, ¬e.breakpoint.IsExecAt address space) :
    s.findExec? address space = none := by
  rw [findExec?, Option.map_eq_none_iff, List.find?_eq_none]
  intro e he hfound
  simp only [Bool.and_eq_true, beq_iff_eq] at hfound
  obtain ⟨⟨⟨henabled, hspace⟩, hexec⟩, hcovers⟩ := hfound
  exact hnone e he ⟨henabled, hspace, hexec, hcovers⟩

/-- The first breakpoint that stops before the instruction is found. -/
theorem findExec?_of_first (hentries : s.entries = before ++ e :: behind)
    (hbefore : ∀ x ∈ before, ¬x.breakpoint.IsExecAt address space)
    (he : e.breakpoint.IsExecAt address space) : s.findExec? address space = some e.id := by
  obtain ⟨henabled, hspace, hexec, hcovers⟩ := he
  have hexec : e.breakpoint.modes.exec = true := hexec
  have hskipped : findExec? { s with entries := before } address space = none :=
    findExec?_eq_none hbefore
  rw [findExec?, Option.map_eq_none_iff] at hskipped
  rw [findExec?, hentries, List.find?_append, hskipped, Option.none_or,
    List.find?_cons_of_pos (by simp [henabled, hspace, hexec, hcovers]), Option.map_some]

/-- A breakpoint is removed from its place in the list, and its handles from the table. -/
theorem WellFormed.remove?_of_split (hs : s.WellFormed)
    (hentries : s.entries = before ++ e :: behind) :
    s.remove? ts e.id =
      some ({ s with entries := before ++ behind }, ts.disarm e.handles.toList) := by
  have hids := hs.increasing
  rw [hentries, List.map_append, List.map_cons, List.pairwise_append, List.pairwise_cons] at hids
  obtain ⟨_, ⟨hbehind, _⟩, hbefore⟩ := hids
  have hother : ∀ x ∈ before ++ behind, x.id ≠ e.id := by
    intro x hx
    rcases List.mem_append.mp hx with hx | hx
    · exact Nat.ne_of_lt (hbefore x.id (List.mem_map_of_mem hx) e.id List.mem_cons_self)
    · exact Nat.ne_of_gt (hbehind x.id (List.mem_map_of_mem hx))
  have hget : s.get? e.id = some e := by
    rw [get?, hentries, List.find?_append, List.find?_eq_none.mpr, Option.none_or,
      List.find?_cons_of_pos (by simp)]
    intro x hx
    simpa using hother x (List.mem_append_left _ hx)
  rw [remove?, hget, Option.map_some, filter_eq_of_split hentries hother]

/-- No handle is kept by two breakpoints. -/
theorem Logged.disjoint (hs : s.Logged ts log) (hentries : s.entries = before ++ e :: behind) :
    ∀ x ∈ before ++ behind, ∀ h ∈ x.handles.toList, h ∉ e.handles.toList := by
  intro x hx h hkept hown
  have he : e ∈ s.entries := by rw [hentries]; simp
  have hmem : x ∈ s.entries := by
    rw [hentries]
    exact ((List.Sublist.refl before).append (List.sublist_cons_self e behind)).subset hx
  have hnodup : (s.armed.map (·.1)).Nodup := by
    obtain ⟨part, hperm, hsub⟩ := hs.armed
    rw [← (hperm.map _).nodup_iff]
    exact (hs.table.increasing.sublist (hsub.map _)).imp fun hlt => Nat.ne_of_lt hlt
  rw [hs.toWellFormed.map_armed, handles, hentries] at hnodup
  -- The handles stand in the order of the list; those of the breakpoint are moved to the end.
  have hsplit : (((before ++ behind).flatMap (·.handles.toList)) ++ e.handles.toList).Nodup := by
    refine (List.Perm.nodup_iff ?_).mp hnodup
    simp only [List.flatMap_append, List.flatMap_cons, List.append_assoc]
    exact List.perm_append_comm.append_left _
  exact (List.nodup_append.mp hsplit).2.2 h (List.mem_flatMap.mpr ⟨x, hx, hkept⟩) h hown rfl

/-- What is registered under a handle of a breakpoint is a trap of that breakpoint. -/
theorem Logged.mem_armed (hs : s.Logged ts log) (he : e ∈ s.entries) {entry : Handle × Trap}
    (hentry : entry ∈ ts.entries) (hown : entry.1 ∈ e.handles.toList) :
    entry ∈ e.breakpoint.armed e.handles := by
  rw [← (hs.fit e he).map_armed] at hown
  obtain ⟨given, hgiven, hsame⟩ := List.mem_map.mp hown
  have hlogged : given ∈ log := hs.armed.subset (List.mem_flatMap.mpr ⟨e, he, hgiven⟩)
  rwa [hs.table.eq_of_fst_eq (hs.table.listed.subset hentry) hlogged hsame.symm]

/-- A handle that is not removed leads where it led. -/
theorem find?_disarm_of_notMem {hs : List Handle} {h : Handle} (hnot : h ∉ hs) :
    (ts.disarm hs).find? h = ts.find? h := by
  rw [Traps.find?, Traps.entries_disarm, List.find?_filter, Traps.find?]
  congr 2
  funext entry
  by_cases hown : entry.1 = h <;> simp [hown, hnot]

/-- Whatever happened to a store and its table, and whatever the address and the space are, a toggle
there does one of two things.  If no enabled breakpoint stops before the instruction at the address,
a breakpoint on that one address is added under a new number, it is the one that is found there now,
and a second toggle removes it and leaves both lists as they were.  Otherwise the first such
breakpoint is removed, the table loses exactly what was registered for it, and the handles of the
others lead where they led before. -/
theorem toggle_adds_or_removes_first (turns : List Turn) (address : UInt32) (space : Space) :
    let s := (reached turns).1
    let ts := (reached turns).2
    let first := s.toggle ts address space
    ((∀ e ∈ s.entries, ¬e.breakpoint.IsExecAt address space) →
      let second := first.2.1.toggle first.2.2 address space
      first.1 = .added s.nextId ∧ (∀ e ∈ s.entries, e.id ≠ s.nextId) ∧
      (∃ e, first.2.1.entries = s.entries ++ [e] ∧ e.id = s.nextId ∧
        e.breakpoint = .execAt space address) ∧
      first.2.1.findExec? address space = some s.nextId ∧
      second.1 = .removed s.nextId ∧ second.2.1.entries = s.entries ∧
      second.2.2.entries = ts.entries) ∧
    ∀ before e behind, s.entries = before ++ e :: behind →
      (∀ x ∈ before, ¬x.breakpoint.IsExecAt address space) → e.breakpoint.IsExecAt address space →
      first.1 = .removed e.id ∧ first.2.1.entries = before ++ behind ∧
      first.2.2.entries = (ts.entries.filter fun entry => decide (entry.1 ∉ e.handles.toList)) ∧
      (∀ entry ∈ ts.entries, entry.1 ∈ e.handles.toList →
        entry ∈ e.breakpoint.armed e.handles) ∧
      ∀ x ∈ before ++ behind, ∀ h ∈ x.handles.toList, first.2.2.find? h = ts.find? h := by
  intro s ts first
  obtain ⟨log, hs⟩ : ∃ log, s.Logged ts log := logged_reached turns
  refine ⟨?_, ?_⟩
  · intro hnone second
    have hfirst : first = (.added s.nextId, (s.add ts (.execAt space address)).2) := by
      simp only [first, toggle, findExec?_eq_none hnone]
      rfl
    have hadded : first.2.1.entries = s.entries ++ _ := congrArg (·.2.1.entries) hfirst
    have hfound : first.2.1.findExec? address space = some s.nextId :=
      findExec?_of_first hadded hnone (Breakpoint.isExecAt_execAt address space)
    have hwell : first.2.1.WellFormed := by
      rw [hfirst]
      exact (hs.add _).toWellFormed
    -- The new breakpoint is last, with nothing behind it.
    have hremoved : first.2.1.remove? first.2.2 s.nextId =
        some ({ first.2.1 with entries := s.entries ++ [] },
          first.2.2.disarm (ts.armAll (.execAt space address)).1.toList) :=
      hwell.remove?_of_split hadded
    have hsecond : second = (.removed s.nextId, { first.2.1 with entries := s.entries ++ [] },
        first.2.2.disarm (ts.armAll (.execAt space address)).1.toList) := by
      simp only [second, toggle, hfound, hremoved, Option.getD_some]
    refine ⟨congrArg (·.1) hfirst, fun e he => Nat.ne_of_lt (hs.older e he),
      ⟨_, hadded, rfl, rfl⟩, hfound, congrArg (·.1) hsecond, ?_, ?_⟩
    · rw [hsecond]
      exact List.append_nil _
    · rw [hsecond, hfirst]
      exact hs.table.entries_disarm_armAll (.execAt space address)
  · intro before e behind hentries hbefore he
    have hfirst : first = (.removed e.id, { s with entries := before ++ behind },
        ts.disarm e.handles.toList) := by
      simp only [first, toggle, findExec?_of_first hentries hbefore he,
        hs.toWellFormed.remove?_of_split hentries, Option.getD_some]
    have hmem : e ∈ s.entries := by rw [hentries]; simp
    rw [hfirst]
    refine ⟨rfl, rfl, Traps.entries_disarm _ _, fun entry => hs.mem_armed hmem, ?_⟩
    intro x hx h hkept
    exact find?_disarm_of_notMem (hs.disjoint hentries x hx h hkept)

end Store

end Z80Debugger
