import Z80Debugger.Proofs.Breakpoint.Change

/-!
# The account of a store

`Store.Accounts` states that a table holds exactly the traps behind the handles that the store
keeps, and other traps that are listed apart.  Every operation on the store keeps this account with
the table that it leaves, so that no registered trap is ever lost and no handle ever stale.
-/

set_option autoImplicit false

namespace Z80Debugger.Store

/-- The registered traps of all breakpoints. -/
def armed (s : Store) : List (Handle × Trap) :=
  s.entries.flatMap fun e => e.breakpoint.armed e.handles

/-- Numbers ascend and are never given twice, and handles are kept only where they may be. -/
structure WellFormed (s : Store) : Prop where
  increasing : (s.entries.map (·.id)).Pairwise (· < ·)
  older : ∀ e ∈ s.entries, e.id < s.nextId
  fit : ∀ e ∈ s.entries, e.handles.Fit e.breakpoint

/-- A table holds the listed traps, those of the store's breakpoints, and no more. -/
structure Accounts (s : Store) (others : List (Handle × Trap)) (ts : Traps) : Prop extends
    s.WellFormed where
  table : ts.Holds (others ++ s.armed)

variable {s : Store} {ts : Traps} {others : List (Handle × Trap)}
  {id : BreakpointId} {e : Entry}

/-- The handles of a store are the ones of its registered traps. -/
theorem WellFormed.map_armed (hs : s.WellFormed) : s.armed.map (·.1) = s.handles := by
  rw [armed, handles, List.map_flatMap]
  apply List.flatMap_congr
  intro e he
  exact (hs.fit e he).map_armed

/-- Only one breakpoint has a given number. -/
theorem WellFormed.split (hs : s.WellFormed) (hget : s.get? id = some e) :
    ∃ before behind, s.entries = before ++ e :: behind ∧ e.id = id ∧
      ∀ x ∈ before ++ behind, x.id ≠ id := by
  obtain ⟨hid, before, behind, hentries, hbefore⟩ := List.find?_eq_some_iff_append.mp hget
  have hid : e.id = id := by simpa using hid
  refine ⟨before, behind, hentries, hid, ?_⟩
  have hincreasing := hs.increasing
  rw [hentries, List.map_append, List.map_cons, List.pairwise_append, List.pairwise_cons]
    at hincreasing
  obtain ⟨_, ⟨hbehind, _⟩, _⟩ := hincreasing
  intro x hx
  rcases List.mem_append.mp hx with hx | hx
  · simpa using hbefore x hx
  · have hlater : e.id < x.id := hbehind x.id (List.mem_map_of_mem hx)
    rw [← hid]
    exact Nat.ne_of_gt hlater

/-- A store with fewer breakpoints is as well formed. -/
theorem WellFormed.of_sublist (hs : s.WellFormed) {entries : List Entry}
    (hsub : entries.Sublist s.entries) : ({ s with entries } : Store).WellFormed where
  increasing := hs.increasing.sublist (hsub.map _)
  older := fun e he => hs.older e (hsub.subset he)
  fit := fun e he => hs.fit e (hsub.subset he)

/-- A store without breakpoints is well formed. -/
theorem wellFormed_of_entries_eq_nil (hs : s.entries = []) : s.WellFormed where
  increasing := by simp [hs]
  older := by simp [hs]
  fit := by simp [hs]

/-- Without breakpoints only the other traps are there. -/
theorem accounts_of_entries_eq_nil (hs : s.entries = []) (hts : ts.Holds others) :
    s.Accounts others ts where
  toWellFormed := wellFormed_of_entries_eq_nil hs
  table := by simpa [armed, hs] using hts

/-- A handle that is kept for a mode of a breakpoint leads to the breakpoint's trap. -/
theorem Accounts.find?_eq_some (hs : s.Accounts others ts) (he : e ∈ s.entries) {mode : Mode}
    {h : Handle} {t : Trap} (hget : e.handles.get mode = some h)
    (ht : e.breakpoint.trap? mode = some t) : ts.find? h = some t := by
  have hmem : (h, t) ∈ s.armed := List.mem_flatMap.mpr ⟨e, he, Handles.mem_armed hget ht⟩
  exact hs.table.find?_eq_some_iff.mpr (List.mem_append_right _ hmem)

/-- No trap of a breakpoint is tested. -/
theorem untested_of_mem_armed {entry : Handle × Trap} (hmem : entry ∈ s.armed) :
    entry.2.tested = false := by
  obtain ⟨e, _, hentry⟩ := List.mem_flatMap.mp hmem
  exact Handles.untested_of_mem_armed hentry

/-- A table without the handles of an entry holds the traps of the other breakpoints. -/
theorem holds_disarm_entry {before behind : List Entry}
    (hentries : s.entries = before ++ e :: behind) (hs : s.Accounts others ts) :
    (ts.disarm e.handles.toList).Holds
      (others ++ armed { s with entries := before ++ behind }) := by
  have he : e ∈ s.entries := by rw [hentries]; simp
  have htable : ts.Holds (e.breakpoint.armed e.handles ++
      (others ++ armed { s with entries := before ++ behind })) := by
    apply hs.table.of_perm
    simp only [armed, hentries, List.flatMap_append, List.flatMap_cons]
    exact ((List.perm_append_comm_assoc _ _ _).append_left _).trans
      (List.perm_append_comm_assoc _ _ _)
  rw [← (hs.fit e he).map_armed]
  exact htable.disarm

/-- A new breakpoint stands last, and its handles fit. -/
theorem WellFormed.add (hs : s.WellFormed) {b : Breakpoint} (hfit : (ts.armAll b).1.Fit b) :
    (s.add ts b).2.1.WellFormed where
  increasing := by
    simp only [Store.add, List.map_append, List.map_cons, List.map_nil]
    apply List.pairwise_append.mpr
    refine ⟨hs.increasing, List.pairwise_singleton _ _, ?_⟩
    intro k hk l hl
    obtain ⟨e, he, rfl⟩ := List.mem_map.mp hk
    rw [List.mem_singleton.mp hl]
    exact hs.older e he
  older := by
    intro e he
    rcases List.mem_append.mp he with he | he
    · exact Nat.lt_succ_of_lt (hs.older e he)
    · rw [List.mem_singleton.mp he]
      exact Nat.lt_succ_self _
  fit := by
    intro e he
    rcases List.mem_append.mp he with he | he
    · exact hs.fit e he
    · rw [List.mem_singleton.mp he]
      exact hfit

/-- Taking the breakpoints with a number out takes out one. -/
theorem filter_eq_of_split {before behind : List Entry}
    (hentries : s.entries = before ++ e :: behind)
    (hother : ∀ x ∈ before ++ behind, x.id ≠ e.id) :
    s.entries.filter (·.id != e.id) = before ++ behind := by
  have hall : (before ++ behind).filter (·.id != e.id) = before ++ behind := by
    rw [List.filter_eq_self]
    intro x hx
    simpa using hother x hx
  rw [hentries, List.filter_append, List.filter_cons_of_neg (by simp), ← List.filter_append, hall]

/-- A new breakpoint comes into the account with what the table took for it. -/
theorem Accounts.add (hs : s.Accounts others ts) (b : Breakpoint) :
    (s.add ts b).2.1.Accounts others (s.add ts b).2.2 := by
  obtain ⟨htable, hfit⟩ := hs.table.armAll b
  refine ⟨hs.toWellFormed.add hfit, ?_⟩
  simpa [Store.add, armed] using htable

/-- Removing a breakpoint takes out its traps. -/
theorem Accounts.remove (hs : s.Accounts others ts) (hget : s.get? id = some e) :
    ({ s with entries := s.entries.filter (·.id != id) } : Store).Accounts others
      (ts.disarm e.handles.toList) := by
  obtain ⟨before, behind, hentries, rfl, hother⟩ := hs.toWellFormed.split hget
  refine ⟨hs.toWellFormed.of_sublist List.filter_sublist, ?_⟩
  rw [filter_eq_of_split hentries hother]
  exact holds_disarm_entry hentries hs

/-- Putting an entry in the place of the one with its number changes no other one. -/
theorem entries_put (new : Entry) {before behind : List Entry}
    (hentries : s.entries = before ++ e :: behind) (hid : new.id = e.id)
    (hother : ∀ x ∈ before ++ behind, x.id ≠ e.id) :
    (s.put new).entries = before ++ new :: behind := by
  have hsame : ∀ xs : List Entry, (∀ x ∈ xs, x.id ≠ e.id) →
      xs.map (fun x => if x.id = new.id then new else x) = xs := by
    intro xs hxs
    have hkept : ∀ x ∈ xs, (if x.id = new.id then new else x) = x := by
      intro x hx
      exact if_neg (hid ▸ hxs x hx)
    exact (List.map_congr_left hkept).trans (List.map_id' xs)
  simp only [put, hentries, List.map_append, List.map_cons, hid, if_true]
  rw [← hid, hsame before fun x hx => hother x (List.mem_append_left _ hx),
    hsame behind fun x hx => hother x (List.mem_append_right _ hx)]

/-- An entry whose breakpoint changes stands where it stood. -/
theorem WellFormed.entries_rearm (hs : s.WellFormed) (hget : s.get? id = some e) (ts : Traps)
    (b : Breakpoint) :
    ∃ before behind, s.entries = before ++ e :: behind ∧
      (s.rearm ts e b).1.entries = before ++
        { e with breakpoint := b, handles := ((ts.disarm e.handles.toList).armAll b).1 } ::
          behind := by
  obtain ⟨before, behind, hentries, rfl, hother⟩ := hs.split hget
  exact ⟨before, behind, hentries, entries_put _ hentries rfl hother⟩

/-- A changed breakpoint keeps its number and its place, and its new handles fit. -/
theorem WellFormed.rearm (hs : s.WellFormed) (hget : s.get? id = some e) {b : Breakpoint}
    (hfit : ((ts.disarm e.handles.toList).armAll b).1.Fit b) : (s.rearm ts e b).1.WellFormed := by
  obtain ⟨before, behind, hentries, hput⟩ := hs.entries_rearm hget ts b
  have he : e ∈ s.entries := by rw [hentries]; simp
  refine ⟨?_, ?_, ?_⟩
  · have hids := hs.increasing
    rw [hentries] at hids
    rw [hput]
    simpa using hids
  · intro x hx
    rw [hput, List.mem_append, List.mem_cons] at hx
    rcases hx with hx | rfl | hx
    · exact hs.older x (by simp [hentries, hx])
    · exact hs.older e he
    · exact hs.older x (by simp [hentries, hx])
  · intro x hx
    rw [hput, List.mem_append, List.mem_cons] at hx
    rcases hx with hx | rfl | hx
    · exact hs.fit x (by simp [hentries, hx])
    · exact hfit
    · exact hs.fit x (by simp [hentries, hx])

/-- A changed breakpoint is in the account with its new traps and without its old ones. -/
theorem Accounts.rearm (hs : s.Accounts others ts) (hget : s.get? id = some e) (b : Breakpoint) :
    (s.rearm ts e b).1.Accounts others (s.rearm ts e b).2 := by
  obtain ⟨before, behind, hentries, hput⟩ := hs.toWellFormed.entries_rearm hget ts b
  obtain ⟨htable, hfit⟩ := (holds_disarm_entry hentries hs).armAll b
  refine ⟨hs.toWellFormed.rearm hget hfit, ?_⟩
  apply htable.of_perm
  have harmed : (s.rearm ts e b).1.armed = _ := congrArg (List.flatMap _) hput
  rw [harmed]
  simp only [armed, List.flatMap_append, List.flatMap_cons, List.append_assoc]
  apply List.Perm.append_left
  apply List.Perm.append_left
  exact List.perm_append_comm

/-- Removing all breakpoints leaves the other traps. -/
theorem Accounts.clear (hs : s.Accounts others ts) :
    (s.clear ts).1.Accounts others (s.clear ts).2 := by
  apply accounts_of_entries_eq_nil rfl
  rw [Store.clear, ← hs.toWellFormed.map_armed]
  exact (hs.table.of_perm List.perm_append_comm).disarm

/-- Every change of a store keeps its account. -/
theorem Accounts.change (hs : s.Accounts others ts) {Brings : Breakpoint → Prop}
    {after : Store × Traps} (hchange : Change Brings s ts after) :
    after.1.Accounts others after.2 := by
  cases hchange with
  | same => exact hs
  | add => exact hs.add _
  | remove hget => exact hs.remove hget
  | rearm hget => exact hs.rearm hget _
  | clear => exact hs.clear

end Z80Debugger.Store
