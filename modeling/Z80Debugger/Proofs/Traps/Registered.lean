import Mathlib.Data.List.Pairwise
import Mathlib.Data.List.Nodup
import Z80Debugger.Trap

/-!
# What a table of traps holds

A table that is ordered hands out a handle that is newer than every handle in it.  `Traps.Holds`
says of such a table which traps it holds, in whatever order they are listed.  Registering a trap
adds it to the list, and removing a listed handle takes exactly its trap out again.
-/

set_option autoImplicit false

namespace Z80Debugger.Traps

/-- The handles ascend, and all of them are older than the next one. -/
structure Ordered (ts : Traps) : Prop where
  increasing : ts.handles.Pairwise (· < ·)
  older : ∀ h ∈ ts.handles, h < ts.nextHandle

/-- The table is ordered and holds exactly the listed traps. -/
structure Holds (ts : Traps) (registered : List (Handle × Trap)) : Prop extends Ordered ts where
  perm : ts.entries.Perm registered

variable {ts after : Traps} {registered : List (Handle × Trap)} {h : Handle} {t : Trap}

/-- A trap with a range is taken where there is room, and stands last. -/
theorem exists_add? (hrange : t.first ≤ t.last) (hroom : ts.hasRoom = true) :
    ∃ h after, ts.add? t = some (h, after) ∧ after.entries = ts.entries ++ [(h, t)] :=
  ⟨_, _, add?_eq_some_iff.mpr ⟨hrange, hroom, rfl, rfl⟩, rfl⟩

/-- What is gone cannot be removed again. -/
theorem erase_erase (ts : Traps) (h : Handle) : (ts.erase h).erase h = ts.erase h := by
  simp [Traps.erase]

/-- What a handle leads to is in the table. -/
theorem mem_entries_of_find?_eq_some (hfind : ts.find? h = some t) : (h, t) ∈ ts.entries := by
  obtain ⟨entry, hentry, rfl⟩ := Option.map_eq_some_iff.mp hfind
  have hh : entry.1 = h := by simpa using List.find?_some hentry
  rw [← hh]
  exact List.mem_of_find?_eq_some hentry

/-- An empty table holds nothing. -/
theorem holds_nil (hempty : ts.entries = []) : ts.Holds [] where
  increasing := by simp [handles, hempty]
  older := by simp [handles, hempty]
  perm := by rw [hempty]

/-- A new handle comes last. -/
theorem Ordered.add? (hts : ts.Ordered) (hadd : ts.add? t = some (h, after)) : after.Ordered := by
  obtain ⟨_, _, rfl, rfl⟩ := add?_eq_some_iff.mp hadd
  constructor
  · have hlast : ∀ k ∈ ts.handles, ∀ l ∈ [ts.nextHandle], k < l := by
      intro k hk l hl
      rw [List.mem_singleton.mp hl]
      exact hts.older k hk
    simpa [handles] using
      List.pairwise_append.mpr ⟨hts.increasing, List.pairwise_singleton _ _, hlast⟩
  · intro k hk
    simp only [handles, List.map_append, List.map_cons, List.map_nil, List.mem_append,
      List.mem_singleton] at hk
    rcases hk with hk | rfl
    · exact Nat.lt_succ_of_lt (hts.older k hk)
    · exact Nat.lt_succ_self _

/-- No handle is in a table twice. -/
theorem Ordered.nodup (hts : ts.Ordered) : ts.handles.Nodup :=
  hts.increasing.imp fun hlt => Nat.ne_of_lt hlt

/-- Removing a handle keeps the others in order. -/
theorem Ordered.erase (hts : ts.Ordered) (h : Handle) : (ts.erase h).Ordered := by
  constructor
  · exact hts.increasing.sublist (List.filter_sublist.map _)
  · intro k hk
    exact hts.older k (mem_handles_erase.mp hk).1

namespace Holds

/-- The order of the list does not matter. -/
theorem of_perm (hts : ts.Holds registered) {others : List (Handle × Trap)}
    (hperm : registered.Perm others) : ts.Holds others :=
  { hts with perm := hts.perm.trans hperm }

/-- Each handle is listed once. -/
theorem nodup (hts : ts.Holds registered) : (registered.map (·.1)).Nodup :=
  (hts.perm.map _).nodup_iff.mp hts.toOrdered.nodup

/-- The handles in the table are the listed ones. -/
theorem handles_perm (hts : ts.Holds registered) : ts.handles.Perm (registered.map (·.1)) :=
  hts.perm.map _

/-- A table that holds nothing is empty. -/
theorem entries_eq_nil (hts : ts.Holds []) : ts.entries = [] := hts.perm.eq_nil

/-- A handle leads to a trap exactly if the two are listed together. -/
theorem find?_eq_some_iff (hts : ts.Holds registered) :
    ts.find? h = some t ↔ (h, t) ∈ registered := by
  rw [← hts.perm.mem_iff]
  constructor
  · exact mem_entries_of_find?_eq_some
  · intro hmem
    cases hfind : ts.entries.find? (·.1 == h) with
    | none => simpa using List.find?_eq_none.mp hfind (h, t) hmem
    | some entry =>
      have hh : entry.1 = h := by simpa using List.find?_some hfind
      have hsame := List.inj_on_of_nodup_map hts.toOrdered.nodup
        (List.mem_of_find?_eq_some hfind) hmem hh
      simp [find?, hfind, hsame]

/-- A registered trap joins the list. -/
theorem add? (hts : ts.Holds registered) (hadd : ts.add? t = some (h, after)) :
    after.Holds (registered ++ [(h, t)]) := by
  refine { hts.toOrdered.add? hadd with perm := ?_ }
  obtain ⟨_, _, rfl, rfl⟩ := add?_eq_some_iff.mp hadd
  exact hts.perm.append_right _

/-- A removed trap leaves the list, and no other does. -/
theorem erase (hts : ts.Holds ((h, t) :: registered)) : (ts.erase h).Holds registered := by
  refine { hts.toOrdered.erase h with perm := ?_ }
  have hnot : h ∉ registered.map (·.1) := (List.nodup_cons.mp hts.nodup).1
  have hother : ∀ entry ∈ registered, (entry.1 != h) = true := by
    intro entry hentry
    rw [bne_iff_ne]
    intro hsame
    exact hnot (hsame ▸ List.mem_map_of_mem hentry)
  have hkept := hts.perm.filter (·.1 != h)
  rwa [List.filter_cons_of_neg (by simp), List.filter_eq_self.mpr hother] at hkept

end Holds

end Z80Debugger.Traps
