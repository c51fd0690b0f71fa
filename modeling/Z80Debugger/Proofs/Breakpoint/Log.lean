import Mathlib.Data.List.Flatten
import Mathlib.Data.List.Perm.Subperm
import Z80Debugger.Proofs.Breakpoint.Account

/-!
# The log of a table and its store

A table hands out ascending handles, so everything that was ever registered in it stands in a log
that only grows, in the order of the handles.  What is registered now is a part of the log in the
same order, whoever removed the rest.  A store keeps handles of its own, each once, and the log says
which traps they were given for.  Registering a breakpoint appends its traps to table and log, and
removing their handles again leaves the table exactly as it was.
-/

set_option autoImplicit false

namespace Z80Debugger

variable {ts after : Traps} {log : List (Handle × Trap)} {b : Breakpoint} {mode : Mode}
  {h : Handle} {t : Trap}

namespace Traps

/-- What the log lists was registered in ascending order, and the table holds some of it. -/
structure Logged (ts : Traps) (log : List (Handle × Trap)) : Prop where
  increasing : (log.map (·.1)).Pairwise (· < ·)
  older : ∀ entry ∈ log, entry.1 < ts.nextHandle
  listed : ts.entries.Sublist log

/-- Removing handles leaves the entries under other handles. -/
theorem entries_disarm (ts : Traps) (hs : List Handle) :
    (ts.disarm hs).entries = ts.entries.filter fun entry => decide (entry.1 ∉ hs) := by
  induction hs generalizing ts with
  | nil => simp [disarm]
  | cons h hs ih =>
    have hstep : ts.disarm (h :: hs) = (ts.erase h).disarm hs := rfl
    rw [hstep, ih, entries_erase, List.filter_filter]
    apply List.filter_congr
    intro entry _
    by_cases hown : entry.1 = h <;> simp [hown]

/-- Removing handles does not free their numbers. -/
@[simp] theorem nextHandle_disarm (ts : Traps) (hs : List Handle) :
    (ts.disarm hs).nextHandle = ts.nextHandle := by
  rw [disarm_eq]

/-- A table with a log has its handles in order. -/
theorem Logged.ordered (hts : ts.Logged log) : ts.Ordered where
  increasing := hts.increasing.sublist (hts.listed.map _)
  older := by
    intro h hh
    obtain ⟨entry, hentry, rfl⟩ := List.mem_map.mp hh
    exact hts.older entry (hts.listed.subset hentry)

/-- Two handles of a log that are the same were given for one trap. -/
theorem Logged.eq_of_fst_eq (hts : ts.Logged log) {x y : Handle × Trap} (hx : x ∈ log)
    (hy : y ∈ log) (hsame : x.1 = y.1) : x = y :=
  List.inj_on_of_nodup_map (hts.increasing.imp fun hlt => Nat.ne_of_lt hlt) hx hy hsame

/-- A table that gives out the same handles next and holds no more keeps the log. -/
theorem Logged.of_sublist (hts : ts.Logged log) (hnext : after.nextHandle = ts.nextHandle)
    (hsub : after.entries.Sublist ts.entries) : after.Logged log where
  increasing := hts.increasing
  older := hnext ▸ hts.older
  listed := hsub.trans hts.listed

/-- Removing handles keeps the log. -/
theorem Logged.disarm (hts : ts.Logged log) (hs : List Handle) : (ts.disarm hs).Logged log := by
  apply hts.of_sublist (nextHandle_disarm ts hs)
  rw [entries_disarm]
  exact List.filter_sublist

/-- A registered trap is appended to the log. -/
theorem Logged.add? (hts : ts.Logged log) (hadd : ts.add? t = some (h, after)) :
    after.Logged (log ++ [(h, t)]) := by
  obtain ⟨_, _, rfl, rfl⟩ := add?_eq_some_iff.mp hadd
  refine ⟨?_, ?_, hts.listed.append (List.Sublist.refl _)⟩
  · rw [List.map_append]
    refine List.pairwise_append.mpr ⟨hts.increasing, List.pairwise_singleton _ _, ?_⟩
    intro k hk l hl
    obtain ⟨entry, hentry, rfl⟩ := List.mem_map.mp hk
    rw [List.mem_singleton.mp hl]
    exact hts.older entry hentry
  · intro entry hentry
    rcases List.mem_append.mp hentry with hold | hnew
    · exact Nat.lt_succ_of_lt (hts.older entry hold)
    · rw [List.mem_singleton.mp hnew]
      exact Nat.lt_succ_self _

/-- What is registered for a mode is appended to table and log. -/
theorem Logged.arm (hts : ts.Logged log) (b : Breakpoint) (mode : Mode) :
    (ts.arm b mode).2.entries = ts.entries ++ b.slot mode (ts.arm b mode).1 ∧
      (ts.arm b mode).2.Logged (log ++ b.slot mode (ts.arm b mode).1) := by
  have hnone : ts.entries = ts.entries ++ b.slot mode none ∧
      ts.Logged (log ++ b.slot mode none) := by
    simpa [Breakpoint.slot] using hts
  unfold Traps.arm
  split
  · split
    · next h taken hadd =>
      obtain ⟨t, ht, hadd⟩ := Option.bind_eq_some_iff.mp hadd
      have hslot : b.slot mode (some h) = [(h, t)] := by simp [Breakpoint.slot, ht]
      rw [hslot]
      refine ⟨?_, hts.add? hadd⟩
      obtain ⟨_, _, rfl, rfl⟩ := add?_eq_some_iff.mp hadd
      rfl
    · exact hnone
  · exact hnone

/-- What is registered for a breakpoint is appended to table and log. -/
theorem Logged.armAll (hts : ts.Logged log) (b : Breakpoint) :
    (ts.armAll b).2.entries = ts.entries ++ b.armed (ts.armAll b).1 ∧
      (ts.armAll b).2.Logged (log ++ b.armed (ts.armAll b).1) := by
  unfold Traps.armAll
  split
  · obtain ⟨eexec, hexec⟩ := hts.arm b .exec
    obtain ⟨ewrite, hwrite⟩ := hexec.arm b .write
    obtain ⟨eread, hread⟩ := hwrite.arm b .read
    refine ⟨?_, by simpa [Breakpoint.armed] using hread⟩
    rw [eread, ewrite, eexec, List.append_assoc, List.append_assoc, Breakpoint.armed,
      List.append_assoc]
  · simpa [Breakpoint.armed, Breakpoint.slot] using hts

/-- Handles are given only for modes that may have them. -/
theorem Ordered.fit_armAll (hts : ts.Ordered) (b : Breakpoint) : (ts.armAll b).1.Fit b :=
  (Holds.armAll { hts with perm := List.Perm.refl _ } b).2

/-- Removing what was just registered for a breakpoint leaves the table as it was. -/
theorem Logged.entries_disarm_armAll (hts : ts.Logged log) (b : Breakpoint) :
    ((ts.armAll b).2.disarm (ts.armAll b).1.toList).entries = ts.entries := by
  obtain ⟨hentries, hlogged⟩ := hts.armAll b
  have hhandles := (hts.ordered.fit_armAll b).map_armed
  have hnew : ∀ entry ∈ b.armed (ts.armAll b).1, entry.1 ∈ (ts.armAll b).1.toList := by
    intro entry hentry
    rw [← hhandles]
    exact List.mem_map_of_mem hentry
  -- The log is ascending with the new handles at its end, so no older one is among them.
  have hold : ∀ entry ∈ ts.entries, entry.1 ∉ (ts.armAll b).1.toList := by
    intro entry hentry hmem
    have hincreasing := hlogged.increasing
    rw [List.map_append, List.pairwise_append] at hincreasing
    have hlt := hincreasing.2.2 entry.1 (List.mem_map_of_mem (hts.listed.subset hentry)) entry.1
      (hhandles ▸ hmem)
    exact Nat.lt_irrefl _ hlt
  rw [entries_disarm, hentries, List.filter_append,
    List.filter_eq_self.mpr fun entry hentry => decide_eq_true (hold entry hentry),
    List.filter_eq_nil_iff.mpr fun entry hentry => by simpa using hnew entry hentry,
    List.append_nil]

end Traps

namespace Store

/-- The store's handles were all given by the table, each for a trap of the breakpoint that keeps
it, and no two breakpoints keep the same one. -/
structure Logged (s : Store) (ts : Traps) (log : List (Handle × Trap)) : Prop extends
    s.WellFormed where
  table : ts.Logged log
  armed : s.armed.Subperm log

variable {s : Store} {id : BreakpointId} {e : Entry}

/-- A store without breakpoints keeps no handle, so any log will do. -/
theorem logged_of_entries_eq_nil (hs : s.entries = []) (hts : ts.Logged log) :
    s.Logged ts log where
  toWellFormed := wellFormed_of_entries_eq_nil hs
  table := hts
  armed := by simp [Store.armed, hs]

/-- The table may go on without the store. -/
theorem Logged.of_table {others : List (Handle × Trap)} (hs : s.Logged ts log)
    (hafter : after.Logged (log ++ others)) : s.Logged after (log ++ others) where
  toWellFormed := hs.toWellFormed
  table := hafter
  armed := hs.armed.trans (List.sublist_append_left _ _).subperm

/-- A new breakpoint appends what is registered for it. -/
theorem Logged.add (hs : s.Logged ts log) (b : Breakpoint) :
    (s.add ts b).2.1.Logged (s.add ts b).2.2 (log ++ b.armed (ts.armAll b).1) where
  toWellFormed := hs.toWellFormed.add (hs.table.ordered.fit_armAll b)
  table := (hs.table.armAll b).2
  armed := by
    simpa [Store.add, Store.armed] using hs.armed.append (List.Subperm.refl _)

/-- With fewer breakpoints and fewer traps the log stays. -/
theorem Logged.disarm_entry (hs : s.Logged ts log) {entries : List Entry}
    (hsub : entries.Sublist s.entries) (handles : List Handle) :
    ({ s with entries } : Store).Logged (ts.disarm handles) log where
  toWellFormed := hs.toWellFormed.of_sublist hsub
  table := hs.table.disarm handles
  armed := (hsub.flatMap _).subperm.trans hs.armed

/-- A breakpoint whose traps are registered anew keeps the handles that it was given last. -/
theorem Logged.rearm (hs : s.Logged ts log) (hget : s.get? id = some e) (b : Breakpoint) :
    ∃ log', (s.rearm ts e b).1.Logged (s.rearm ts e b).2 log' := by
  have htable := hs.table.disarm e.handles.toList
  obtain ⟨before, behind, hentries, hput⟩ := hs.toWellFormed.entries_rearm hget ts b
  refine ⟨_, hs.toWellFormed.rearm hget (htable.ordered.fit_armAll b), (htable.armAll b).2, ?_⟩
  have harmed : (s.rearm ts e b).1.armed = _ := congrArg (List.flatMap _) hput
  -- The breakpoint's old traps stay in the log, but the store keeps them no more.
  have hothers : ((before ++ behind).flatMap fun e => e.breakpoint.armed e.handles).Sublist
      s.armed := by
    apply List.Sublist.flatMap
    rw [hentries]
    exact (List.Sublist.refl _).append (List.sublist_cons_self _ _)
  have hall := (hothers.subperm.trans hs.armed).append
    (List.Subperm.refl (b.armed ((ts.disarm e.handles.toList).armAll b).1))
  refine List.Perm.subperm ?_ |>.trans hall
  rw [harmed]
  simp only [List.flatMap_append, List.flatMap_cons, List.append_assoc]
  exact List.perm_append_comm.append_left _

/-- Every change of a store keeps a log: the one there was, or the one with what was registered. -/
theorem Logged.change (hs : s.Logged ts log) {Brings : Breakpoint → Prop} {after : Store × Traps}
    (hchange : Change Brings s ts after) : ∃ log', after.1.Logged after.2 log' := by
  cases hchange with
  | same => exact ⟨log, hs⟩
  | add => exact ⟨_, hs.add _⟩
  | remove => exact ⟨log, hs.disarm_entry List.filter_sublist _⟩
  | rearm hget => exact hs.rearm hget _
  | clear => exact ⟨log, hs.disarm_entry (List.nil_sublist _) _⟩

end Store

end Z80Debugger
