import Z80Debugger.Proofs.Breakpoint.Log

/-!
# Requests to a table of traps

Whoever works on a table of traps registers, removes and limits, and is told what came of it: the
handle of a registration, or that it was refused, and whether a removal made the table shorter.
`Traps.askAll` is the table after requests in order, and `Traps.taken` lists the registrations that
were not refused on the way.  They are numbered in their order, and the table holds some of them in
the same order (`Issued.askAll`).  So a handle means one trap, whenever it was given out, and
`Traps.Unconfused` says what that comes to for the next request.
-/

set_option autoImplicit false

namespace Z80Debugger.Traps

/-- What is asked of a table. -/
inductive Request where
  | add (t : Trap)
  | remove (h : Handle)
  | limit (traps : Option Nat)
  deriving DecidableEq, Repr

/-- What the asker is told. -/
abbrev Request.Answer : Request → Type
  | add _ => Option Handle
  | remove _ => Bool
  | limit _ => Unit

/-- The answer to a request, and the table afterwards. -/
def ask (ts : Traps) : (r : Request) → r.Answer × Traps
  | .add t => ((ts.add? t).map (·.1), ((ts.add? t).map (·.2)).getD ts)
  | .remove h => ((ts.erase h).size != ts.size, ts.erase h)
  | .limit traps => ((), { ts with limit := traps })

/-- The table after requests in order. -/
def askAll (ts : Traps) (requests : List Request) : Traps :=
  requests.foldl (fun ts r => (ts.ask r).2) ts

/-- What a request registers. -/
def takenBy (ts : Traps) : Request → List (Handle × Trap)
  | .add t => ((ts.add? t).map fun added => (added.1, t)).toList
  | .remove _ => []
  | .limit _ => []

/-- The registrations that requests in order make, with their handles. -/
def taken (ts : Traps) : List Request → List (Handle × Trap)
  | [] => []
  | r :: requests => ts.takenBy r ++ (ts.ask r).2.taken requests

variable {ts : Traps} {log front back : List (Handle × Trap)} {h : Handle} {t : Trap}

/-- Requests are answered one after the other. -/
theorem askAll_append (ts : Traps) (before behind : List Request) :
    ts.askAll (before ++ behind) = (ts.askAll before).askAll behind :=
  List.foldl_append

/-- A registration is refused exactly for an empty range or a full table. -/
theorem ask_add_eq_none_iff :
    (ts.ask (.add t)).1 = none ↔ t.last < t.first ∨ ts.hasRoom = false := by
  show (ts.add? t).map (·.1) = none ↔ _
  rw [Option.map_eq_none_iff, add?, ← UInt32.not_le]
  by_cases hrange : t.first ≤ t.last <;> by_cases hroom : ts.hasRoom = true <;>
    simp [hrange, hroom]

/-- A refused registration leaves the table. -/
theorem ask_add_of_eq_none (hrefused : (ts.ask (.add t)).1 = none) :
    (ts.ask (.add t)).2 = ts := by
  have hnone : ts.add? t = none := Option.map_eq_none_iff.mp hrefused
  show ((ts.add? t).map (·.2)).getD ts = ts
  rw [hnone]
  rfl

/-- A registration that is taken gets the next handle and comes last. -/
theorem ask_add_of_eq_some (htaken : (ts.ask (.add t)).1 = some h) :
    h = ts.nextHandle ∧ (ts.ask (.add t)).2.entries = ts.entries ++ [(h, t)] := by
  obtain ⟨⟨_, after⟩, hadd, rfl⟩ := Option.map_eq_some_iff.mp htaken
  have hask : (ts.ask (.add t)).2 = after := by
    show ((ts.add? t).map (·.2)).getD ts = after
    rw [hadd]
    rfl
  obtain ⟨-, -, hnext, rfl⟩ := add?_eq_some_iff.mp hadd
  rw [hask, hnext]
  exact ⟨rfl, rfl⟩

/-- A removal makes the table shorter exactly if the handle is registered. -/
theorem ask_remove_eq_true_iff : (ts.ask (.remove h)).1 = true ↔ h ∈ ts.handles := by
  show ((ts.erase h).size != ts.size) = true ↔ _
  rw [bne_iff_ne, ← contains_iff]
  constructor
  · intro hsize
    by_contra hnot
    rw [Bool.not_eq_true] at hnot
    exact hsize (by rw [erase_of_not_contains hnot])
  · intro hcontains hsize
    have hkept := List.length_filter_eq_length_iff.mp hsize
    obtain ⟨entry, hentry, hown⟩ := List.any_eq_true.mp hcontains
    have hother := hkept entry hentry
    rw [bne_iff_ne] at hother
    exact hother (eq_of_beq hown)

/-- Removing an unknown handle leaves the table. -/
theorem ask_remove_of_notMem (hnot : h ∉ ts.handles) : (ts.ask (.remove h)).2 = ts := by
  rw [← contains_iff, Bool.not_eq_true] at hnot
  exact erase_of_not_contains hnot

/-- Removing a handle takes out its entry alone. -/
theorem Ordered.ask_remove (hts : ts.Ordered) (hentries : ts.entries = front ++ (h, t) :: back) :
    (ts.ask (.remove h)).2 = { ts with entries := front ++ back } := by
  have hnodup := hts.nodup
  rw [handles, hentries, List.map_append, List.map_cons, List.nodup_middle, List.nodup_cons,
    ← List.map_append] at hnodup
  have hothers : ∀ entry ∈ front ++ back, (entry.1 != h) = true := by
    intro entry hentry
    rw [bne_iff_ne]
    rintro rfl
    exact hnodup.1 (List.mem_map.mpr ⟨entry, hentry, rfl⟩)
  have hkept : ts.entries.filter (·.1 != h) = front ++ back := by
    rw [hentries, List.filter_append, List.filter_cons_of_neg (by simp), ← List.filter_append,
      List.filter_eq_self.mpr hothers]
  show { ts with entries := ts.entries.filter (·.1 != h) } = _
  rw [hkept]

/-- The log lists all that was registered, from the first handle on, and the next registration will
have the next number. -/
structure Issued (ts : Traps) (log : List (Handle × Trap)) : Prop extends ts.Logged log where
  next : ts.nextHandle = log.length + 1
  positive : ∀ entry ∈ log, 0 < entry.1
  ranged : ∀ entry ∈ log, entry.2.first ≤ entry.2.last

/-- A new table has issued nothing. -/
theorem issued_nil : Issued {} [] where
  increasing := List.Pairwise.nil
  older := by simp
  listed := List.Sublist.refl _
  next := rfl
  positive := by simp
  ranged := by simp

/-- A table with fewer entries and the same next handle has issued the same. -/
theorem Issued.of_sublist {after : Traps} (hts : ts.Issued log)
    (hnext : after.nextHandle = ts.nextHandle) (hsub : after.entries.Sublist ts.entries) :
    after.Issued log where
  toLogged := hts.toLogged.of_sublist hnext hsub
  next := hnext.trans hts.next
  positive := hts.positive
  ranged := hts.ranged

/-- A registration is issued last. -/
theorem Issued.add? {after : Traps} (hts : ts.Issued log) (hadd : ts.add? t = some (h, after)) :
    after.Issued (log ++ [(h, t)]) where
  toLogged := hts.toLogged.add? hadd
  next := by
    obtain ⟨-, -, rfl, rfl⟩ := add?_eq_some_iff.mp hadd
    simp [hts.next]
  positive := by
    obtain ⟨-, -, rfl, -⟩ := add?_eq_some_iff.mp hadd
    intro entry hentry
    rcases List.mem_append.mp hentry with hold | hnew
    · exact hts.positive entry hold
    · rw [List.mem_singleton.mp hnew, hts.next]
      exact Nat.succ_pos _
  ranged := by
    obtain ⟨hrange, -, -, -⟩ := add?_eq_some_iff.mp hadd
    intro entry hentry
    rcases List.mem_append.mp hentry with hold | hnew
    · exact hts.ranged entry hold
    · rw [List.mem_singleton.mp hnew]
      exact hrange

/-- A request adds what it takes to what was issued. -/
theorem Issued.ask (hts : ts.Issued log) (r : Request) :
    (ts.ask r).2.Issued (log ++ ts.takenBy r) := by
  cases r with
  | add t =>
    simp only [Traps.ask, takenBy]
    cases hadd : ts.add? t with
    | none => simpa using hts
    | some added => exact hts.add? hadd
  | remove h =>
    rw [takenBy, List.append_nil]
    exact hts.of_sublist (nextHandle_erase ts h) List.filter_sublist
  | limit traps =>
    rw [takenBy, List.append_nil]
    exact hts.of_sublist rfl (List.Sublist.refl _)

/-- So do any requests. -/
theorem Issued.askAll (hts : ts.Issued log) (requests : List Request) :
    (ts.askAll requests).Issued (log ++ ts.taken requests) := by
  induction requests generalizing ts log with
  | nil =>
    rw [taken, List.append_nil]
    exact hts
  | cons r requests ih =>
    rw [taken, ← List.append_assoc]
    exact ih (hts.ask r)

/-- What holds of a table in which no handle is confused with another, where the list has all that
was ever registered. -/
structure Unconfused (ts : Traps) (registered : List (Handle × Trap)) : Prop where
  positive : ∀ h ∈ ts.handles, h ≠ 0
  increasing : ts.handles.Pairwise (· < ·)
  inOrder : ts.entries.Sublist registered
  ranged : ∀ entry ∈ ts.entries, entry.2.first ≤ entry.2.last
  /-- A registration is refused if its range is empty or the table is full, and then changes
  nothing. -/
  refuses : ∀ t, (ts.ask (.add t)).1 = none ↔ t.last < t.first ∨ ts.hasRoom = false
  unchanged : ∀ t, (ts.ask (.add t)).1 = none → (ts.ask (.add t)).2 = ts
  /-- Otherwise it comes last, under a handle that is newer than all that were ever given out. -/
  takes : ∀ t h, (ts.ask (.add t)).1 = some h →
    (∀ entry ∈ registered, entry.1 < h) ∧ (ts.ask (.add t)).2.entries = ts.entries ++ [(h, t)]
  /-- A removal finds what is registered, and nothing else. -/
  finds : ∀ h, (ts.ask (.remove h)).1 = true ↔ h ∈ ts.handles
  misses : ∀ h, h ∉ ts.handles → (ts.ask (.remove h)).2 = ts
  /-- It takes that one trap out, and the others stand as they did. -/
  removes : ∀ h t front back, ts.entries = front ++ (h, t) :: back →
    (ts.ask (.remove h)).2 = { ts with entries := front ++ back }

/-- With a log of what was issued no handle is confused. -/
theorem Issued.unconfused (hts : ts.Issued log) : ts.Unconfused log where
  positive := by
    intro h hh
    obtain ⟨entry, hentry, rfl⟩ := List.mem_map.mp hh
    exact Nat.ne_of_gt (hts.positive entry (hts.listed.subset hentry))
  increasing := hts.ordered.increasing
  inOrder := hts.listed
  ranged := fun entry hentry => hts.ranged entry (hts.listed.subset hentry)
  refuses := fun _ => ask_add_eq_none_iff
  unchanged := fun _ => ask_add_of_eq_none
  takes := by
    intro t h htaken
    obtain ⟨rfl, hentries⟩ := ask_add_of_eq_some htaken
    exact ⟨hts.older, hentries⟩
  finds := fun _ => ask_remove_eq_true_iff
  misses := fun _ => ask_remove_of_notMem
  removes := fun _ _ _ _ => hts.ordered.ask_remove

end Z80Debugger.Traps
