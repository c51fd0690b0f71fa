import Z80Debugger.Proofs.Breakpoint.Account

/-!
# What any operations leave in a store and in a table

A store and the table of traps change together.  The store accounts for the table after any
operations, whatever the table refuses.  A table without a limit refuses only empty ranges, so there
every mode that an enabled breakpoint may have a trap for has one: the handles are full.
-/

set_option autoImplicit false

namespace Z80Debugger

variable {b : Breakpoint} {mode : Mode} {ts : Traps}

namespace Traps

/-- Without a limit a trap with a range is registered. -/
theorem isSome_arm (hlimit : ts.limit = none) (hmode : b.modes.contains mode = true)
    (htrap : (b.trap? mode).isSome = true) (hrange : b.first ≤ b.last) :
    (ts.arm b mode).1.isSome = true := by
  obtain ⟨t, ht⟩ := Option.isSome_iff_exists.mp htrap
  have hwatches := Trap.watches_of_trap? ht
  have hrange' : t.first ≤ t.last := by rwa [hwatches.first, hwatches.last]
  have hroom : ts.hasRoom = true := by rw [hasRoom, hlimit]
  obtain ⟨h, after, hadd, _⟩ := exists_add? hrange' hroom
  simp [arm, hmode, ht, hadd]

end Traps

/-- Every mode that an enabled breakpoint with a range may have a trap for has one. -/
def Handles.Full (hs : Handles) (b : Breakpoint) : Prop :=
  ∀ mode, b.MayArm mode → b.first ≤ b.last → (hs.get mode).isSome = true

/-- A table without a limit takes every trap that a breakpoint may have. -/
theorem Traps.full_armAll (hlimit : ts.limit = none) (b : Breakpoint) :
    (ts.armAll b).1.Full b := by
  rintro mode ⟨henabled, hmode, htrap⟩ hrange
  have harm : ∀ ts : Traps, ts.limit = none → (ts.arm b mode).1.isSome = true := by
    intro ts hlimit
    exact isSome_arm hlimit hmode htrap hrange
  rw [armAll, if_pos henabled]
  cases mode with
  | exec => exact harm ts hlimit
  | write => exact harm _ (by simpa using hlimit)
  | read => exact harm _ (by simpa using hlimit)

namespace Store

variable {s : Store}

/-- The table has no limit, and the handles of every breakpoint are full. -/
structure Supplied (s : Store) (ts : Traps) : Prop where
  unlimited : ts.limit = none
  full : ∀ e ∈ s.entries, e.handles.Full e.breakpoint

/-- Every change of a store keeps it supplied: an entry that is new has been given its handles by a
table without a limit. -/
theorem Supplied.change (hs : s.Supplied ts) {Brings : Breakpoint → Prop} {after : Store × Traps}
    (hchange : Change Brings s ts after) : after.1.Supplied after.2 where
  unlimited := hchange.limit_eq.trans hs.unlimited
  full := by
    intro e he
    rcases hchange.mem_entries he with hold | ⟨⟨table, hlimit, hhandles⟩, _⟩
    · exact hs.full e hold
    · rw [hhandles]
      exact Traps.full_armAll (hlimit.trans hs.unlimited) e.breakpoint

/-- A store and its table, built by operations in order on a store without breakpoints. -/
def built (ts : Traps) (ops : List Operation) : Store × Traps := ops.foldl Operation.apply ({}, ts)

/-- The store accounts for the table, which has refused it nothing but empty ranges. -/
structure InStep (s : Store) (ts : Traps) : Prop where
  accounts : s.Accounts [] ts
  supplied : s.Supplied ts

/-- Every operation keeps a store and its table in step. -/
theorem InStep.apply {s : Store × Traps} (hs : s.1.InStep s.2) (op : Operation) :
    (op.apply s).1.InStep (op.apply s).2 where
  accounts := hs.accounts.change (change_apply s.1 s.2 op)
  supplied := hs.supplied.change (change_apply s.1 s.2 op)

/-- Any operations keep a store and its table in step, from a table with no trap and no limit on. -/
theorem inStep_built (hfree : ts.entries = []) (hunlimited : ts.limit = none)
    (ops : List Operation) : (built ts ops).1.InStep (built ts ops).2 := by
  have hrun : ∀ (ops : List Operation) (s : Store × Traps), s.1.InStep s.2 →
      (ops.foldl Operation.apply s).1.InStep (ops.foldl Operation.apply s).2 := by
    intro ops
    induction ops with
    | nil =>
      intro s hs
      exact hs
    | cons op ops ih =>
      intro s hs
      exact ih _ (hs.apply op)
  apply hrun
  exact ⟨accounts_of_entries_eq_nil rfl (Traps.holds_nil hfree), hunlimited, by simp⟩

end Store

end Z80Debugger
