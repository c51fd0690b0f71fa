import Z80Debugger.Breakpoint.Store
import Z80Debugger.Proofs.Traps.Registered

/-!
# The traps behind the handles of a breakpoint

The handles that are kept for a breakpoint stand for traps in the table.  `Breakpoint.armed` lists
them with the traps that the breakpoint says they are.  Registering the traps of a breakpoint adds
exactly this list to what the table holds, whichever registrations the table refuses, and removing
the handles takes exactly this list out again.
-/

set_option autoImplicit false

namespace Z80Debugger

namespace Breakpoint

/-- The trap behind a handle that is kept for a mode, if there is one. -/
def slot (b : Breakpoint) (mode : Mode) (h? : Option Handle) : List (Handle × Trap) :=
  match h?, b.trap? mode with
  | some h, some t => [(h, t)]
  | _, _ => []

/-- The traps behind the handles that are kept for a breakpoint. -/
def armed (b : Breakpoint) (hs : Handles) : List (Handle × Trap) :=
  b.slot .exec hs.exec ++ b.slot .write hs.write ++ b.slot .read hs.read

/-- A handle may be kept for a mode of an enabled breakpoint whose space knows the mode. -/
def MayArm (b : Breakpoint) (mode : Mode) : Prop :=
  b.enabled = true ∧ b.modes.contains mode = true ∧ (b.trap? mode).isSome = true

end Breakpoint

/-- The trap watches what the breakpoint asks for in a mode. -/
structure Trap.Watches (t : Trap) (b : Breakpoint) (mode : Mode) : Prop where
  kind : b.space.trapKind? mode = some t.kind
  physical : t.physical = true ↔ b.space = .physical
  first : t.first = b.first
  last : t.last = b.last
  mask : t.mask = b.mask

/-- The trap that a breakpoint asks for in a mode watches its range. -/
theorem Trap.watches_of_trap? {t : Trap} {b : Breakpoint} {mode : Mode}
    (ht : b.trap? mode = some t) : t.Watches b mode := by
  obtain ⟨kind, hkind, rfl⟩ := Option.map_eq_some_iff.mp ht
  exact ⟨hkind, decide_eq_true_iff, rfl, rfl, rfl⟩

namespace Handles

/-- Handles are kept only where the breakpoint may have them. -/
def Fit (hs : Handles) (b : Breakpoint) : Prop :=
  ∀ mode h, hs.get mode = some h → b.MayArm mode

variable {hs : Handles} {b : Breakpoint}

/-- The trap of a mode is listed under the handle of that mode. -/
theorem Fit.map_slot (hfit : hs.Fit b) (mode : Mode) :
    (b.slot mode (hs.get mode)).map (·.1) = (hs.get mode).toList := by
  cases hget : hs.get mode with
  | none => rfl
  | some h =>
    obtain ⟨t, ht⟩ := Option.isSome_iff_exists.mp (hfit mode h hget).2.2
    simp [Breakpoint.slot, ht]

/-- The listed handles are the ones that are kept. -/
theorem Fit.map_armed (hfit : hs.Fit b) : (b.armed hs).map (·.1) = hs.toList := by
  have hexec : (b.slot .exec hs.exec).map (·.1) = hs.exec.toList := hfit.map_slot .exec
  have hwrite : (b.slot .write hs.write).map (·.1) = hs.write.toList := hfit.map_slot .write
  have hread : (b.slot .read hs.read).map (·.1) = hs.read.toList := hfit.map_slot .read
  rw [Breakpoint.armed, List.map_append, List.map_append, hexec, hwrite, hread, toList]
  cases hs.exec <;> cases hs.write <;> cases hs.read <;> rfl

/-- No handle is kept for a mode that may have none. -/
theorem Fit.get_eq_none (hfit : hs.Fit b) {mode : Mode} (hmay : ¬b.MayArm mode) :
    hs.get mode = none :=
  Option.eq_none_iff_forall_ne_some.mpr fun h hget => hmay (hfit mode h hget)

/-- A disabled breakpoint has no handle. -/
theorem Fit.toList_eq_nil (hfit : hs.Fit b) (hdisabled : b.enabled = false) : hs.toList = [] := by
  have hnone : ∀ mode, hs.get mode = none := by
    intro mode
    apply hfit.get_eq_none
    rintro ⟨henabled, _, _⟩
    simp [henabled] at hdisabled
  have hexec : hs.exec = none := hnone .exec
  have hwrite : hs.write = none := hnone .write
  have hread : hs.read = none := hnone .read
  simp [toList, hexec, hwrite, hread]

/-- A handle that is kept for a mode is listed with the trap of the mode. -/
theorem mem_armed {mode : Mode} {h : Handle} {t : Trap} (hget : hs.get mode = some h)
    (ht : b.trap? mode = some t) : (h, t) ∈ b.armed hs := by
  have hslot : (h, t) ∈ b.slot mode (hs.get mode) := by simp [Breakpoint.slot, hget, ht]
  rw [Breakpoint.armed, List.mem_append, List.mem_append]
  cases mode with
  | exec => exact Or.inl (Or.inl hslot)
  | write => exact Or.inl (Or.inr hslot)
  | read => exact Or.inr hslot

/-- What is listed for a breakpoint does not depend on a test. -/
theorem untested_of_mem_armed {entry : Handle × Trap} (hmem : entry ∈ b.armed hs) :
    entry.2.tested = false := by
  have hslot : ∀ mode h?, entry ∈ b.slot mode h? → entry.2.tested = false := by
    intro mode h? hm
    unfold Breakpoint.slot at hm
    split at hm
    · next h t _ ht =>
      obtain ⟨kind, _, rfl⟩ := Option.map_eq_some_iff.mp ht
      rw [List.mem_singleton.mp hm]
    · simp at hm
  rw [Breakpoint.armed, List.mem_append, List.mem_append] at hmem
  rcases hmem with (hm | hm) | hm
  · exact hslot _ _ hm
  · exact hslot _ _ hm
  · exact hslot _ _ hm

end Handles

namespace Traps

variable {ts : Traps} {listed : List (Handle × Trap)}

/-- Removing handles changes nothing in the table but which traps it holds. -/
theorem disarm_eq (ts : Traps) (hs : List Handle) :
    ts.disarm hs = { ts with entries := (ts.disarm hs).entries } := by
  induction hs generalizing ts with
  | nil => rfl
  | cons h hs ih => exact ih (ts.erase h)

/-- Removing the listed handles takes their traps out of the table. -/
theorem Holds.disarm {gone : List (Handle × Trap)} (hts : ts.Holds (gone ++ listed)) :
    (ts.disarm (gone.map (·.1))).Holds listed := by
  induction gone generalizing ts with
  | nil => exact hts
  | cons entry gone ih => exact ih hts.erase

/-- What is registered for a mode joins the list. -/
theorem Holds.arm (hts : ts.Holds listed) (b : Breakpoint) (mode : Mode) :
    (ts.arm b mode).2.Holds (listed ++ b.slot mode (ts.arm b mode).1) ∧
      ((ts.arm b mode).1.isSome = true →
        b.modes.contains mode = true ∧ (b.trap? mode).isSome = true) := by
  unfold Traps.arm
  split
  · next hmode =>
    split
    · next h taken hadd =>
      obtain ⟨t, ht, hadd⟩ := Option.bind_eq_some_iff.mp hadd
      have hslot : b.slot mode (some h) = [(h, t)] := by simp [Breakpoint.slot, ht]
      rw [hslot]
      exact ⟨hts.add? hadd, fun _ => ⟨hmode, by simp [ht]⟩⟩
    · exact ⟨by simpa [Breakpoint.slot] using hts, by simp⟩
  · exact ⟨by simpa [Breakpoint.slot] using hts, by simp⟩

/-- What is registered for a breakpoint joins the list, and its handles fit. -/
theorem Holds.armAll (hts : ts.Holds listed) (b : Breakpoint) :
    (ts.armAll b).2.Holds (listed ++ b.armed (ts.armAll b).1) ∧ (ts.armAll b).1.Fit b := by
  unfold Traps.armAll
  split
  · next henabled =>
    obtain ⟨hexec, pexec⟩ := hts.arm b .exec
    obtain ⟨hwrite, pwrite⟩ := hexec.arm b .write
    obtain ⟨hread, pread⟩ := hwrite.arm b .read
    refine ⟨by simpa [Breakpoint.armed] using hread, ?_⟩
    intro mode h hget
    cases mode with
    | exec => exact ⟨henabled, pexec (Option.isSome_iff_exists.mpr ⟨h, hget⟩)⟩
    | write => exact ⟨henabled, pwrite (Option.isSome_iff_exists.mpr ⟨h, hget⟩)⟩
    | read => exact ⟨henabled, pread (Option.isSome_iff_exists.mpr ⟨h, hget⟩)⟩
  · refine ⟨by simpa [Breakpoint.armed, Breakpoint.slot] using hts, ?_⟩
    intro mode h hget
    cases mode <;> simp [Handles.get] at hget

end Traps

end Z80Debugger
