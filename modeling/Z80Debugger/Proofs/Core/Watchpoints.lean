import Z80Debugger.Proofs.Core.Stops
import Z80Debugger.Proofs.Cpu.Control
import Z80Debugger.Proofs.Cpu.Footprint

/-!
# Watchpoints miss nothing

If a call goes on, its checks have gone through every event without a stop.  An untested trap is
never taken out of the table by the test of another one, so none of the events hit it.  Since a step
notes whatever it touches, a byte of memory that changes during such a call lies outside every
untested watchpoint.  Only the service of an interrupt writes unseen: the two bytes that it pushes.
-/

set_option autoImplicit false

namespace Z80Debugger

variable {σ : Type} {test : Test σ} {k : Handle} {t : Trap}

/-- Whether an event hits a trap depends on the banks alone. -/
theorem Trap.isHitBy_congr {c d : Cpu} (hbanks : d.banks = c.banks) (t : Trap) (e : Event) :
    t.isHitBy d e = t.isHitBy c e := by
  have hvalue : e.valueFor d t.physical = e.valueFor c t.physical := by
    unfold Event.valueFor
    split
    · exact Cpu.physical_congr hbanks _
    · rfl
  rw [isHitBy, isHitBy, hvalue]

namespace Traps

/-- Events that are checked without a stop hit no untested trap. -/
theorem forall_isHitBy_eq_false (hspares : Test.SparesOthers test) (huntested : t.tested = false)
    (c : Cpu) (opcode : UInt32) (es : List Event) (s : Traps × σ) (hfind : s.1.find? k = some t)
    (hnone : (check test c opcode es s).1 = none) : ∀ e ∈ es, t.isHitBy c e = false := by
  induction es generalizing s with
  | nil => simp
  | cons e es ih =>
    have hkept := firstStop_preserves (preserves_untested hspares huntested) c opcode (s.1.hits c e)
      s hfind
    have hstops := isSome_firstStop hspares huntested c opcode (s.1.hits c e) s hfind
    rw [check] at hnone
    generalize firstStop test c opcode (s.1.hits c e) s = result at hnone hkept hstops
    obtain ⟨stop?, after⟩ := result
    cases stop? with
    | some h => cases hnone
    | none =>
      have hmissed : t.isHitBy c e = false := by
        by_contra hhit
        rw [Bool.not_eq_false] at hhit
        have hentry := mem_entries_of_find?_eq_some hfind
        cases hstops (mem_hits_iff.mpr ⟨t, hentry, hhit⟩)
      intro d hd
      rcases List.mem_cons.mp hd with rfl | hd
      · exact hmissed
      · exact ih after hkept hnone d hd

end Traps

namespace Cpu

/-- The service of an interrupt puts a byte of the return address here. -/
def InterruptWrites (c : Cpu) (cell : UInt32) : Prop :=
  (c.interruptPending && c.registers.iff1) = true ∧
    (cell = c.physical (c.registers.sp - 2) ∨ cell = c.physical (c.registers.sp - 2 + 1))

/-- A cell that serving an interrupt changes is one that it writes. -/
theorem interruptWrites_of_read_serveInterrupt_ne {c : Cpu} {cell : UInt32}
    (hchanged : c.serveInterrupt.memory.read cell ≠ c.memory.read cell) :
    c.InterruptWrites cell := by
  by_cases hserved : (c.interruptPending && c.registers.iff1) = true
  · have hmemory : c.serveInterrupt.memory = (c.pushed c.registers.pc).memory := by
      rw [serveInterrupt, if_pos hserved]
      exact congrArg (·.cpu.memory) (Work.run_callTo interruptVector _)
    rw [hmemory] at hchanged
    refine ⟨hserved, ?_⟩
    by_contra hother
    rw [not_or] at hother
    exact hchanged (read_pushed_of_ne hother.1 hother.2)
  · rw [serveInterrupt, if_neg hserved] at hchanged
    exact absurd rfl hchanged

end Cpu

namespace Core

/-- A call that goes on has run the instruction, and no event in it hits an untested trap. -/
theorem forall_isHitBy_eq_false_of_continued (hspares : Test.SparesOthers test) {c : Core}
    {state : σ} (hcontinued : (c.execute test state).1 = .continued) :
    (c.execute test state).2.1.cpu = ran c.cpu ∧
      ∀ h t, c.traps.find? h = some t → t.tested = false →
        ∀ e ∈ (runInstruction c.cpu).2, t.isHitBy c.cpu e = false := by
  rcases execute_cases test c state with ⟨h, s, _, hresult⟩ |
    ⟨s, stop?, after, hfirst, hsecond, hresult⟩
  · rw [hresult] at hcontinued
    cases hcontinued
  · cases stop? with
    | some h =>
      rw [hresult] at hcontinued
      cases hcontinued
    | none =>
      refine ⟨by rw [hresult]; rfl, ?_⟩
      intro h t hfind huntested e he
      have hkept := Traps.check_preserves (Traps.preserves_untested hspares huntested) c.cpu
        c.cpu.code.opcode c.eventsBefore (c.traps, state) hfind
      rw [hfirst] at hkept
      have hmissed := Traps.forall_isHitBy_eq_false hspares huntested _ _ _ s hkept
        (congrArg (·.1) hsecond) e he
      rw [← hmissed]
      exact (t.isHitBy_congr c.cpu.sameFrame_step.banks e).symm

/-- Take any core, with any traps, and any test that removes no trap but the one that it is asked
about.  If a call goes on, it has run the instruction; the noted accesses are all that the
instruction touched, apart from reading its own bytes; and none of them hits an untested trap.  So
every cell of memory that the call has changed lies outside all untested physical watchpoints for
writes, unless it holds a byte of the address that the service of an interrupt pushed. -/
theorem watchpoints_miss_nothing (hspares : Test.SparesOthers test) {c : Core} {state : σ}
    (hcontinued : (c.execute test state).1 = .continued) :
    let after := (c.execute test state).2.1.cpu
    after = ran c.cpu ∧ c.cpu.TouchesOnly c.cpu.step.accesses ∧
      (∀ a ∈ c.cpu.step.accesses, ∀ h t, c.traps.find? h = some t → t.tested = false →
        t.isHitBy c.cpu (.access a) = false) ∧
      ∀ cell, after.memory.read cell ≠ c.cpu.memory.read cell →
        (∀ h t, c.traps.find? h = some t → t.tested = false → t.kind = .memoryWrite →
          t.physical = true → t.covers cell = false) ∨
        c.cpu.step.cpu.InterruptWrites cell := by
  intro after
  obtain ⟨hran, hmissed⟩ := forall_isHitBy_eq_false_of_continued hspares hcontinued
  have htouches := c.cpu.touchesOnly_step
  have hquiet : ∀ a ∈ c.cpu.step.accesses, ∀ h t, c.traps.find? h = some t → t.tested = false →
      t.isHitBy c.cpu (.access a) = false := by
    intro a ha h t hfind huntested
    apply hmissed h t hfind huntested
    exact List.mem_append_left _ (List.mem_map_of_mem ha)
  refine ⟨hran, htouches, hquiet, ?_⟩
  intro cell hchanged
  by_cases hstep : c.cpu.step.cpu.memory.read cell = c.cpu.memory.read cell
  · right
    have hserved : (runInstruction c.cpu).1.serveInterrupt.memory.read cell ≠
        (runInstruction c.cpu).1.memory.read cell := by
      intro hsame
      exact hchanged ((congrArg (·.memory.read cell) hran).trans (hsame.trans hstep))
    have hwrites := Cpu.interruptWrites_of_read_serveInterrupt_ne hserved
    exact hwrites
  · left
    intro h t hfind huntested hkind hphysical
    obtain ⟨_, _, address, hmem, hcell⟩ := htouches.writes cell hstep
    have hunhit := hquiet _ hmem h t hfind huntested
    rw [Trap.isHitBy, hkind, hphysical] at hunhit
    rw [← hcell]
    exact hunhit

def watchBehind : Trap where
  kind := .memoryWrite
  physical := true
  first := 0x85001
  last := 0x85001
  mask := 0xFFFFFFFF

/-- A core about to store a byte at 9000, the cell before the watched one. -/
def storingCore : Core where
  cpu := { Cpu.standard.load 0x8000 [0x77] with
    registers := { pc := 0x8000, hl := 0x9000, a := 0x55 } }
  traps :=
    { entries := [(1, watchBehind)]
      nextHandle := 2 }

/-- The store changes the cell at 85000, which the watchpoint does not cover. -/
theorem watchpoints_miss_nothing_storing :
    let after := (storingCore.execute Stepper.test none).2.1.cpu
    after.memory.read 0x85000 = 0x55 ∧
      ∀ h t, storingCore.traps.find? h = some t → t.tested = false → t.kind = .memoryWrite →
        t.physical = true → t.covers 0x85000 = false := by
  intro after
  have hstored : after.memory.read 0x85000 = 0x55 := by
    decide +kernel
  refine ⟨hstored, ?_⟩
  have hcontinued : (storingCore.execute Stepper.test none).1 = .continued := by
    decide +kernel
  obtain ⟨_, _, _, hcells⟩ := watchpoints_miss_nothing Stepper.sparesOthers_test hcontinued
  have hchanged : after.memory.read 0x85000 ≠ storingCore.cpu.memory.read 0x85000 := by
    decide +kernel
  have hno : storingCore.cpu.step.cpu.interruptPending = false := by
    decide +kernel
  rcases hcells 0x85000 hchanged with hmissed | hserved
  · exact hmissed
  · rw [Cpu.InterruptWrites, hno] at hserved
    cases hserved.1

end Core

end Z80Debugger
