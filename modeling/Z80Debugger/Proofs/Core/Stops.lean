import Z80Debugger.Proofs.Core.Transparency
import Z80Debugger.Proofs.Traps.Registered
import Z80Debugger.Stepping

/-!
# Stopping before an instruction

A call either stops before the instruction, as the check of its fetch says, and leaves the processor
as it was, or it runs the instruction and counts it.  If no trap in the table is tested, the first
one that the fetch hits stops the call.  If tests register traps and remove none but the one that
they are asked about, every untested trap that the fetch hits is reached in the end, so one of the
hits stops the call.
-/

set_option autoImplicit false

namespace Z80Debugger

variable {σ : Type} {test : Test σ} {ts after : Traps} {h k : Handle} {t : Trap}

namespace Traps

/-- In a table in order, a handle leads to the entry that has it. -/
theorem Ordered.find?_eq_some_iff (hts : ts.Ordered) : ts.find? h = some t ↔ (h, t) ∈ ts.entries :=
  Holds.find?_eq_some_iff { hts with perm := List.Perm.refl _ }

/-- An event hits a handle exactly if the handle's trap is hit. -/
theorem mem_hits_iff {c : Cpu} {e : Event} :
    h ∈ ts.hits c e ↔ ∃ t, (h, t) ∈ ts.entries ∧ t.isHitBy c e = true := by
  simp only [hits, List.mem_map, List.mem_filter, Prod.exists, exists_and_right, exists_eq_right]

/-- Without tested traps the first hit stops. -/
theorem firstStop_of_untested (hts : ts.Ordered)
    (huntested : ∀ entry ∈ ts.entries, entry.2.tested = false) (test : Test σ) (c : Cpu)
    (opcode : UInt32) (e : Event) (state : σ) :
    firstStop test c opcode (ts.hits c e) (ts, state) = ((ts.hits c e).head?, ts, state) := by
  cases hhits : ts.hits c e with
  | nil => rfl
  | cons h hs =>
    have hmem : h ∈ ts.hits c e := by
      rw [hhits]
      exact List.mem_cons_self
    obtain ⟨t, ht, _⟩ := mem_hits_iff.mp hmem
    have hfind : ts.find? h = some t := hts.find?_eq_some_iff.mpr ht
    have hplain : t.tested = false := huntested (h, t) ht
    simp [firstStop, hfind, hplain]

/-- What comes from a table by registrations and by removals of one handle. -/
inductive Edits (h : Handle) (ts : Traps) : Traps → Prop where
  | refl : Edits h ts ts
  | add {after last : Traps} {t : Trap} {k : Handle} (hedits : Edits h ts after)
      (hadd : after.add? t = some (k, last)) : Edits h ts last
  | erase {after : Traps} (hedits : Edits h ts after) : Edits h ts (after.erase h)

/-- Adding and removing traps keeps a table in order. -/
theorem Edits.ordered (hedits : Edits h ts after) (hts : ts.Ordered) : after.Ordered := by
  induction hedits with
  | refl => exact hts
  | add _ hadd ih => exact ih.add? hadd
  | erase _ ih => exact ih.erase h

/-- Adding and removing traps keeps the limit. -/
theorem Edits.limit_eq (hedits : Edits h ts after) : after.limit = ts.limit := by
  induction hedits with
  | refl => rfl
  | add _ hadd ih =>
    obtain ⟨_, _, _, rfl⟩ := add?_eq_some_iff.mp hadd
    exact ih
  | erase _ ih => exact ih

/-- Other handles go on leading to their traps. -/
theorem Edits.find?_eq_some (hedits : Edits h ts after) (hother : k ≠ h)
    (hfind : ts.find? k = some t) : after.find? k = some t := by
  induction hedits with
  | refl => exact hfind
  | add _ hadd ih =>
    obtain ⟨_, _, rfl, rfl⟩ := add?_eq_some_iff.mp hadd
    obtain ⟨entry, hentry, rfl⟩ := Option.map_eq_some_iff.mp ih
    simp [find?, List.find?_append, hentry]
  | erase _ ih =>
    have hkept : ∀ entry : Handle × Trap,
        decide ((entry.1 != h) = true ∧ (entry.1 == k) = true) = (entry.1 == k) := by
      intro entry
      by_cases hown : entry.1 = k <;> simp [hown, hother]
    rw [find?, entries_erase, List.find?_filter, funext hkept]
    exact ih

end Traps

/-- A test that registers traps, but removes none other than the one that it is asked about. -/
def Test.SparesOthers (test : Test σ) : Prop :=
  ∀ c h opcode s, Traps.Edits h s.1 (test c h opcode s).2.1

/-- The test of step sessions leaves the table alone, or removes the trap that it is asked about, or
moves it to an address. -/
theorem Stepper.traps_test (c : Cpu) (h : Handle) (opcode : UInt32) (ts : Traps) (s : Stepper) :
    let after := (Stepper.test c h opcode (ts, s)).2.1
    after = ts ∨ after = ts.erase h ∨
      ∃ k target, (ts.erase h).add? (.reaching target) = some (k, after) := by
  cases s with
  | none => exact Or.inl rfl
  | some session =>
    simp only [Stepper.test]
    by_cases hown : session.trampoline = h
    · rw [if_pos hown]
      obtain ⟨kind, trampoline⟩ := session
      obtain rfl : trampoline = h := hown
      match kind with
      | .into =>
        simp only [evaluate]
        cases intoIsDone c opcode with
        | true => exact Or.inr (Or.inl rfl)
        | false => exact Or.inl rfl
      | .finish threshold =>
        simp only [evaluate]
        cases finishIsDone c threshold opcode with
        | true => exact Or.inr (Or.inl rfl)
        | false => exact Or.inl rfl
      | .armed after target => exact Or.inr (Or.inl rfl)
      | .over after =>
        simp only [evaluate, arm]
        cases hadd : (ts.erase trampoline).add? (.reaching (overTarget c after opcode)) with
        | none => exact Or.inr (Or.inl (Traps.erase_erase ts trampoline))
        | some pair => exact Or.inr (Or.inr ⟨_, _, hadd⟩)
    · rw [if_neg hown]
      exact Or.inl rfl

/-- The test of step sessions removes no trap but its trampoline. -/
theorem Stepper.sparesOthers_test : Test.SparesOthers Stepper.test := by
  intro c h opcode ⟨ts, s⟩
  rcases Stepper.traps_test c h opcode ts s with hsame | herased | ⟨k, target, hmoved⟩
  · rw [hsame]
    exact .refl
  · rw [herased]
    exact (Traps.Edits.refl).erase
  · exact (Traps.Edits.refl).erase.add hmoved

namespace Traps

/-- An untested trap stays in the table whatever is tested. -/
theorem preserves_untested (hspares : Test.SparesOthers test) (huntested : t.tested = false) :
    test.Preserves fun s => s.1.find? k = some t := by
  intro c h opcode s u hfind htested hkept
  have hother : k ≠ h := by
    rintro rfl
    rw [hfind] at hkept
    cases hkept
    rw [huntested] at htested
    cases htested
  exact (hspares c h opcode s).find?_eq_some hother hkept

/-- An untested trap among the hits is reached, so that the hits stop. -/
theorem isSome_firstStop (hspares : Test.SparesOthers test) (huntested : t.tested = false)
    (c : Cpu) (opcode : UInt32) (hs : List Handle) (s : Traps × σ)
    (hfind : s.1.find? k = some t) (hk : k ∈ hs) :
    (firstStop test c opcode hs s).1.isSome = true := by
  -- The tests of the hits before it may go on, but they leave the trap in the table.
  induction hs generalizing s with
  | nil => cases hk
  | cons h hs ih =>
    rw [firstStop]
    by_cases hown : k = h
    · subst hown
      simp [hfind, huntested]
    · have hlater : k ∈ hs := (List.mem_cons.mp hk).resolve_left hown
      split
      · exact ih s hfind hlater
      · next u hu =>
        by_cases htested : u.tested = true
        · rw [if_pos htested]
          have hkept := preserves_untested hspares huntested c h opcode s u hu htested hfind
          generalize test c h opcode s = answer at hkept
          obtain ⟨stops, after⟩ := answer
          cases stops with
          | true => rfl
          | false => exact ih after hkept hlater
        · rw [if_neg htested]
          rfl

end Traps

namespace Core

/-- What the check before the instruction says. -/
def stopBefore (test : Test σ) (c : Core) (state : σ) : Option Handle :=
  (Traps.check test c.cpu c.cpu.code.opcode c.eventsBefore (c.traps, state)).1

/-- A call runs the instruction exactly if the check before it stops nothing. -/
theorem cpu_execute_eq_ran_iff (test : Test σ) (c : Core) (state : σ) :
    (c.execute test state).2.1.cpu = ran c.cpu ↔ stopBefore test c state = none := by
  rcases execute_cases test c state with ⟨h, s, hfirst, hresult⟩ |
    ⟨s, stop?, after, hfirst, _, hresult⟩
  · rw [stopBefore, hfirst, hresult]
    constructor
    · intro hran
      exact absurd hran.symm (ran_ne c.cpu)
    · intro hnone
      cases hnone
  · rw [stopBefore, hfirst, hresult]
    exact ⟨fun _ => rfl, fun _ => rfl⟩

/-- A call stops and leaves the processor as it was exactly if the check before the instruction
stops it. -/
theorem stopped_before_iff (test : Test σ) (c : Core) (state : σ) (h : Handle) :
    ((c.execute test state).1 = .stopped h ∧ (c.execute test state).2.1.cpu = c.cpu) ↔
      stopBefore test c state = some h := by
  rcases execute_cases test c state with ⟨k, s, hfirst, hresult⟩ |
    ⟨s, stop?, after, hfirst, _, hresult⟩
  · rw [stopBefore, hfirst, hresult]
    constructor
    · rintro ⟨hstopped, _⟩
      cases hstopped
      rfl
    · intro hsome
      cases hsome
      exact ⟨rfl, rfl⟩
  · rw [stopBefore, hfirst, hresult]
    constructor
    · rintro ⟨_, hsame⟩
      exact absurd hsame (ran_ne c.cpu)
    · intro hsome
      cases hsome

/-- If an instruction is about to be fetched, the check before it goes through what the fetch
hits. -/
theorem stopBefore_of_fetch (test : Test σ) {c : Core} (state : σ)
    (hrunning : c.cpu.registers.halted = false) (hresumes : c.resumes = false) :
    stopBefore test c state =
      (Traps.firstStop test c.cpu c.cpu.code.opcode
        (c.traps.hits c.cpu (.fetch c.cpu.registers.pc)) (c.traps, state)).1 := by
  rw [stopBefore, eventsBefore, hrunning, hresumes]
  simp only [Bool.or_self, Bool.false_eq_true, if_false, Traps.check]
  generalize Traps.firstStop test c.cpu c.cpu.code.opcode
    (c.traps.hits c.cpu (.fetch c.cpu.registers.pc)) (c.traps, state) = result
  obtain ⟨stop?, s⟩ := result
  cases stop? <;> rfl

end Core

end Z80Debugger
