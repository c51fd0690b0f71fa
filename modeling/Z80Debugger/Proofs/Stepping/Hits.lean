import Z80Debugger.Proofs.Core.Execution
import Z80Debugger.Proofs.Traps.Registered
import Z80Debugger.Stepping

/-!
# What hits a trampoline

While a call hits no trap but a session's trampoline, it asks the test at one place only.  A
trampoline that every opcode hits is asked about once the instruction has run, and one that waits
for an address is asked about when the instruction there is about to run.
-/

set_option autoImplicit false

namespace Z80Debugger

variable {σ : Type} {test : Test σ}

namespace Traps

variable {ts : Traps} {h : Handle} {t : Trap} {others : List (Handle × Trap)}

/-- In a table where an event hits no trap but one, the hits are those of that trap. -/
theorem hits_of_perm (hperm : ts.entries.Perm ((h, t) :: others)) {c : Cpu} {e : Event}
    (hothers : ∀ entry ∈ others, entry.2.isHitBy c e = false) :
    ts.hits c e = if t.isHitBy c e then [h] else [] := by
  have hfilter := hperm.filter fun entry => entry.2.isHitBy c e
  have hnone : others.filter (fun entry => entry.2.isHitBy c e) = [] := by
    simpa [List.filter_eq_nil_iff] using hothers
  by_cases hhit : t.isHitBy c e = true
  · rw [List.filter_cons_of_pos (by exact hhit), hnone, List.perm_singleton] at hfilter
    simp [hits, hfilter, hhit]
  · rw [List.filter_cons_of_neg (by exact hhit), hnone, List.perm_nil] at hfilter
    simp [hits, hfilter, hhit]

/-- The hits of an event in a table of one trap. -/
theorem hits_of_singleton (hts : ts.entries = [(h, t)]) (c : Cpu) (e : Event) :
    ts.hits c e = if t.isHitBy c e then [h] else [] :=
  hits_of_perm (List.Perm.of_eq hts) (List.forall_mem_nil _)

end Traps

namespace Trap

/-- The trap is hit by every opcode and by nothing else. -/
theorem isHitBy_everyOpcode (c : Cpu) (e : Event) :
    everyOpcode.isHitBy c e = (e.kind == .opcode) := by
  have hcovers (value : UInt32) : everyOpcode.covers value = true := by
    simp [covers, everyOpcode]
  rw [isHitBy, hcovers, Bool.and_true]
  exact Bool.beq_comm

/-- The trap is hit by the fetch at its address and by nothing else. -/
theorem isHitBy_reaching (target : UInt16) (c : Cpu) (e : Event) :
    (reaching target).isHitBy c e = true ↔ e = .fetch target := by
  have hmask (pc : UInt16) : pc.toUInt32 &&& 0xFFFF = pc.toUInt32 := by
    apply UInt32.toNat_inj.mp
    have hpc := pc.toNat_lt
    rw [UInt32.toNat_and, UInt16.toNat_toUInt32]
    show pc.toNat &&& (2 ^ 16 - 1) = pc.toNat
    rw [Nat.and_two_pow_sub_one_eq_mod, Nat.mod_eq_of_lt hpc]
  cases e with
  | fetch pc =>
    show ((reaching target).kind == .memoryExec && (reaching target).covers pc.toUInt32) = true ↔ _
    rw [covers]
    simp only [reaching, hmask, beq_self_eq_true, Bool.true_and, Bool.and_eq_true,
      decide_eq_true_eq, Event.fetch.injEq]
    constructor
    · rintro ⟨hle, hge⟩
      exact UInt16.toUInt32_inj.mp (UInt32.le_antisymm hge hle)
    · rintro rfl
      exact ⟨UInt32.le_refl _, UInt32.le_refl _⟩
  | access a => cases a <;> simp [isHitBy, reaching, Event.kind]
  | ran opcode => simp [isHitBy, reaching, Event.kind]

end Trap

namespace Core

/-- The traps are hit by nothing that happens in the next call. -/
def Spares (others : List (Handle × Trap)) (c : Core) : Prop :=
  ∀ entry ∈ others, (∀ e ∈ c.eventsBefore, entry.2.isHitBy c.cpu e = false) ∧
    ∀ e ∈ (runInstruction c.cpu).2, entry.2.isHitBy (runInstruction c.cpu).1 e = false

instance (others : List (Handle × Trap)) (c : Core) : Decidable (c.Spares others) :=
  inferInstanceAs (Decidable (∀ entry ∈ others, _))

/-- What a call comes to if the test of one trap, asked once the instruction has run, decides it. -/
def answered (c : Core) (h : Handle) : Bool × Traps × σ → Outcome × Core × σ
  | (true, traps, state) =>
    (.stopped h,
      { cpu := (runInstruction c.cpu).1.serveInterrupt
        traps
        resumeAt := some (runInstruction c.cpu).1.serveInterrupt.registers.pc },
      state)
  | (false, traps, state) =>
    (.continued, { cpu := (runInstruction c.cpu).1.serveInterrupt, traps }, state)

/-- A core where a call hits no trap but one, and that one is hit by every opcode, runs the
instruction and asks the test then. -/
theorem execute_of_spares {c : Core} {state : σ} {h : Handle} {others : List (Handle × Trap)}
    (hperm : c.traps.entries.Perm ((h, .everyOpcode) :: others))
    (hfind : c.traps.find? h = some .everyOpcode) (hspares : c.Spares others) :
    c.execute test state =
      answered c h (test (runInstruction c.cpu).1 h c.cpu.stepOpcode (c.traps, state)) := by
  have hhitsBefore : ∀ e ∈ c.eventsBefore,
      c.traps.hits c.cpu e = if e.kind == .opcode then [h] else [] := by
    intro e he
    rw [Traps.hits_of_perm hperm fun entry hentry => (hspares entry hentry).1 e he,
      Trap.isHitBy_everyOpcode]
  have hhitsAfter : ∀ e ∈ (runInstruction c.cpu).2,
      c.traps.hits (runInstruction c.cpu).1 e = if e.kind == .opcode then [h] else [] := by
    intro e he
    rw [Traps.hits_of_perm hperm fun entry hentry => (hspares entry hentry).2 e he,
      Trap.isHitBy_everyOpcode]
  have hbefore : Traps.check test c.cpu c.cpu.code.opcode c.eventsBefore (c.traps, state) =
      (none, c.traps, state) := by
    apply Traps.check_of_no_hits
    intro e he
    have hfetch : e = .fetch c.cpu.registers.pc := by
      rw [eventsBefore] at he
      split at he
      · cases he
      · exact List.mem_singleton.mp he
    rw [hhitsBefore e he, hfetch]
    rfl
  have haccesses : ∀ e ∈ c.cpu.step.accesses.map Event.access,
      c.traps.hits (runInstruction c.cpu).1 e = [] := by
    intro e he
    have hmem : e ∈ (runInstruction c.cpu).2 := List.mem_append_left _ he
    obtain ⟨a, _, rfl⟩ := List.mem_map.mp he
    rw [hhitsAfter _ hmem]
    cases a <;> rfl
  have hafter : Traps.check test (runInstruction c.cpu).1 c.cpu.stepOpcode
      (runInstruction c.cpu).2 (c.traps, state) =
      Traps.check test (runInstruction c.cpu).1 c.cpu.stepOpcode [.ran c.cpu.stepOpcode]
        (c.traps, state) :=
    Traps.check_append_of_no_hits test _ _ haccesses _
  have hran : c.traps.hits (runInstruction c.cpu).1 (.ran c.cpu.stepOpcode) = [h] := by
    rw [hhitsAfter _ (List.mem_append_right _ List.mem_cons_self)]
    rfl
  obtain ⟨⟨stops, after⟩, hanswer⟩ :
      ∃ answer, test (runInstruction c.cpu).1 h c.cpu.stepOpcode (c.traps, state) = answer :=
    ⟨_, rfl⟩
  have hcheck : Traps.check test (runInstruction c.cpu).1 c.cpu.stepOpcode
      (runInstruction c.cpu).2 (c.traps, state) = (if stops then some h else none, after) := by
    rw [hafter, Traps.check, hran, Traps.firstStop, hfind]
    simp only [Trap.everyOpcode, if_true, hanswer]
    cases stops <;> rfl
  rw [hanswer]
  cases stops with
  | false => exact execute_of_continued hbefore hcheck
  | true => simp only [execute, hbefore, hcheck, if_true, answered]

/-- A core whose only trap is hit by every opcode runs the instruction and asks the test then. -/
theorem execute_of_everyOpcode {c : Core} {state : σ} {h : Handle}
    (hregistered : c.traps.entries = [(h, .everyOpcode)]) :
    c.execute test state =
      answered c h (test (runInstruction c.cpu).1 h c.cpu.stepOpcode (c.traps, state)) := by
  have hfind : c.traps.find? h = some .everyOpcode := by
    simp [Traps.find?, hregistered]
  exact execute_of_spares (List.Perm.of_eq hregistered) hfind (List.forall_mem_nil _)

end Core

namespace Stepper

/-- A session has the kind with which it is started. -/
theorem kind_of_start_eq_some {s : Stepper} {ts after : Traps} {kind : StepKind} {session : Session}
    (hstart : s.start ts kind = (some session, after)) : session.kind = kind := by
  simp only [start] at hstart
  cases hadd : (s.cancel ts).add? .everyOpcode with
  | none =>
    rw [hadd] at hstart
    cases hstart
  | some pair =>
    rw [hadd] at hstart
    cases hstart
    rfl

/-- A session that starts where nothing else is registered has its trampoline as the only trap, and
room to move it. -/
theorem start_eq_some {s : Stepper} {ts after : Traps} {kind : StepKind} {session : Session}
    (halone : (s.cancel ts).entries = []) (hstart : s.start ts kind = (some session, after)) :
    session.kind = kind ∧ after.entries = [(session.trampoline, .everyOpcode)] ∧
      (after.erase session.trampoline).hasRoom = true := by
  refine ⟨kind_of_start_eq_some hstart, ?_⟩
  simp only [start] at hstart
  cases hadd : (s.cancel ts).add? .everyOpcode with
  | none =>
    rw [hadd] at hstart
    cases hstart
  | some pair =>
    obtain ⟨trampoline, traps⟩ := pair
    rw [hadd] at hstart
    cases hstart
    obtain ⟨_, hroom, rfl, rfl⟩ := Traps.add?_eq_some_iff.mp hadd
    refine ⟨?_, ?_⟩
    · simp [halone]
    · simpa [Traps.hasRoom, Traps.size, halone] using hroom

/-- A core that is about to run `code` at 9000, with the stack pointer at `place`. -/
def routineCore (place : UInt16) (code : List UInt8) : Core where
  cpu := { Cpu.standard.load 0x9000 code with registers := { pc := 0x9000, sp := place } }

/-- The table of traps at the beginning of a step where nothing else is registered. -/
def onlyTrampoline : Traps := { entries := [(1, .everyOpcode)], nextHandle := 2 }

end Stepper

end Z80Debugger
