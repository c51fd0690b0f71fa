import Z80Debugger.Trap

/-!
# A core that can be stopped

A core is a processor with a table of traps.  `Core.execute` runs one instruction between two rounds
of trap checks: before it for the fetch, after it for its accesses in their order and then for its
opcode.  The first trap that stops ends the round.  After a stop, the fetch at the address where the
core stopped is let through once, so that execution can go on from a breakpoint.

A test may change the table of traps, but nothing else of the core.
-/

set_option autoImplicit false

namespace Z80Debugger

/-- A processor core. -/
structure Core where
  cpu : Cpu
  traps : Traps := {}
  /-- The address at which the last call stopped, if it did. -/
  resumeAt : Option UInt16 := none

/-- What came of one call of `execute`. -/
inductive Outcome where
  | continued
  | stopped (h : Handle)
  deriving DecidableEq, Repr

/-- A test of a tested trap: it sees the processor, the handle that was hit and the opcode value,
and decides whether to stop.  It may change the table of traps and a state of its own. -/
abbrev Test (σ : Type) : Type := Cpu → Handle → UInt32 → Traps × σ → Bool × Traps × σ

namespace Traps

variable {σ : Type}

/-- Goes through the hits in order until one stops.  A hit whose trap an earlier test has removed is
passed over. -/
def firstStop (test : Test σ) (c : Cpu) (opcode : UInt32) :
    List Handle → Traps × σ → Option Handle × Traps × σ
  | [], s => (none, s)
  | h :: hs, s => match s.1.find? h with
    | none => firstStop test c opcode hs s
    | some t =>
      if t.tested then
        match test c h opcode s with
        | (true, s) => (some h, s)
        | (false, s) => firstStop test c opcode hs s
      else (some h, s)

/-- Checks the traps for each event in turn until one stops. -/
def check (test : Test σ) (c : Cpu) (opcode : UInt32) :
    List Event → Traps × σ → Option Handle × Traps × σ
  | [], s => (none, s)
  | e :: es, s => match firstStop test c opcode (s.1.hits c e) s with
    | (some h, s) => (some h, s)
    | (none, s) => check test c opcode es s

/-- Events that hit nothing are passed over. -/
theorem check_append_of_no_hits (test : Test σ) (c : Cpu) (opcode : UInt32) {es : List Event}
    {s : Traps × σ} (h : ∀ e ∈ es, s.1.hits c e = []) (rest : List Event) :
    check test c opcode (es ++ rest) s = check test c opcode rest s := by
  induction es with
  | nil => rfl
  | cons e es ih =>
    have he : s.1.hits c e = [] := h e (by simp)
    have hes := ih fun d hd => h d (by simp [hd])
    rw [List.cons_append, check, he, firstStop]
    exact hes

/-- Events that hit nothing change nothing. -/
theorem check_of_no_hits (test : Test σ) (c : Cpu) (opcode : UInt32) {es : List Event}
    {s : Traps × σ} (h : ∀ e ∈ es, s.1.hits c e = []) : check test c opcode es s = (none, s) := by
  have hcheck := check_append_of_no_hits test c opcode h []
  rw [List.append_nil] at hcheck
  exact hcheck

end Traps

namespace Core

/-- A core without traps, as it starts. -/
def ofLayout? (layout : Layout) : Option Core := (Cpu.ofLayout? layout).map fun cpu => { cpu }

/-- Whether the next fetch is let through: the core stopped at this very address. -/
def resumes (c : Core) : Bool := c.resumeAt == some c.cpu.registers.pc

/-- What happens before an instruction runs; nothing is fetched while the processor is halted. -/
def eventsBefore (c : Core) : List Event :=
  if c.cpu.registers.halted || c.resumes then [] else [.fetch c.cpu.registers.pc]

/-- The processor after one instruction, and what happened in it. -/
def runInstruction (c : Cpu) : Cpu × List Event :=
  let activity := c.step
  ({ activity.cpu with instructions := activity.cpu.instructions + 1 },
    activity.accesses.map .access ++ [.ran c.stepOpcode])

/-- Runs one instruction unless a trap stops before it, and reports whether a trap stopped. -/
def execute {σ : Type} (test : Test σ) (c : Core) (state : σ) : Outcome × Core × σ :=
  match Traps.check test c.cpu c.cpu.code.opcode c.eventsBefore (c.traps, state) with
  | (some h, traps, state) =>
    (.stopped h, { c with traps, resumeAt := some c.cpu.registers.pc }, state)
  | (none, traps, state) =>
    let (cpu, events) := runInstruction c.cpu
    match Traps.check test cpu c.cpu.stepOpcode events (traps, state) with
    | (some h, traps, state) =>
      let cpu := cpu.serveInterrupt
      (.stopped h, { cpu, traps, resumeAt := some cpu.registers.pc }, state)
    | (none, traps, state) => (.continued, { cpu := cpu.serveInterrupt, traps }, state)

/-- Without traps every call runs one instruction. -/
theorem execute_of_no_traps {σ : Type} (test : Test σ) (c : Core) (state : σ)
    (h : c.traps.entries = []) :
    c.execute test state =
      (.continued, { cpu := (runInstruction c.cpu).1.serveInterrupt, traps := c.traps },
        state) := by
  have hcheck : ∀ (cpu : Cpu) (opcode : UInt32) (es : List Event),
      Traps.check test cpu opcode es (c.traps, state) = (none, c.traps, state) := by
    intro cpu opcode es
    apply Traps.check_of_no_hits
    simp [Traps.hits, h]
  simp [execute, hcheck]

end Core

end Z80Debugger
