import Z80Debugger.Proofs.Core.Execution
import Z80Debugger.Proofs.Traps.Requests

/-!
# Handles are never confused

The tests of a core work on its table while a call goes through hits that it has collected before.
An `Editing` is such work: requests to the table, each of which may depend on the answers before.  A
core whose tests, and whose owner between the calls, work by requests can keep a list of all of them
(`Operation.recorded`), and its table is at any time what the requests so far have made of it.  So
the handles of a core are as little confused as those of a table, which `handles_never_confused`
states for every run of a fresh core.
-/

set_option autoImplicit false

namespace Z80Debugger

open Traps (Request)

variable {α β σ τ : Type}

/-- Work on a table that ends with a value. -/
inductive Editing (α : Type) where
  | done (a : α)
  | ask (r : Request) (next : r.Answer → Editing α)

namespace Editing

/-- The value, and the table afterwards. -/
def run : Editing α → Traps → α × Traps
  | done a, ts => (a, ts)
  | ask r next, ts => (next (ts.ask r).1).run (ts.ask r).2

/-- What is asked on the way. -/
def requests : Editing α → Traps → List Request
  | done _, _ => []
  | ask r next, ts => r :: (next (ts.ask r).1).requests (ts.ask r).2

/-- The same work, which adds what it asks to a list and hands the list on in the end. -/
def recorded (f : α → List Request → β) : Editing α → List Request → Editing β
  | done a, record => done (f a record)
  | ask r next, record => ask r fun answer => (next answer).recorded f (record ++ [r])

/-- A program leaves the table that its requests leave. -/
theorem run_snd (e : Editing α) (ts : Traps) : (e.run ts).2 = ts.askAll (e.requests ts) := by
  induction e generalizing ts with
  | done a => rfl
  | ask r next ih => exact ih _ _

/-- A recorded program runs as before and appends its requests to the record. -/
theorem run_recorded (f : α → List Request → β) (e : Editing α) (record : List Request)
    (ts : Traps) :
    (e.recorded f record).run ts =
      (f (e.run ts).1 (record ++ e.requests ts), (e.run ts).2) := by
  induction e generalizing record ts with
  | done a => simp [recorded, run, requests]
  | ask r next ih =>
    rw [recorded, run, ih, requests, List.append_assoc]
    rfl

end Editing

/-- A test that works on the table by requests. -/
abbrev EditingTest (σ : Type) : Type := Cpu → Handle → UInt32 → σ → Editing (Bool × σ)

namespace EditingTest

/-- The test as a core asks it. -/
def toTest (f : EditingTest σ) : Test σ := fun c h opcode s =>
  let result := (f c h opcode s.2).run s.1
  (result.1.1, result.2, result.1.2)

/-- The test that keeps a list of its requests. -/
def recorded (f : EditingTest σ) : EditingTest (σ × List Request) := fun c h opcode s =>
  (f c h opcode s.1).recorded (fun answer record => (answer.1, answer.2, record)) s.2

/-- A recorded test answers as before and appends its requests to the record. -/
theorem toTest_recorded (f : EditingTest σ) (c : Cpu) (h : Handle) (opcode : UInt32) (ts : Traps)
    (s : σ × List Request) :
    let work := f c h opcode s.1
    f.recorded.toTest c h opcode (ts, s) =
      ((work.run ts).1.1, (work.run ts).2, (work.run ts).1.2, s.2 ++ work.requests ts) := by
  intro work
  simp only [toTest, recorded, Editing.run_recorded]
  rfl

end EditingTest

/-- The first test does as the second, with more of a state than the second looks at. -/
def Test.Refines (fine : Test τ) (coarse : Test σ) (f : τ → σ) : Prop :=
  ∀ c h opcode ts x, coarse c h opcode (ts, f x) =
    ((fine c h opcode (ts, x)).1, (fine c h opcode (ts, x)).2.1, f (fine c h opcode (ts, x)).2.2)

namespace Traps

variable {fine : Test τ} {coarse : Test σ} {f : τ → σ}

/-- A test that refines another one stops at the same handle. -/
theorem firstStop_refines (hrefines : fine.Refines coarse f) (c : Cpu) (opcode : UInt32)
    (hs : List Handle) (ts : Traps) (x : τ) :
    firstStop coarse c opcode hs (ts, f x) =
      ((firstStop fine c opcode hs (ts, x)).1, (firstStop fine c opcode hs (ts, x)).2.1,
        f (firstStop fine c opcode hs (ts, x)).2.2) := by
  induction hs generalizing ts x with
  | nil => rfl
  | cons h hs ih =>
    simp only [firstStop]
    cases ts.find? h with
    | none => exact ih ts x
    | some t =>
      by_cases htested : t.tested = true
      · simp only [if_pos htested, hrefines c h opcode ts x]
        generalize fine c h opcode (ts, x) = answer
        obtain ⟨stops, ts', x'⟩ := answer
        cases stops with
        | true => rfl
        | false => exact ih ts' x'
      · simp only [if_neg htested]

/-- So it does over several events. -/
theorem check_refines (hrefines : fine.Refines coarse f) (c : Cpu) (opcode : UInt32)
    (es : List Event) (ts : Traps) (x : τ) :
    check coarse c opcode es (ts, f x) =
      ((check fine c opcode es (ts, x)).1, (check fine c opcode es (ts, x)).2.1,
        f (check fine c opcode es (ts, x)).2.2) := by
  induction es generalizing ts x with
  | nil => rfl
  | cons e es ih =>
    simp only [check, firstStop_refines hrefines]
    generalize firstStop fine c opcode (ts.hits c e) (ts, x) = result
    obtain ⟨stop?, ts', x'⟩ := result
    cases stop? with
    | none => exact ih ts' x'
    | some h => rfl

end Traps

namespace Core

/-- A call with the first test is the call with the second. -/
theorem execute_refines {fine : Test τ} {coarse : Test σ} {f : τ → σ}
    (hrefines : fine.Refines coarse f) (c : Core) (x : τ) :
    c.execute coarse (f x) =
      ((c.execute fine x).1, (c.execute fine x).2.1, f (c.execute fine x).2.2) := by
  simp only [execute, Traps.check_refines hrefines]
  generalize Traps.check fine c.cpu c.cpu.code.opcode c.eventsBefore (c.traps, x) = first
  obtain ⟨stop?, ts, x'⟩ := first
  cases stop? with
  | some h => rfl
  | none =>
    simp only [Traps.check_refines hrefines]
    generalize Traps.check fine (runInstruction c.cpu).1 c.cpu.stepOpcode
      (runInstruction c.cpu).2 (ts, x') = second
    obtain ⟨stop?, ts', x''⟩ := second
    cases stop? <;> rfl

/-- What happens to a core whose tests, and whose owner, work on the table by requests. -/
inductive Operation (σ : Type) where
  /-- The owner works on the table between calls. -/
  | edit (work : σ → Editing σ)
  | execute (test : EditingTest σ)
  /-- Anything that leaves the table alone: registers, memory, ports, an interrupt. -/
  | adjust (f : Cpu → Cpu)

namespace Operation

def apply (s : Core × σ) : Operation σ → Core × σ
  | edit work =>
    ({ s.1 with traps := ((work s.2).run s.1.traps).2 }, ((work s.2).run s.1.traps).1)
  | execute test => (s.1.execute test.toTest s.2).2
  | adjust f => ({ s.1 with cpu := f s.1.cpu }, s.2)

/-- The operation that keeps a list of the requests made in it. -/
def recorded : Operation σ → Operation (σ × List Request)
  | edit work => edit fun s => (work s.1).recorded Prod.mk s.2
  | execute test => execute test.recorded
  | adjust f => adjust f

end Operation

/-- The core and the state of owner and tests after operations in order. -/
def afterAll (s : Core × σ) (ops : List (Operation σ)) : Core × σ := ops.foldl Operation.apply s

/-- The table is what the requests in the record make of an empty one. -/
def Recorded (s : Core × (σ × List Request)) : Prop := s.1.traps = Traps.askAll {} s.2.2

/-- Every operation extends the record by what it asks of the table. -/
theorem Recorded.apply {s : Core × (σ × List Request)} (hs : Recorded s) (op : Operation σ) :
    Recorded (op.recorded.apply s) := by
  have hwork (ts : Traps) (record requests : List Request) (hts : ts = Traps.askAll {} record) :
      ts.askAll requests = Traps.askAll {} (record ++ requests) := by
    rw [Traps.askAll_append, hts]
  cases op with
  | edit work =>
    simp only [Recorded, Operation.recorded, Operation.apply, Editing.run_recorded, Editing.run_snd]
    exact hwork _ _ _ hs
  | execute test =>
    have hpreserves : test.recorded.toTest.Preserves fun s => s.1 = Traps.askAll {} s.2.2 := by
      intro c h opcode ⟨ts, s⟩ _ _ _ hts
      rw [EditingTest.toTest_recorded]
      simp only [Editing.run_snd]
      exact hwork _ _ _ hts
    exact execute_preserves hpreserves s.1 s.2 hs
  | adjust f => exact hs

/-- The record does not change what an operation does. -/
theorem apply_recorded (op : Operation σ) (s : Core × (σ × List Request)) :
    ((op.recorded.apply s).1, (op.recorded.apply s).2.1) = op.apply (s.1, s.2.1) := by
  cases op with
  | edit work => simp only [Operation.recorded, Operation.apply, Editing.run_recorded]
  | execute test =>
    have hrefines : test.recorded.toTest.Refines test.toTest Prod.fst := by
      intro c h opcode ts x
      rw [EditingTest.toTest_recorded]
      rfl
    simp only [Operation.recorded, Operation.apply]
    rw [execute_refines hrefines]
  | adjust f => rfl

/-- Recording changes nothing but the record, which any operations keep. -/
theorem afterAll_recorded (ops : List (Operation σ)) (s : Core × (σ × List Request))
    (hs : Recorded s) :
    let last := afterAll s (ops.map Operation.recorded)
    (last.1, last.2.1) = afterAll (s.1, s.2.1) ops ∧ Recorded last := by
  induction ops generalizing s with
  | nil => exact ⟨rfl, hs⟩
  | cons op ops ih =>
    have hrest := ih (op.recorded.apply s) (hs.apply op)
    rw [apply_recorded] at hrest
    exact hrest

/-- Take a fresh core and any operations.  Its owner works on the table between the calls, and so do
the tests within a call, while hits that were collected before are gone through.  All of them
register, remove and limit as they like, as the answers tell them.  To keep a record of their
requests changes nothing, and the table is what these requests make of an empty one.  The handles
given out ascend, so none is given out twice, and after any number of the requests, within a call or
between calls, no handle in the table is confused with another.  The next handle has 32 bits as long
as fewer than 2 ^ 32 - 1 registrations were taken. -/
theorem handles_never_confused {c : Core} (hfresh : c.traps = {}) (state : σ)
    (ops : List (Operation σ)) :
    let s := afterAll (c, state, []) (ops.map Operation.recorded)
    let requests := s.2.2
    let registered := Traps.taken {} requests
    (s.1, s.2.1) = afterAll (c, state) ops ∧ s.1.traps = Traps.askAll {} requests ∧
      (registered.map (·.1)).Pairwise (· < ·) ∧
      (∀ entry ∈ registered, 0 < entry.1 ∧ entry.1 < s.1.traps.nextHandle) ∧
      (registered.length < 0xFFFFFFFF → s.1.traps.nextHandle < 0x100000000) ∧
      ∀ n, (Traps.askAll {} (requests.take n)).Unconfused (Traps.taken {} (requests.take n)) := by
  intro s requests registered
  obtain ⟨hsame, htable⟩ : (s.1, s.2.1) = afterAll (c, state) ops ∧ Recorded s :=
    afterAll_recorded ops (c, state, []) hfresh
  have hissued (part : List Request) : (Traps.askAll {} part).Issued (Traps.taken {} part) :=
    Traps.issued_nil.askAll part
  have hall : s.1.traps.Issued registered := by
    rw [htable]
    exact hissued requests
  refine ⟨hsame, htable, hall.increasing, ?_, ?_, fun n => (hissued _).unconfused⟩
  · intro entry hentry
    exact ⟨hall.positive entry hentry, hall.older entry hentry⟩
  · intro hfew
    have hnext : registered.length + 1 < 0x100000000 := by omega
    rwa [hall.next]

/-- A tested trap on running the instruction at 8000. -/
def testedTrap : Trap :=
  { kind := .memoryExec, first := 0x8000, last := 0x8000, mask := 0xFFFF, tested := true }

/-- A test that removes the trap that was hit and the one behind it, registers one anew and goes
on.  It notes what it is told of the removals. -/
def renewing : EditingTest (List Bool) := fun _ h _ told =>
  .ask (.remove h) fun first => .ask (.remove (h + 1)) fun second =>
    .ask (.add testedTrap) fun _ => .done (false, told ++ [first, second])

/-- Two traps are registered, a call hits both, and one of them is removed once more. -/
def renewal : List (Operation (List Bool)) :=
  [.edit fun told => .ask (.add testedTrap) fun _ => .ask (.add testedTrap) fun _ => .done told,
    .execute renewing,
    .edit fun told => .ask (.remove 1) fun found => .done (told ++ [found])]

/-- The second hit is passed over, since the test of the first has removed its trap, and the trap
that the test registers gets a new handle. -/
theorem handles_never_confused_renewed :
    let c : Core := { cpu := { Cpu.standard with registers := { pc := 0x8000 } } }
    let s := afterAll (c, ([] : List Bool), []) (renewal.map Operation.recorded)
    let registered := Traps.taken {} s.2.2
    registered.map (·.1) = [1, 2, 3] ∧ s.1.traps.handles = [3] ∧ s.2.1 = [true, true, false] ∧
      s.1.traps.nextHandle < 0x100000000 ∧ s.1.traps.Unconfused registered := by
  intro c s registered
  obtain ⟨-, htable, -, -, hbits, hunconfused⟩ :=
    handles_never_confused (c := c) rfl ([] : List Bool) renewal
  have hhandles : registered.map (·.1) = [1, 2, 3] := by
    decide +kernel
  have hfew : registered.length < 0xFFFFFFFF := by
    have hthree : registered.length = 3 := by simpa using congrArg List.length hhandles
    omega
  refine ⟨hhandles, by decide +kernel, by decide +kernel, hbits hfew, ?_⟩
  rw [htable]
  have hlast := hunconfused s.2.2.length
  rwa [List.take_length] at hlast

end Core

end Z80Debugger
