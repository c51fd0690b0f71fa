import Z80Debugger.Proofs.Core.Execution

/-!
# Calls one after another, with interrupts between them

A run calls `execute` again and again with one test, and before any call an interrupt may be raised.
`Core.atCall` is what the calls begin with.  `Core.Waits` describes a test that waits for a call
that begins in some way: a fact holds, and calls go on, until the first call that begins so.
-/

set_option autoImplicit false

namespace Z80Debugger

variable {σ : Type}

namespace Core

/-- The core, with an interrupt raised or not. -/
def raise (c : Core) (raised : Bool) : Core :=
  if raised then { c with cpu := c.cpu.raiseInterrupt } else c

/-- Raising an interrupt leaves the traps. -/
@[simp] theorem traps_raise (c : Core) (raised : Bool) : (c.raise raised).traps = c.traps := by
  cases raised <;> rfl

/-- Raising an interrupt leaves the stop that is remembered. -/
@[simp] theorem resumeAt_raise (c : Core) (raised : Bool) :
    (c.raise raised).resumeAt = c.resumeAt := by
  cases raised <;> rfl

/-- Raising an interrupt leaves the registers. -/
@[simp] theorem registers_raise (c : Core) (raised : Bool) :
    (c.raise raised).cpu.registers = c.cpu.registers := by
  cases raised <;> rfl

/-- Raising an interrupt leaves the bytes at the program counter. -/
@[simp] theorem code_raise (c : Core) (raised : Bool) :
    (c.raise raised).cpu.code = c.cpu.code := by
  cases raised <;> rfl

/-- What call `n` begins with, where `raised k` says whether an interrupt is raised before call
`k`. -/
def atCall (test : Test σ) (raised : Nat → Bool) (c : Core) (state : σ) : Nat → Core × σ
  | 0 => (c.raise (raised 0), state)
  | n + 1 =>
    let before := atCall test raised c state n
    let after := (before.1.execute test before.2).2
    (after.1.raise (raised (n + 1)), after.2)

/-- What call `n` comes to. -/
def call (test : Test σ) (raised : Nat → Bool) (c : Core) (state : σ) (n : Nat) :
    Outcome × Core × σ :=
  (atCall test raised c state n).1.execute test (atCall test raised c state n).2

/-- A call begins with what the one before has left, and with the interrupt raised for it. -/
theorem atCall_succ (test : Test σ) (raised : Nat → Bool) (c : Core) (state : σ) (n : Nat) :
    atCall test raised c state (n + 1) =
      ((call test raised c state n).2.1.raise (raised (n + 1)), (call test raised c state n).2.2) :=
  rfl

/-- While `P` holds, a call goes on exactly if it does not begin with a core that ends the wait; `P`
holds after a call that goes on, and after an interrupt is raised. -/
structure Waits (test : Test σ) (P : Core → σ → Prop) (ends : Core → Prop) : Prop where
  raise : ∀ {c : Core} {state : σ} (raised : Bool), P c state → P (c.raise raised) state
  goes : ∀ {c : Core} {state : σ}, P c state → ¬ ends c →
    (c.execute test state).1 = .continued ∧
      P (c.execute test state).2.1 (c.execute test state).2.2
  stops : ∀ {c : Core} {state : σ}, P c state → ends c → (c.execute test state).1 ≠ .continued

namespace Waits

variable {test : Test σ} {P : Core → σ → Prop} {ends : Core → Prop} {raised : Nat → Bool} {c : Core}
  {state : σ}

/-- A test that waits for an end goes on exactly if the end has not come. -/
theorem continued_iff (hwaits : Waits test P ends) (hholds : P c state) :
    (c.execute test state).1 = .continued ↔ ¬ ends c := by
  constructor
  · intro hcontinued hends
    exact hwaits.stops hholds hends hcontinued
  · intro hnot
    exact (hwaits.goes hholds hnot).1

/-- The fact lasts from one call to another if no call between them ends the wait. -/
theorem atCall (hwaits : Waits test P ends) {m n : Nat} (hmn : m ≤ n)
    (hstart : P (Core.atCall test raised c state m).1 (Core.atCall test raised c state m).2)
    (hnot : ∀ k, m ≤ k → k < n → ¬ ends (Core.atCall test raised c state k).1) :
    P (Core.atCall test raised c state n).1 (Core.atCall test raised c state n).2 := by
  induction hmn with
  | refl => exact hstart
  | @step n hmn ih =>
    have hbefore := ih fun k hmk hkn => hnot k hmk (Nat.lt_succ_of_lt hkn)
    have hafter := hwaits.goes hbefore (hnot n hmn (Nat.lt_succ_self n))
    rw [atCall_succ]
    exact hwaits.raise _ hafter.2

/-- Calls that go on have not ended the wait. -/
theorem not_ends (hwaits : Waits test P ends) {m n : Nat}
    (hstart : P (Core.atCall test raised c state m).1 (Core.atCall test raised c state m).2)
    (hgo : ∀ k, m ≤ k → k < n → (Core.call test raised c state k).1 = .continued) :
    ∀ k, m ≤ k → k < n → ¬ ends (Core.atCall test raised c state k).1 := by
  intro k
  induction k using Nat.strongRecOn with
  | ind k ih =>
    intro hmk hkn
    have hholds := hwaits.atCall hmk hstart fun j hmj hjk => ih j hjk hmj (Nat.lt_trans hjk hkn)
    exact (hwaits.continued_iff hholds).mp (hgo k hmk hkn)

end Waits

end Core

end Z80Debugger
