import Mathlib.Logic.Function.Iterate
import Z80Debugger.Proofs.Debugger.Rest

/-!
# Commands beside a running program

The console shares its debugger with a worker that runs the program.  The worker runs one
instruction each time it gets hold of the machine, and does nothing while the machine is paused; the
console carries out a command region by region, and keeps the machine to itself only within a
region.  A `Procedure` is a command as the tree of its regions, with the places where it waits for
the program to stop.

`Procedure.Ends` says how a procedure ends, whatever the worker does in between, and `Procedure.run`
carries a procedure out with a worker that runs the program only while it is waited for.
-/

set_option autoImplicit false

namespace Z80Debugger

/-- Work on a debugger that is shared with a running program. -/
inductive Procedure (α : Type) : Type 1 where
  | done (result : α)
  /-- A region, within which nobody else has the machine. -/
  | region {β : Type} (f : Debugger → β × Debugger) (next : β → Procedure α)
  /-- The program is waited for until it is paused, or until that takes too long: the answer tells
  whether it is paused. -/
  | await (next : Bool → Procedure α)

namespace Procedure

variable {α β : Type}

protected def bind : Procedure α → (α → Procedure β) → Procedure β
  | done a, k => k a
  | region f next, k => region f fun b => (next b).bind k
  | await next, k => await fun paused => (next paused).bind k

instance : Monad Procedure where
  pure := done
  bind := Procedure.bind

/-- One region. -/
def act (f : Debugger → β × Debugger) : Procedure β := region f done

/-- A region that only reads. -/
def look (f : Debugger → β) : Procedure β := act fun d => (f d, d)

/-- A region that only changes. -/
def change (f : Debugger → Debugger) : Procedure Unit := act fun d => ((), f d)

/-- A region for what may fail, and then leaves the debugger as it was. -/
def attempt {ε : Type} (f : Debugger → Except ε (β × Debugger)) : Procedure (Except ε β) :=
  act fun d => match f d with
    | .error e => (.error e, d)
    | .ok (b, after) => (.ok b, after)

/-- Waits for the program. -/
def wait : Procedure Bool := await done

/-- However many instructions the worker runs before each region and while the program is waited
for, a procedure that ends has a result and leaves a debugger as `Q` says. -/
def Ends (Q : α → Debugger → Prop) : Procedure α → Debugger → Prop
  | done a, d => ∀ n, Q a (Debugger.work^[n] d)
  | region f next, d => ∀ n,
    (next (f (Debugger.work^[n] d)).1).Ends Q (f (Debugger.work^[n] d)).2
  | await next, d => ∀ n,
    (next (Debugger.work^[n] d).machine.paused).Ends Q (Debugger.work^[n] d)

variable {Q : α → Debugger → Prop} {p : Procedure α} {d : Debugger}

/-- What is said of a procedure holds still when the worker has run an instruction. -/
theorem Ends.work (h : p.Ends Q d) : p.Ends Q d.work := by
  cases p with
  | done | region | await => exact fun n => h (n + 1)

/-- A procedure ends as the second part ends after the first. -/
theorem Ends.bind {Q : β → Debugger → Prop} {k : α → Procedure β}
    (h : p.Ends (fun a after => (k a).Ends Q after) d) : (p >>= k).Ends Q d := by
  induction p generalizing d with
  | done a => exact h 0
  | region f next ih => exact fun n => ih _ (h n)
  | await next ih => exact fun n => ih _ (h n)

/-- What a procedure ends with may be weakened. -/
theorem Ends.mono {P : α → Debugger → Prop} (h : p.Ends P d)
    (hP : ∀ a after, P a after → Q a after) : p.Ends Q d := by
  induction p generalizing d with
  | done a => exact fun n => hP _ _ (h n)
  | region f next ih => exact fun n => ih _ (h n)
  | await next ih => exact fun n => ih _ (h n)

/-- The procedure with a worker that runs only while the program is waited for, and then as long as
it has to, but not without end. -/
def run (patience : Nat) : Procedure α → Debugger → α × Debugger
  | done a, d => (a, d)
  | region f next, d => (next (f d).1).run patience (f d).2
  | await next, d =>
    let after := { d with machine := d.machine.runUntilPaused patience }
    (next after.machine.paused).run patience after

/-- A value runs nothing. -/
@[simp] theorem run_pure (a : α) (patience : Nat) (d : Debugger) :
    (pure a : Procedure α).run patience d = (a, d) := rfl

/-- An action runs at once. -/
@[simp] theorem run_act (f : Debugger → β × Debugger) (patience : Nat) (d : Debugger) :
    (act f).run patience d = f d := rfl

/-- A look leaves the debugger. -/
@[simp] theorem run_look (f : Debugger → β) (patience : Nat) (d : Debugger) :
    (look f).run patience d = (f d, d) := rfl

/-- An attempt that fails leaves the debugger. -/
@[simp] theorem run_attempt {ε : Type} (f : Debugger → Except ε (β × Debugger)) (patience : Nat)
    (d : Debugger) : (attempt f).run patience d = match f d with
      | .error e => (.error e, d)
      | .ok (b, after) => (.ok b, after) := rfl

/-- A change is made at once. -/
@[simp] theorem run_change (f : Debugger → Debugger) (patience : Nat) (d : Debugger) :
    (change f).run patience d = ((), f d) := rfl

/-- Waiting runs the machine until it pauses or patience ends. -/
@[simp] theorem run_wait (patience : Nat) (d : Debugger) :
    wait.run patience d = ((d.machine.runUntilPaused patience).paused,
      { d with machine := d.machine.runUntilPaused patience }) := rfl

/-- One procedure runs after the other. -/
@[simp] theorem run_bind (p : Procedure α) (k : α → Procedure β) (patience : Nat) (d : Debugger) :
    (p >>= k).run patience d = (k (p.run patience d).1).run patience (p.run patience d).2 := by
  induction p generalizing d with
  | done a => rfl
  | region f next ih => exact ih _ _
  | await next ih => exact ih _ _

end Procedure

namespace Debugger

variable {d : Debugger}

/-- The worker keeps all in order, however often it has the machine. -/
theorem InOrder.iterate_work (h : d.InOrder) (n : ℕ) : (Debugger.work^[n] d).InOrder := by
  induction n generalizing d with
  | zero => exact h
  | succ n ih => exact ih h.work

/-- At rest the worker has nothing to do. -/
theorem AtRest.iterate_work (h : d.AtRest) (n : ℕ) : Debugger.work^[n] d = d :=
  Function.iterate_fixed h.work_eq n

end Debugger

namespace Procedure

variable {α β : Type} {p : Procedure α} {k : α → Procedure β} {f : Debugger → α × Debugger}

/-- Begun at rest, the procedure ends at rest. -/
structure Rests (p : Procedure α) : Prop where
  ends : ∀ d : Debugger, d.AtRest → p.Ends (fun _ after => after.AtRest) d

/-- Begun in order, the procedure ends at rest, though the program may be running. -/
structure Settles (p : Procedure α) : Prop where
  ends : ∀ d : Debugger, d.InOrder → p.Ends (fun _ after => after.AtRest) d

/-- A value keeps a debugger at rest. -/
theorem rests_pure (a : α) : (pure a : Procedure α).Rests where
  ends d hd n := by
    rw [hd.iterate_work]
    exact hd

/-- Procedures that keep it at rest do so one after the other. -/
theorem Rests.bind (hp : p.Rests) (hk : ∀ a, (k a).Rests) : (p >>= k).Rests where
  ends d hd := ((hp.ends d hd).mono fun a after hafter => (hk a).ends after hafter).bind

/-- After a procedure that settles, the others only have to keep it at rest. -/
theorem Settles.bind (hp : p.Settles) (hk : ∀ a, (k a).Rests) : (p >>= k).Settles where
  ends d hd := ((hp.ends d hd).mono fun a after hafter => (hk a).ends after hafter).bind

/-- What begins with a region ends as it goes on from there. -/
theorem rests_act_bind {k : α → Procedure β} (hk : ∀ d : Debugger, d.AtRest →
    (k (f d).1).Ends (fun _ after => after.AtRest) (f d).2) : (act f >>= k).Rests where
  ends d hd n := by
    rw [hd.iterate_work]
    exact hk d hd

/-- An action that keeps a debugger at rest does so between the worker's turns. -/
theorem rests_act (hf : ∀ d : Debugger, d.AtRest → (f d).2.AtRest) : (act f).Rests :=
  rests_act_bind fun d hd => (rests_pure (f d).1).ends _ (hf d hd)

/-- A look keeps a debugger at rest. -/
theorem rests_look (f : Debugger → α) : (look f).Rests := rests_act fun _ hd => hd

/-- A region in which an operation is carried out that looks around or changes breakpoints or
symbols. -/
theorem rests_of_perform (op : Debugger.Operation) (hop : op.Edits)
    (hf : ∀ d, (f d).2 = (d.perform op).2) : (act f).Rests := by
  apply rests_act
  intro d hd
  rw [hf]
  exact hd.perform hop

/-- A program that is waited for is paused afterwards, or is paused then. -/
theorem settles_wait_bind {k : Bool → Procedure α} (hpaused : (k true).Rests)
    (hrunning : (k false).Settles) : (wait >>= k).Settles where
  ends d hd n := by
    have hafter := hd.iterate_work n
    cases hstopped : (Debugger.work^[n] d).machine.paused with
    | true => exact hpaused.ends _ ⟨hafter, hstopped⟩
    | false => exact hrunning.ends _ hafter

/-- A pause settles a debugger that runs. -/
theorem settles_pause : (change Debugger.pause).Settles where
  ends _ hd n := (rests_pure ()).ends _ (hd.iterate_work n).pause

end Procedure

end Z80Debugger
