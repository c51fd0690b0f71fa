import Z80Debugger.Proofs.Debugger.Operation

/-!
# Operations carried out in place

The functions of a debugger give back a debugger only when they succeed.  Here the operations that
can fail are carried out in place, effect by effect, and a failure keeps what was changed before it.
`Script.outcome_ofOperation` says that this comes to the same.
-/

set_option autoImplicit false

namespace Z80Debugger.Debugger

/-- Work on a debugger in place, which may fail on the way. -/
abbrev Script (α : Type) : Type := ExceptT Failure (StateM Debugger) α

namespace Script

/-- The attached core; without one the work fails. -/
def attached (cause : Failure) : Script Core := do
  match (← get).machine.core with
  | some core => return core
  | none => throw cause

/-- A result, or a failure for an error. -/
def require {ε α : Type} (report : ε → Failure) : Except ε α → Script α
  | .ok a => return a
  | .error cause => throw (report cause)

/-- Keeps the breakpoints and the traps of the core as they are now. -/
def keep (core : Core) (store : Store) (traps : Traps) : Script Unit :=
  modify fun d => { d with machine := { d.machine with store, core := some { core with traps } } }

/-- Keeps the space and the modes that were used last. -/
def remember (b : Breakpoint) : Script Unit := modify fun d => { d with defaults := b.defaults }

def setBreakpoint (text : String) (existing : Option BreakpointId) : Script Unit := do
  let d ← get
  let b ← require .text (Breakpoint.parse d.defaults d.context text)
  let core ← attached .noCore
  let (_, store, traps) := putBreakpoint existing b d.machine.store core.traps
  keep core store traps
  remember b

def changeBreakpoint (id : BreakpointId) (f : Store → Traps → Option (Store × Traps)) :
    Script Unit := do
  let core ← attached (.lookup .noCore)
  match f (← get).machine.store core.traps with
  | some (store, traps) => keep core store traps
  | none => throw (.lookup (.unknownBreakpoint id))

def toggle (address : UInt32) : Script Unit := do
  let d ← get
  let core ← attached .noCore
  let (toggle, store, traps) := d.machine.store.toggle core.traps address d.viewSpace
  keep core store traps
  if let .added id := toggle then
    if let some e := store.get? id then remember e.breakpoint

/-- The session that is going on ends before the core is asked for a trampoline. -/
def startStep (kind : Cpu → StepKind) : Script Unit := do
  let _ ← attached .notStarted
  unless (← get).machine.paused do throw .notStarted
  modify fun d => { d with machine := d.machine.cancelStep }
  let core ← attached .notStarted
  match core.traps.add? .everyOpcode with
  | none => throw .notStarted
  | some (trampoline, traps) =>
    modify fun d => { d with machine := { d.machine with
      core := some { core with traps }
      stepper := some { kind := kind core.cpu, trampoline } } }
    modify fun d => { d with machine := { d.machine with paused := false } }

def goTo (text : String) : Script Unit := do
  let trimmed := Text.trim text.toList
  match (← get).addressOf? trimmed with
  | some address => modify fun d => { d with cursor := d.cursor.goTo address }
  | none => throw (.text (.invalidAddress (String.ofList trimmed)))

/-- Defines the names one by one, once all lines of the file have been read. -/
def loadSymbols (name : String) (contents : Option ByteArray) : Script Unit := do
  let text ← require (fun cause => .symbols (.unreadable name cause)) (FileError.textOf contents)
  let definitions ← require (fun cause => .symbols (.malformed cause))
    (Symbols.File.definitions text)
  definitions.forM fun (symbol, address) =>
    modify fun d => { d with symbols := d.symbols.insert symbol address }

/-- An operation in place; those that cannot fail have one effect. -/
def ofOperation : Operation → Script Unit
  | .setBreakpoint text existing => setBreakpoint text existing
  | .removeBreakpoint id => changeBreakpoint id fun store traps => store.remove? traps id
  | .setEnabled id enabled =>
    changeBreakpoint id fun store traps => store.setEnabled? traps id enabled
  | .toggle address => toggle address
  | .toggleSelected => do toggle (← get).cursor.selected
  | .stepInto => startStep fun _ => .into
  | .stepOver => do
    let d ← get
    startStep fun c => .over (Stepper.addressAfter d.symbols.disassembler c)
  | .finish => startStep fun c => .finish c.registers.sp
  | .goTo text => goTo text
  | .loadSymbols name contents => loadSymbols name contents
  | op => modify fun d => (d.perform op).2

/-- Why the work failed, if it did, and the debugger that it leaves. -/
def outcome (s : Script Unit) (d : Debugger) : Option Failure × Debugger :=
  match s.run.run d with
  | (.error cause, after) => (some cause, after)
  | (.ok (), after) => (none, after)

variable {α ε : Type} {d : Debugger}

/-- A failure leaves the debugger as it stands. -/
@[simp] theorem outcome_throw (cause : Failure) (d : Debugger) :
    outcome (throw cause) d = (some cause, d) := rfl

/-- A change is made in place. -/
@[simp] theorem outcome_modify (f : Debugger → Debugger) (d : Debugger) :
    outcome (modify f) d = (none, f d) := rfl

/-- Looking at the debugger leaves it. -/
@[simp] theorem outcome_get_bind (k : Debugger → Script Unit) (d : Debugger) :
    outcome (get >>= k) d = outcome (k d) d := rfl

/-- What follows a change works on the changed debugger. -/
@[simp] theorem outcome_modify_bind (f : Debugger → Debugger) (k : Unit → Script Unit)
    (d : Debugger) : outcome (modify f >>= k) d = outcome (k ()) (f d) := rfl

/-- Without a core the work fails. -/
theorem outcome_attached_bind_of_none (hcore : d.machine.core = none) (cause : Failure)
    (k : Core → Script Unit) : outcome (attached cause >>= k) d = (some cause, d) := by
  simp [attached, hcore]

/-- With a core the work goes on with it. -/
theorem outcome_attached_bind_of_some {core : Core} (hcore : d.machine.core = some core)
    (cause : Failure) (k : Core → Script Unit) :
    outcome (attached cause >>= k) d = outcome (k core) d := by
  simp [attached, hcore]

/-- What is given is handed on. -/
@[simp] theorem outcome_require_ok_bind (report : ε → Failure) (a : α) (k : α → Script Unit)
    (d : Debugger) : outcome (require report (.ok a) >>= k) d = outcome (k a) d := rfl

/-- Setting a breakpoint in place has the outcome of the operation. -/
theorem outcome_setBreakpoint (text : String) (existing : Option BreakpointId) (d : Debugger) :
    (setBreakpoint text existing).outcome d = d.perform (.setBreakpoint text existing) := by
  simp only [setBreakpoint, outcome_get_bind, perform, Debugger.setBreakpoint]
  cases hparse : Breakpoint.parse d.defaults d.context text with
  | error cause => rfl
  | ok b =>
    rw [outcome_require_ok_bind]
    cases hcore : d.machine.core with
    | none => simp [outcome_attached_bind_of_none hcore, Machine.updateStore, hcore]
    | some core =>
      simp [outcome_attached_bind_of_some hcore, Machine.updateStore, hcore, keep, remember]

/-- So has a change of a breakpoint. -/
theorem outcome_changeBreakpoint (id : BreakpointId) (f : Store → Traps → Option (Store × Traps))
    (d : Debugger) :
    (changeBreakpoint id f).outcome d = d.conclude .lookup (d.changeBreakpoint id f) := by
  simp only [changeBreakpoint, Debugger.changeBreakpoint]
  cases hcore : d.machine.core with
  | none => simp [outcome_attached_bind_of_none hcore, conclude]
  | some core =>
    rw [outcome_attached_bind_of_some hcore, outcome_get_bind]
    cases hchange : f d.machine.store core.traps with
    | none => simp [Machine.updateStore?, hcore, hchange, conclude]
    | some pair => simp [Machine.updateStore?, hcore, hchange, conclude, keep]

/-- So has a toggle. -/
theorem outcome_toggle (address : UInt32) (d : Debugger) :
    (toggle address).outcome d = d.concludeToggle (d.toggle address) := by
  simp only [toggle, outcome_get_bind, Debugger.toggle]
  cases hcore : d.machine.core with
  | none => simp [outcome_attached_bind_of_none hcore, Machine.updateStore, hcore, concludeToggle]
  | some core =>
    rw [outcome_attached_bind_of_some hcore]
    simp only [Machine.updateStore, hcore, Option.map_some, concludeToggle]
    generalize d.machine.store.toggle core.traps address d.viewSpace = result
    obtain ⟨done, store, traps⟩ := result
    cases done with
    | removed id => rfl
    | added id =>
      simp only [keep, outcome_modify_bind]
      cases store.get? id <;> rfl

/-- So has the start of a step. -/
theorem outcome_startStep (kind : Cpu → StepKind) (d : Debugger) :
    (startStep kind).outcome d =
      let result := d.machine.startStep fun stepper core => stepper.start core.traps (kind core.cpu)
      concludeStart (result.1, { d with machine := result.2 }) := by
  simp only [startStep, Machine.startStep]
  cases hcore : d.machine.core with
  | none => simp [outcome_attached_bind_of_none hcore, concludeStart]
  | some core =>
    rw [outcome_attached_bind_of_some hcore, outcome_get_bind]
    cases hpaused : d.machine.paused with
    | false => simp [concludeStart]
    | true =>
      have hcancelled : ({ d with machine := d.machine.cancelStep } : Debugger).machine.core =
          some { core with traps := d.machine.stepper.cancel core.traps } := by
        simp [Machine.cancelStep, hcore]
      simp only [if_true, outcome_modify_bind, outcome_attached_bind_of_some hcancelled,
        Stepper.start]
      cases hadd : (d.machine.stepper.cancel core.traps).add? .everyOpcode with
      | none => simp [concludeStart, Machine.cancelStep, hcore, hpaused]
      | some pair => simp [concludeStart, Machine.cancelStep]

/-- So has going to an address. -/
theorem outcome_goTo (text : String) (d : Debugger) :
    (goTo text).outcome d = d.conclude .text (d.goTo text) := by
  simp only [goTo, outcome_get_bind, Debugger.goTo]
  cases d.addressOf? (Text.trim text.toList) <;> rfl

/-- Inserting symbols one after the other inserts all. -/
theorem outcome_forM_insert (definitions : List (String × UInt32)) (d : Debugger) :
    outcome (definitions.forM fun (symbol, address) =>
      modify fun d => { d with symbols := d.symbols.insert symbol address }) d =
      (none, { d with symbols := d.symbols.insertAll definitions }) := by
  induction definitions generalizing d with
  | nil => rfl
  | cons definition definitions ih => exact ih _

/-- Loading symbols in place has the outcome of the operation. -/
theorem outcome_loadSymbols (name : String) (contents : Option ByteArray) (d : Debugger) :
    (loadSymbols name contents).outcome d = d.perform (.loadSymbols name contents) := by
  simp only [loadSymbols, perform, Debugger.loadSymbols, Symbols.load]
  cases FileError.textOf contents with
  | error cause => rfl
  | ok text =>
    simp only [outcome_require_ok_bind, Symbols.parse]
    cases Symbols.File.definitions text with
    | error cause => rfl
    | ok definitions =>
      rw [outcome_require_ok_bind, outcome_forM_insert]
      rfl

/-- In place an operation comes to the same. -/
theorem outcome_ofOperation (op : Operation) (d : Debugger) :
    (ofOperation op).outcome d = d.perform op := by
  cases op with
  | setBreakpoint text existing => exact outcome_setBreakpoint text existing d
  | removeBreakpoint | setEnabled =>
    rw [ofOperation, outcome_changeBreakpoint]
    rfl
  | toggle =>
    rw [ofOperation, outcome_toggle]
    rfl
  | toggleSelected =>
    rw [ofOperation, outcome_get_bind, outcome_toggle]
    rfl
  | stepInto | finish =>
    rw [ofOperation, outcome_startStep]
    rfl
  | stepOver =>
    rw [ofOperation, outcome_get_bind, outcome_startStep]
    rfl
  | goTo =>
    rw [ofOperation, outcome_goTo]
    rfl
  | loadSymbols name contents => exact outcome_loadSymbols name contents d
  | run | pause | goToPc | goToStack | scroll | move | setView | disassembly | attach
  | coreChanged | machine =>
    rw [ofOperation, outcome_modify]
    · rfl
    all_goals simp

end Script

end Z80Debugger.Debugger
