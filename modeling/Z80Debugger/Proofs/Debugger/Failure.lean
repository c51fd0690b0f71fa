import Z80Debugger.Proofs.Debugger.InPlace

/-!
# Failed operations change nothing

An operation of a debugger fails for a reason that can be told beforehand: a text that describes
nothing, a number that no breakpoint has, no core, a machine that runs, a core without room for a
trampoline, a file that is no symbol file.  Most of them are found out before anything is done.  The
start of a step is not: it ends the session that is going on before it asks for a trampoline.  But
steps start only in a paused machine, and in every machine that a debugger can have, a paused one
has no session.
-/

set_option autoImplicit false

namespace Z80Debugger

namespace Machine

/-- A step can be started: a core is attached that is paused and has room for a trampoline. -/
def CanStart (m : Machine) : Prop :=
  ∃ core, m.core = some core ∧ m.paused = true ∧ core.traps.hasRoom = true

/-- A step starts exactly if it can, and otherwise nothing happens. -/
theorem Controlled.startStep_cases {m : Machine} (hm : m.Controlled) (kind : Core → StepKind) :
    let result := m.startStep fun stepper core => stepper.start core.traps (kind core)
    (m.CanStart ∧ result.1 = true) ∨ (¬ m.CanStart ∧ result = (false, m)) := by
  cases hcore : m.core with
  | none => exact Or.inr ⟨by simp [CanStart, hcore], by simp only [Machine.startStep, hcore]⟩
  | some core =>
    cases hpaused : m.paused with
    | false =>
      exact Or.inr ⟨by simp [CanStart, hpaused], by simp only [Machine.startStep, hcore, hpaused]⟩
    | true =>
      have hnone : m.stepper = none := hm.stepper_eq_none hpaused
      by_cases hroom : core.traps.hasRoom = true
      · left
        obtain ⟨h, after, hadd, _⟩ := Traps.exists_add? (t := .everyOpcode) (by decide) hroom
        refine ⟨⟨core, hcore, hpaused, hroom⟩, ?_⟩
        simp [Machine.startStep, hcore, hpaused, hnone, Stepper.start, Stepper.cancel, hadd]
      · right
        refine ⟨by simp [CanStart, hcore, hroom], ?_⟩
        -- There is no session to end, so the refused trampoline leaves the table as it was.
        have hfull : core.traps.add? .everyOpcode = none := by simp [Traps.add?, hroom]
        obtain ⟨core?, paused, stepper, store, lastStop⟩ := m
        cases hcore
        cases hpaused
        cases hnone
        simp [Machine.startStep, Stepper.start, Stepper.cancel, hfull]

end Machine

namespace Debugger

/-- The operation cannot be carried out. -/
def Refused (d : Debugger) : Operation → Prop
  | .setBreakpoint text _ =>
    d.machine.core = none ∨ ∃ cause, Breakpoint.parse d.defaults d.context text = .error cause
  | .removeBreakpoint id | .setEnabled id _ =>
    d.machine.core = none ∨ d.machine.store.get? id = none
  | .toggle _ | .toggleSelected => d.machine.core = none
  | .stepInto | .stepOver | .finish => ¬ d.machine.CanStart
  | .goTo text => d.addressOf? (Text.trim text.toList) = none
  | .loadSymbols _ contents => ∀ text, FileError.textOf contents = .ok text →
    ∃ cause, Symbols.File.definitions text = .error cause
  | _ => False

/-- The operation fails exactly if it is refused, and then changes nothing. -/
structure Settled (d : Debugger) (op : Operation) : Prop where
  fails_iff : (d.perform op).1.isSome = true ↔ d.Refused op
  unchanged : (d.perform op).1.isSome = true → (d.perform op).2 = d

variable {d : Debugger} {op : Operation}

/-- An operation that fails with everything left as it was is settled where it is refused. -/
theorem settled_of_failed (cause : Failure) (hfailed : d.perform op = (some cause, d))
    (hrefused : d.Refused op) : d.Settled op where
  fails_iff := by simp [hfailed, hrefused]
  unchanged _ := by rw [hfailed]

/-- An operation that does not fail is settled where it is not refused. -/
theorem settled_of_done (hdone : (d.perform op).1 = none) (hpossible : ¬ d.Refused op) :
    d.Settled op where
  fails_iff := by simp [hdone, hpossible]
  unchanged hfailed := by
    rw [hdone] at hfailed
    cases hfailed

/-- Setting a breakpoint fails exactly without a core or for bad text. -/
theorem settled_setBreakpoint (d : Debugger) (text : String) (existing : Option BreakpointId) :
    d.Settled (.setBreakpoint text existing) := by
  cases hparse : Breakpoint.parse d.defaults d.context text with
  | error cause =>
    apply settled_of_failed (.text cause)
    · simp only [perform, setBreakpoint, hparse]
    · exact Or.inr ⟨cause, hparse⟩
  | ok b =>
    cases hcore : d.machine.core with
    | none =>
      apply settled_of_failed .noCore
      · simp only [perform, setBreakpoint, hparse, Machine.updateStore, hcore, Option.map_none]
      · exact Or.inl hcore
    | some core =>
      apply settled_of_done
      · simp only [perform, setBreakpoint, hparse, Machine.updateStore, hcore, Option.map_some]
      · rintro (hnone | ⟨cause, herror⟩)
        · rw [hcore] at hnone
          cases hnone
        · rw [hparse] at herror
          cases herror

/-- What concludes with an error exactly if it is refused is settled. -/
theorem settled_of_conclude {ε : Type} {report : ε → Failure} {result : Except ε Debugger}
    (hperform : d.perform op = d.conclude report result)
    (hcases : (d.Refused op ∧ ∃ cause, result = .error cause) ∨
      (¬ d.Refused op ∧ ∃ after, result = .ok after)) : d.Settled op := by
  rcases hcases with ⟨hrefused, cause, rfl⟩ | ⟨hpossible, after, rfl⟩
  · exact settled_of_failed (report cause) hperform hrefused
  · exact settled_of_done (by rw [hperform]; rfl) hpossible

/-- A change of the breakpoint with a number needs a core and that breakpoint. -/
theorem changeBreakpoint_cases (d : Debugger) (id : BreakpointId)
    (f : Store → Traps → Entry → Store × Traps) :
    let result := d.changeBreakpoint id fun store traps => (store.get? id).map (f store traps)
    let missing := d.machine.core = none ∨ d.machine.store.get? id = none
    (missing ∧ ∃ cause, result = .error cause) ∨ (¬ missing ∧ ∃ after, result = .ok after) := by
  cases hcore : d.machine.core with
  | none => exact Or.inl ⟨Or.inl rfl, _, by simp only [changeBreakpoint, hcore]; rfl⟩
  | some core =>
    cases hget : d.machine.store.get? id with
    | none =>
      refine Or.inl ⟨Or.inr rfl, .unknownBreakpoint id, ?_⟩
      simp [changeBreakpoint, Machine.updateStore?, hcore, hget]
    | some e =>
      refine Or.inr ⟨by simp, ?_⟩
      simp [changeBreakpoint, Machine.updateStore?, hcore, hget]

/-- A toggle fails exactly without a core. -/
theorem settled_of_toggle {address : UInt32}
    (hperform : d.perform op = d.concludeToggle (d.toggle address))
    (hrefused : d.Refused op ↔ d.machine.core = none) : d.Settled op := by
  cases hcore : d.machine.core with
  | none =>
    apply settled_of_failed .noCore
    · simp only [hperform, toggle, Machine.updateStore, hcore, Option.map_none, concludeToggle]
    · exact hrefused.mpr hcore
  | some core =>
    apply settled_of_done
    · simp only [hperform, toggle, Machine.updateStore, hcore, Option.map_some, concludeToggle]
    · intro h
      rw [hrefused.mp h] at hcore
      cases hcore

/-- A step fails exactly if it cannot start, and then leaves the machine. -/
theorem settled_of_startStep (hd : d.machine.Controlled) (kind : Core → StepKind)
    (hperform : d.perform op =
      let result := d.machine.startStep fun stepper core => stepper.start core.traps (kind core)
      concludeStart (result.1, { d with machine := result.2 }))
    (hrefused : d.Refused op ↔ ¬ d.machine.CanStart) : d.Settled op := by
  rcases hd.startStep_cases kind with ⟨hcan, hstarted⟩ | ⟨hcannot, hfailed⟩
  · apply settled_of_done
    · simp only [hperform, concludeStart, hstarted, if_true]
    · exact fun h => hrefused.mp h hcan
  · apply settled_of_failed .notStarted
    · simp [hperform, concludeStart, hfailed]
    · exact hrefused.mpr hcannot

/-- Going to an address fails exactly for bad text. -/
theorem settled_goTo (d : Debugger) (text : String) : d.Settled (.goTo text) := by
  apply settled_of_conclude rfl
  cases haddress : d.addressOf? (Text.trim text.toList) with
  | none => exact Or.inl ⟨haddress, _, by simp only [goTo, haddress]; rfl⟩
  | some address =>
    refine Or.inr ⟨by simp [Refused, haddress], ?_⟩
    simp [goTo, haddress]

/-- Loading symbols fails exactly if the file is missing or malformed. -/
theorem settled_loadSymbols (d : Debugger) (name : String) (contents : Option ByteArray) :
    d.Settled (.loadSymbols name contents) := by
  apply settled_of_conclude rfl
  simp only [Refused, loadSymbols, Symbols.load]
  cases htext : FileError.textOf contents with
  | error cause =>
    refine Or.inl ⟨?_, _, rfl⟩
    intro text hread
    cases hread
  | ok text =>
    simp only [Symbols.parse]
    cases hdefinitions : Symbols.File.definitions text with
    | error cause =>
      refine Or.inl ⟨?_, _, rfl⟩
      intro read hread
      cases hread
      exact ⟨cause, hdefinitions⟩
    | ok definitions =>
      refine Or.inr ⟨?_, _, rfl⟩
      intro hrefused
      obtain ⟨cause, herror⟩ := hrefused text rfl
      rw [hdefinitions] at herror
      cases herror

/-- In a debugger whose machine is controlled every operation is settled. -/
theorem settled_perform (hd : d.machine.Controlled) (op : Operation) : d.Settled op := by
  cases op with
  | setBreakpoint text existing => exact d.settled_setBreakpoint text existing
  | removeBreakpoint id => exact settled_of_conclude rfl (d.changeBreakpoint_cases id _)
  | setEnabled id enabled => exact settled_of_conclude rfl (d.changeBreakpoint_cases id _)
  | toggle | toggleSelected => exact settled_of_toggle rfl Iff.rfl
  | stepInto => exact settled_of_startStep hd (fun _ => .into) rfl Iff.rfl
  | stepOver =>
    exact settled_of_startStep hd
      (fun core => .over (Stepper.addressAfter d.symbols.disassembler core.cpu)) rfl Iff.rfl
  | finish => exact settled_of_startStep hd (fun core => .finish core.cpu.registers.sp) rfl Iff.rfl
  | goTo text => exact d.settled_goTo text
  | loadSymbols name contents => exact d.settled_loadSymbols name contents
  | run | pause | goToPc | goToStack | scroll | move | setView | disassembly | attach
  | coreChanged | machine => exact settled_of_done rfl id

/-- Take any debugger, with any core or none, after any operations, failed ones among them, and
whatever was done to its machine by others.  The next operation fails exactly if it is refused, and
if it fails, the debugger is as it was, with its breakpoints and their handles, the core and its
traps, the session, the pause, the cursor, the defaults and the symbols.  That is so even if it is
carried out in place and what it does before it fails is kept. -/
theorem failed_operations_change_nothing (core : Option Core) (options : DebuggerOptions)
    (ops : List Operation) (op : Operation) :
    let d := (ofCore core options).performAll ops
    let result := (Script.ofOperation op).outcome d
    result = d.perform op ∧ (result.1.isSome = true ↔ d.Refused op) ∧
      (result.1.isSome = true → result.2 = d) := by
  intro d result
  have hd : d.machine.Controlled := controlled_performAll (controlled_ofCore core options) ops
  have hsettled := settled_perform hd op
  have hresult : result = d.perform op := Script.outcome_ofOperation op d
  rw [hresult]
  exact ⟨rfl, hsettled.fails_iff, hsettled.unchanged⟩

end Debugger

end Z80Debugger
