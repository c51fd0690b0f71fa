import Mathlib.Logic.Relation
import Z80Debugger.Console.Program
import Z80Debugger.Proofs.Console.Commands

/-!
# The dialogue at the console

The console is at the prompt or within a command, and the worker runs beside it.  `Dialogue.Step`
says what can happen next: the worker has the machine once, the command goes on to its next region
or learns how its waiting came out, it returns, or the next line is read.  Every command that is
begun at rest ends at rest, whether it succeeds or not (`Procedure.rests_handleLine`); so whenever
the console prompts, the machine is paused, and no session and no trampoline is left
(`Dialogue.returned_at_rest`).

What the console makes of a line is among what can happen (`Dialogue.reaches_reply`), and the
program starts with a console for which this holds (`Console.exists_core_of_start`).
-/

set_option autoImplicit false

namespace Z80Debugger

namespace Procedure

variable (c : Console)

/-- Showing the listing keeps a debugger at rest. -/
theorem rests_listing : listing.Rests := by
  have hrows : (act Debugger.disassembly).Rests :=
    rests_of_perform .disassembly trivial fun _ => rfl
  refine (rests_look _).bind fun width => hrows.bind fun rows => ?_
  exact (rests_look _).bind fun symbols => rests_pure _

/-- Changing the window leaves a debugger at rest. -/
theorem rests_navigate {f : Debugger → Debugger} (op : Debugger.Operation) (hop : op.Edits)
    (hf : ∀ d, f d = (d.perform op).2) : (navigate f).Rests := by
  have hchange : (change f).Rests := rests_of_perform op hop hf
  exact hchange.bind fun _ => rests_listing

/-- Waiting for a stop settles the debugger. -/
theorem settles_settle : (settle c).Settles :=
  settles_wait_bind (rests_pure _) (settles_pause.bind fun _ => rests_pure _)

/-- After waiting the debugger is at rest, whether the program has stopped by itself or not. -/
theorem settles_waitForStop : (waitForStop c).Settles := by
  have hgo : (change Debugger.goToPc).Rests := rests_of_perform .goToPc trivial fun _ => rfl
  refine (settles_settle c).bind fun lines => (rests_look _).bind fun place => ?_
  exact hgo.bind fun _ => rests_listing.bind fun rows => rests_pure _

/-- A step leaves a debugger at rest, also one that cannot be started. -/
theorem rests_step {start : Debugger → Bool × Debugger} (hstart : ∀ d : Debugger, d.AtRest →
    (start d).2.InOrder ∧ ((start d).1 = false → (start d).2.machine.paused = true)) :
    (step c start).Rests := by
  apply rests_act_bind
  intro d hd
  obtain ⟨horder, hfailed⟩ := hstart d hd
  cases hstarted : (start d).1 with
  | true => exact (settles_waitForStop c).ends _ horder
  | false => exact (rests_pure _).ends _ ⟨horder, hfailed hstarted⟩

/-- Running on comes back at rest, since it waits. -/
theorem rests_resume : (resume c).Rests := by
  apply rests_act_bind
  intro d hd
  exact ((settles_waitForStop c).bind fun messages => rests_pure _).ends _ hd.toInOrder.run

/-- Printing keeps a debugger at rest. -/
theorem rests_print (f : Debugger → List String) : (print f).Rests :=
  (rests_look f).bind fun _ => rests_pure _

/-- Defining a breakpoint keeps a debugger at rest. -/
theorem rests_define (existing : Option BreakpointId) (definition : String) :
    (define existing definition).Rests := by
  have hset : (attempt fun d => d.setBreakpoint definition existing).Rests := by
    apply rests_of_perform (.setBreakpoint definition existing) trivial
    intro d
    rcases hset : d.setBreakpoint definition existing with e | ⟨_ | id, after⟩ <;>
      simp [Debugger.perform, hset]
  refine hset.bind fun result => ?_
  rcases result with e | _ | id
  · exact rests_pure _
  · exact rests_pure _
  · exact (rests_look _).bind fun _ => rests_pure _

/-- So does defining one from the next line of input. -/
theorem rests_defineOrAsk (existing : Option BreakpointId) (definition : String)
    (input : List InputLine) : (defineOrAsk c existing definition input).Rests := by
  have hdefine (definition : String) (input : List InputLine) :
      (do return ({ messages := ← define existing definition, input } : Answer)).Rests :=
    (rests_define existing definition).bind fun _ => rests_pure _
  unfold defineOrAsk
  split
  · refine (rests_look _).bind fun result => ?_
    rcases result with e | _
    · exact rests_pure _
    · rcases input with _ | ⟨_ | _, input⟩
      · exact rests_pure _
      · exact hdefine _ input
      · exact rests_pure _
  · exact hdefine definition input

/-- A change that an operation carries out or refuses. -/
theorem rests_attempt {ε : Type} {f : Debugger → Except ε Debugger}
    (report : ε → Debugger.Failure) (op : Debugger.Operation) (hop : op.Edits)
    (hf : ∀ d : Debugger, d.perform op = d.conclude report (f d)) :
    (attempt fun d => (f d).map ((), ·)).Rests := by
  apply rests_of_perform op hop
  intro d
  rw [hf]
  simp only
  cases f d <;> rfl

/-- A change of a breakpoint keeps a debugger at rest. -/
theorem rests_changeBreakpoint {f : Debugger → Except LookupError Debugger} {done : String}
    (op : Debugger.Operation) (hop : op.Edits)
    (hf : ∀ d : Debugger, d.perform op = d.conclude .lookup (f d)) :
    (changeBreakpoint f done).Rests := by
  refine (rests_attempt .lookup op hop hf).bind fun result => ?_
  cases result with
  | error e => exact rests_pure _
  | ok => exact rests_pure _

/-- Going to an address keeps a debugger at rest, whether there is one or not. -/
theorem rests_goToAddress (address : String) :
    (attempt fun d => (d.goTo address).map ((), ·)).Rests :=
  rests_attempt .text (.goTo address) trivial fun _ => rfl

/-- So does showing the listing there. -/
theorem rests_goTo (address : String) : (goTo address).Rests := by
  refine (rests_goToAddress address).bind fun result => ?_
  cases result with
  | error e => exact rests_pure _
  | ok => exact rests_listing

/-- Toggling the selected line keeps a debugger at rest. -/
theorem rests_toggleSelected : toggleSelected.Rests := by
  refine Rests.bind (rests_of_perform .toggleSelected trivial fun d => ?_) fun result => ?_
  · cases htoggle : d.toggleSelected <;> simp [Debugger.perform, Debugger.concludeToggle, htoggle]
  · rcases result with _ | _ | _
    · exact rests_pure _
    · exact (rests_look _).bind fun _ => rests_pure _
    · exact rests_pure _

/-- Toggling an address keeps a debugger at rest. -/
theorem rests_toggle (address : Option String) : (toggle address).Rests := by
  cases address with
  | none => exact rests_toggleSelected
  | some address =>
    refine (rests_goToAddress address).bind fun result => ?_
    cases result with
    | error e => exact rests_pure _
    | ok => exact rests_toggleSelected

/-- Loading symbols keeps a debugger at rest. -/
theorem rests_loadSymbols (files : Files) (name : String) : (loadSymbols files name).Rests := by
  have hload : (attempt fun d => d.loadSymbols name (files name)).Rests := by
    apply rests_of_perform (.loadSymbols name (files name)) trivial
    intro d
    cases hload : d.loadSymbols name (files name) <;>
      simp [Debugger.perform, Debugger.conclude, hload, Except.map]
  refine hload.bind fun result => ?_
  cases result with
  | error e => exact rests_pure _
  | ok => exact rests_pure _

/-- A reply comes back at rest if its procedure does. -/
theorem rests_reply (input : List InputLine) {p : Procedure (List Message)} (hp : p.Rests) :
    (reply input p).Rests :=
  hp.bind fun _ => rests_pure _

/-- Every command leaves a debugger at rest. -/
theorem rests_perform (files : Files) (input : List InputLine) (command : Command) :
    (perform c files input command).Rests := by
  cases command with
  | breakAt | edit => exact rests_defineOrAsk c _ _ input
  | quit => exact rests_pure _
  | delete id =>
    exact rests_reply input (rests_changeBreakpoint (.removeBreakpoint id) trivial fun _ => rfl)
  | enable id =>
    exact rests_reply input (rests_changeBreakpoint (.setEnabled id true) trivial fun _ => rfl)
  | disable id =>
    exact rests_reply input (rests_changeBreakpoint (.setEnabled id false) trivial fun _ => rfl)
  | toggle address => exact rests_reply input (rests_toggle address)
  | breakpoints | registers | help => exact rests_reply input (rests_print _)
  | resume => exact rests_reply input (rests_resume c)
  | step => exact rests_reply input (rests_step c fun d hd => hd.stepInto)
  | next => exact rests_reply input (rests_step c fun d hd => hd.stepOver)
  | finish => exact rests_reply input (rests_step c fun d hd => hd.finish)
  | disassemble => exact rests_reply input rests_listing
  | goTo address => exact rests_reply input (rests_goTo address)
  | goToPc => exact rests_reply input (rests_navigate .goToPc trivial fun _ => rfl)
  | stack entry => exact rests_reply input (rests_navigate (.goToStack entry) trivial fun _ => rfl)
  | scroll delta => exact rests_reply input (rests_navigate (.scroll delta) trivial fun _ => rfl)
  | move direction =>
    exact rests_reply input (rests_navigate (.move direction) trivial fun _ => rfl)
  | view view => exact rests_reply input (rests_navigate (.setView view) trivial fun _ => rfl)
  | symbols file => exact rests_reply input (rests_loadSymbols files file)

/-- Every line leaves a debugger at rest, whether its command succeeds or fails or there is none. -/
theorem rests_handleLine (files : Files) (line : String) (input : List InputLine) :
    (handleLine c files line input).Rests := by
  unfold handleLine handle
  simp only
  split
  · exact rests_pure _
  · split
    · exact rests_pure _
    · exact rests_perform c files input _

end Procedure

namespace Console

variable {o : Options} {files : Files} {core : Core} {d after : Debugger}

/-- A core with an image has no traps. -/
theorem traps_of_coreWithImage {layout : Layout} {image : List UInt8}
    (hcore : coreWithImage o layout image = .ok core) : core.traps.entries = [] := by
  unfold coreWithImage at hcore
  split at hcore
  · cases hcore
  · next fresh hfresh =>
    cases hcore
    obtain ⟨cpu, -, rfl⟩ := Option.map_eq_some_iff.mp hfresh
    rfl

/-- The core that an image was loaded into has no traps. -/
theorem traps_of_loadImage {size : Nat} (hload : loadImage o files = .ok (core, size)) :
    core.traps.entries = [] := by
  unfold loadImage at hload
  simp only at hload
  split at hload
  · next image _ =>
    split at hload
    · cases hload
    · split at hload
      · next layout _ =>
        cases hcore : coreWithImage o layout image.toList with
        | error e =>
          rw [hcore] at hload
          cases hload
        | ok loaded =>
          rw [hcore] at hload
          cases hload
          exact traps_of_coreWithImage hcore
      · cases hload
  · cases hload

/-- The debugger of a core has that core and no breakpoints. -/
theorem machine_of_debuggerOf (hdebugger : debuggerOf o core = .ok d) :
    d.machine = .ofCore (some core) := by
  unfold debuggerOf at hdebugger
  split at hdebugger
  · cases hdebugger
  · cases hdebugger
    exact Debugger.machine_ofCore _ _

/-- Symbols leave the machine. -/
theorem machine_of_withSymbols {messages : List Message}
    (hsymbols : withSymbols o files d = .ok (after, messages)) : after.machine = d.machine := by
  unfold withSymbols at hsymbols
  split at hsymbols
  · cases hsymbols
    rfl
  · split at hsymbols
    · cases hsymbols
    · next name _ _ count loaded hload =>
      cases hsymbols
      exact Debugger.machine_of_loadSymbols hload

/-- The program starts consoles whose debuggers have just been started. -/
theorem exists_core_of_start {patience : Nat} {c : Console}
    (hstart : (start o files patience).2 = .ok c) :
    ∃ core : FreeCore, c.debugger.machine = .start (some core) := by
  unfold start at hstart
  simp only at hstart
  split at hstart
  · cases hstart
  · next core size hload =>
    split at hstart
    · cases hstart
    · next d hdebugger =>
      split at hstart
      · cases hstart
      · next after symbols hsymbols =>
        cases hstart
        refine ⟨⟨core, traps_of_loadImage hload⟩, ?_⟩
        exact (machine_of_withSymbols hsymbols).trans (machine_of_debuggerOf hdebugger)

end Console

/-- How far a dialogue has come. -/
inductive Dialogue where
  /-- The console prompts; these lines are going to be typed. -/
  | prompt (input : List InputLine) (d : Debugger)
  /-- A command has been begun; this is what is left of it. -/
  | busy (p : Procedure Procedure.Answer) (d : Debugger)

namespace Dialogue

/-- The debugger that console and worker share. -/
def debugger : Dialogue → Debugger
  | prompt _ d => d
  | busy _ d => d

/-- The dialogue with another debugger. -/
def withDebugger : Dialogue → Debugger → Dialogue
  | prompt input _, d => prompt input d
  | busy p _, d => busy p d

/-- No command is being carried out: the console prompts, or a command has just given its answer. -/
def Returned : Dialogue → Prop
  | prompt _ _ => True
  | busy p _ => ∃ answer, p = .done answer

/-- What can happen next in a dialogue with a console. -/
inductive Step (c : Console) : Dialogue → Dialogue → Prop
  /-- The worker has the machine once. -/
  | work (s : Dialogue) : Step c s (s.withDebugger s.debugger.work)
  /-- A command goes on to its next region. -/
  | region {β : Type} (f : Debugger → β × Debugger) (next : β → Procedure Procedure.Answer)
      (d : Debugger) : Step c (busy (.region f next) d) (busy (next (f d).1) (f d).2)
  /-- A command has waited until the machine was paused, or for too long. -/
  | await (next : Bool → Procedure Procedure.Answer) (d : Debugger) :
      Step c (busy (.await next) d) (busy (next d.machine.paused) d)
  /-- A command returns and the console prompts, unless the user wants to leave. -/
  | prompt (answer : Procedure.Answer) (d : Debugger) (hstays : answer.quits = false) :
      Step c (busy (.done answer) d) (prompt answer.input d)
  /-- A line is read, and its command begun. -/
  | read (files : Files) (line : String) (input : List InputLine) (d : Debugger) :
      Step c (prompt (.text line :: input) d) (busy (.handleLine c files line input) d)

/-- One dialogue can become the other one. -/
def Reaches (c : Console) : Dialogue → Dialogue → Prop := Relation.ReflTransGen (Step c)

variable {c : Console} {s s' : Dialogue}

/-- The worker may have the machine any number of times. -/
theorem reaches_work (s : Dialogue) (n : ℕ) :
    Reaches c s (s.withDebugger (Debugger.work^[n] s.debugger)) := by
  induction n generalizing s with
  | zero => cases s <;> exact .refl
  | succ n ih =>
    have hrest := ih (s.withDebugger s.debugger.work)
    cases s <;> exact .head (.work _) hrest

/-- Running until the machine is paused, or not without end, is what the worker does. -/
theorem exists_work_eq_runUntilPaused (d : Debugger) (patience : ℕ) :
    ∃ n, Debugger.work^[n] d = { d with machine := d.machine.runUntilPaused patience } := by
  induction patience generalizing d with
  | zero => exact ⟨0, rfl⟩
  | succ patience ih =>
    unfold Machine.runUntilPaused
    by_cases hpaused : d.machine.paused
    · exact ⟨0, by simp [hpaused]⟩
    · simp only [hpaused, Bool.false_eq_true, if_false]
      split
      · exact ⟨1, rfl⟩
      · obtain ⟨n, hn⟩ := ih d.work
        exact ⟨n + 1, hn⟩

/-- What a procedure comes to with a worker that runs only while it is waited for can happen. -/
theorem reaches_run (p : Procedure Procedure.Answer) (patience : ℕ) (d : Debugger) :
    Reaches c (busy p d) (busy (.done (p.run patience d).1) (p.run patience d).2) := by
  induction p generalizing d with
  | done answer => exact .refl
  | region f next ih => exact .head (.region f next d) (ih _ _)
  | await next ih =>
    obtain ⟨n, hn⟩ := exists_work_eq_runUntilPaused d patience
    have hworked : Reaches c (busy (.await next) d) (busy (.await next) (Debugger.work^[n] d)) :=
      reaches_work _ n
    rw [hn] at hworked
    exact (hworked.tail (.await next _)).trans (ih _ _)

/-- What the console makes of a line, it can make of it in a dialogue: it prompts with the lines
that are left, and with its debugger as it is then. -/
theorem reaches_reply (c : Console) (d : Debugger) (files : Files) (line : String)
    (input : List InputLine) {reply : Reply}
    (hreply : (c.withDebugger d).handleLine files line input = reply)
    (hstays : reply.quits = false) :
    Reaches c (prompt (.text line :: input) d) (prompt reply.input reply.console.debugger) ∧
      reply.console = c.withDebugger reply.console.debugger := by
  rw [← Procedure.answer_handleLine, Procedure.handleLine_withDebugger] at hreply
  have hread : Step c (prompt (.text line :: input) d) _ := .read files line input d
  generalize Procedure.handleLine c files line input = p at hreply hread
  subst hreply
  exact ⟨.head hread ((reaches_run p c.patience d).tail (.prompt _ _ hstays)), rfl⟩

/-- At the prompt the debugger is at rest, and a command that has been begun is going to end so. -/
def Safe : Dialogue → Prop
  | prompt _ d => d.AtRest
  | busy p d => p.Ends (fun _ after => after.AtRest) d

/-- One step of a dialogue keeps it safe. -/
theorem Safe.step (hs : s.Safe) (hstep : Step c s s') : s'.Safe := by
  cases hstep with
  | work =>
    cases s with
    | prompt input d =>
      have hd : d.AtRest := hs
      have hsame : d.work.AtRest := by rwa [hd.work_eq]
      exact hsame
    | busy p d => exact Procedure.Ends.work hs
  | region | await => exact hs 0
  | prompt answer d => exact hs 0
  | read files line input d =>
    have hrests := Procedure.rests_handleLine c files line input
    -- All that matters about the procedure is that it rests; left in sight, it would be evaluated.
    generalize Procedure.handleLine c files line input = p at hrests ⊢
    exact hrests.ends d hs

/-- So do any steps. -/
theorem Safe.reaches (hs : s.Safe) (hreach : Reaches c s s') : s'.Safe := by
  induction hreach with
  | refl => exact hs
  | tail _ hstep ih => exact ih.step hstep

/-- Once a dialogue that is safe has returned, its debugger is at rest. -/
theorem Safe.atRest (hs : s.Safe) (hreturned : s.Returned) : s.debugger.AtRest := by
  cases s with
  | prompt input d => exact hs
  | busy p d =>
    obtain ⟨answer, rfl⟩ := hreturned
    exact hs 0

/-- A debugger of a core without traps that has just been started is at rest. -/
theorem atRest_of_start {d : Debugger} {core : Option FreeCore} (hstart : d.machine = .start core) :
    d.AtRest where
  accounted := hstart ▸ Machine.accounted_start core
  controlled := hstart ▸ Machine.controlled_ofCore _
  paused := hstart ▸ rfl

/-- From a debugger that has been started, whatever lines are typed, whatever program is in memory,
whenever the worker runs an instruction and however long it is waited for: when a command has
returned, the machine is paused and no session goes on, and the traps in the core are those of the
breakpoints. -/
theorem returned_at_rest (core : Option FreeCore) (hstart : c.debugger.machine = .start core)
    (input : List InputLine) (hreach : Reaches c (prompt input c.debugger) s)
    (hreturned : s.Returned) :
    s.debugger.machine.paused = true ∧ s.debugger.machine.stepper = none ∧
      ∀ attached ∈ s.debugger.machine.core,
        attached.traps.handles.Perm s.debugger.machine.store.handles ∧
          ∀ handle t, attached.traps.find? handle = some t → t.tested = false := by
  have hsafe : (prompt input c.debugger).Safe := atRest_of_start hstart
  have hrest := (hsafe.reaches hreach).atRest hreturned
  exact ⟨hrest.paused, hrest.traps⟩

/-- A console that does not wait at all. -/
def hasty : Console where
  debugger := .ofCore (some (Stepper.routineCore 0xFFF0 [0x00, 0x00])) {}
  timeout := 0
  patience := 0

/-- A step is waited for in vain, ends before the console pauses the machine, and returns. -/
theorem returned_at_rest_late : ∃ s, Reaches hasty (prompt [.text "step"] hasty.debugger) s ∧
    s.Returned ∧ s.debugger.machine.lastStop = some 1 ∧
      s.debugger.machine.paused = true ∧ s.debugger.machine.stepper = none ∧
        ∀ attached ∈ s.debugger.machine.core,
          attached.traps.handles.Perm s.debugger.machine.store.handles ∧
            ∀ handle t, attached.traps.find? handle = some t → t.tested = false := by
  have hread : Step hasty (prompt [.text "step"] hasty.debugger)
      (busy (.reply [] (.step hasty Debugger.stepInto)) hasty.debugger) :=
    .read (fun _ => none) "step" [] _
  obtain ⟨s, hreach, hreturned, hstop⟩ :
      ∃ s, Reaches hasty (prompt [.text "step"] hasty.debugger) s ∧ s.Returned ∧
        s.debugger.machine.lastStop = some 1 :=
    ⟨_, .head hread (.head (.region Debugger.stepInto _ _) (.head (.await _ _)
      (.head (.work _) (reaches_run _ 0 _)))), ⟨_, rfl⟩, rfl⟩
  have hrest := returned_at_rest (some ⟨Stepper.routineCore 0xFFF0 [0x00, 0x00], rfl⟩) rfl
    [.text "step"] hreach hreturned
  exact ⟨s, hreach, hreturned, hstop, hrest⟩

end Dialogue

end Z80Debugger
