import Z80Debugger.Console.Prompt
import Z80Debugger.Proofs.Console.Procedure

/-!
# The procedures of the commands

Each command of the console is taken apart into the regions in which it has the machine: most
commands have one for what they do and others for what they print, and those that run the program
wait for it in between.  With a worker that runs the program only while it is waited for, the
procedures come to what the console replies (`Procedure.answer_handleLine`).
-/

set_option autoImplicit false

namespace Z80Debugger

namespace Procedure

/-- What a command gives back besides the debugger. -/
structure Answer where
  messages : List Message
  /-- The lines that are still to be read. -/
  input : List InputLine
  quits : Bool := false

/-- Prints the listing. -/
def listing : Procedure (List Message) := do
  let width ← look Report.addressWidth
  let rows ← act Debugger.disassembly
  let symbols ← look (·.symbols)
  return Message.outputs
    (if rows.isEmpty then [Report.noProgram] else rows.flatMap (Report.row symbols width))

/-- Waits until the machine is paused, and pauses it if that takes too long. -/
def settle (c : Console) : Procedure (List String) := do
  if ← wait then return []
  else
    change Debugger.pause
    return ["Still running after " ++ toString c.timeout ++ "s, paused"]

/-- Waits until the machine is paused, then prints where that is. -/
def waitForStop (c : Console) : Procedure (List Message) := do
  let lines ← settle c
  let place ← look fun d => match d.cpu? with
    | some cpu => [Report.stopped d.symbols cpu.registers.pc]
    | none => []
  change Debugger.goToPc
  let rows ← listing
  return Message.outputs (lines ++ place) ++ rows

/-- Starts a step and waits for its end. -/
def step (c : Console) (start : Debugger → Bool × Debugger) : Procedure (List Message) := do
  if ← act start then waitForStop c
  else return [.output "Cannot step: program is running or not loaded"]

/-- Adds or replaces the breakpoint that a text describes. -/
def define (existing : Option BreakpointId) (definition : String) : Procedure (List Message) := do
  match ← attempt fun d => d.setBreakpoint definition existing with
  | .error e => return [.failure e.message]
  | .ok none => return [.output Report.noProgram]
  | .ok (some id) =>
    let line ← look fun d =>
      if existing = some id then Report.breakpointChanged d id else Report.breakpointSet d id
    return [.output line]

/-- Adds or replaces a breakpoint; the next line of input describes it if the command does not. -/
def defineOrAsk (c : Console) (existing : Option BreakpointId) (definition : String)
    (input : List InputLine) : Procedure Answer := do
  if definition.isEmpty then
    match ← look fun d => (c.withDebugger d).canEdit existing, input with
    | .error e, _ => return { messages := [.failure e.message], input }
    | .ok (), [] => return { messages := [.failure "EOF"], input := [] }
    | .ok (), .garbled :: input =>
      return { messages := [.failure FileError.notText.message], input }
    | .ok (), .text line :: input =>
      return { messages := ← define existing (Text.trimmed line), input }
  else return { messages := ← define existing definition, input }

/-- Switches a breakpoint at the selected address. -/
def toggleSelected : Procedure (List Message) := do
  match ← act fun d => match d.toggleSelected with
      | some (toggle, after) => (some toggle, after)
      | none => (none, d) with
  | some (.added id) =>
    let line ← look (Report.breakpointSet · id)
    return [.output line]
  | some (.removed id) => return [.output (Report.breakpointDeleted id)]
  | none => return [.output Report.noProgram]

/-- Switches a breakpoint at an address, or at the selected one. -/
def toggle : Option String → Procedure (List Message)
  | none => toggleSelected
  | some address => do
    match ← attempt fun d => (d.goTo address).map ((), ·) with
    | .ok () => toggleSelected
    | .error e => return [.failure e.message]

/-- Changes a breakpoint and says what was done. -/
def changeBreakpoint (f : Debugger → Except LookupError Debugger) (done : String) :
    Procedure (List Message) := do
  match ← attempt fun d => (f d).map ((), ·) with
  | .ok () => return [.output done]
  | .error e => return [.failure e.message]

/-- Adds the symbols of a file. -/
def loadSymbols (files : Files) (name : String) : Procedure (List Message) := do
  match ← attempt fun d => d.loadSymbols name (files name) with
  | .ok count => return [.output ("Loaded " ++ toString count ++ " symbols from " ++ name)]
  | .error e => return [.failure e.message]

/-- Changes the window and prints the listing. -/
def navigate (f : Debugger → Debugger) : Procedure (List Message) := do
  change f
  listing

/-- Shows an address and prints the listing. -/
def goTo (address : String) : Procedure (List Message) := do
  match ← attempt fun d => (d.goTo address).map ((), ·) with
  | .ok () => listing
  | .error e => return [.failure e.message]

/-- Runs the program and waits for it. -/
def resume (c : Console) : Procedure (List Message) := do
  change Debugger.run
  let messages ← waitForStop c
  return .output "Continuing execution..." :: messages

/-- Prints lines about the debugger. -/
def print (f : Debugger → List String) : Procedure (List Message) := do
  let lines ← look f
  return Message.outputs lines

/-- A command that takes no further line. -/
def reply (input : List InputLine) (p : Procedure (List Message)) : Procedure Answer := do
  let messages ← p
  return { messages, input }

/-- Carries out a command; some commands take the next line of the input too. -/
def perform (c : Console) (files : Files) (input : List InputLine) : Command → Procedure Answer
  | .breakAt definition => defineOrAsk c none definition input
  | .edit id definition => defineOrAsk c (some id) definition input
  | .delete id =>
    reply input (changeBreakpoint (·.removeBreakpoint id) (Report.breakpointDeleted id))
  | .enable id =>
    reply input
      (changeBreakpoint (·.setEnabled id true) ("Breakpoint " ++ toString id ++ " enabled"))
  | .disable id =>
    reply input
      (changeBreakpoint (·.setEnabled id false) ("Breakpoint " ++ toString id ++ " disabled"))
  | .toggle address => reply input (toggle address)
  | .breakpoints => reply input (print Report.breakpoints)
  | .resume => reply input (resume c)
  | .step => reply input (step c Debugger.stepInto)
  | .next => reply input (step c Debugger.stepOver)
  | .finish => reply input (step c Debugger.finish)
  | .disassemble => reply input listing
  | .goTo address => reply input (goTo address)
  | .goToPc => reply input (navigate Debugger.goToPc)
  | .stack entry => reply input (navigate (·.goToStack entry))
  | .scroll delta => reply input (navigate (·.scroll delta))
  | .move direction => reply input (navigate (·.move direction))
  | .view view => reply input (navigate (·.setView view))
  | .registers => reply input (print fun d => match d.cpu? with
    | some cpu => Report.registers cpu.registers
    | none => [Report.noProgram])
  | .symbols file => reply input (loadSymbols files file)
  | .help => reply input (print fun _ => Report.help)
  | .quit => return { messages := [], input, quits := true }

/-- Carries out the command of a line that is not blank. -/
def handle (c : Console) (files : Files) (line : String) (input : List InputLine) :
    Procedure Answer :=
  match Command.parse? line with
  | none => return { messages := Message.outputs (Report.unknownCommand line), input }
  | some command => perform c files input command

/-- Carries out the command of a line; a blank line is passed over. -/
def handleLine (c : Console) (files : Files) (line : String) (input : List InputLine) :
    Procedure Answer :=
  let line := Text.trimmed line
  if line.isEmpty then return { messages := [], input } else handle c files line input

end Procedure

namespace Console

/-- What a procedure comes to with a worker that runs only while it is waited for. -/
def carryOut (c : Console) (p : Procedure (List Message)) : Console × List Message :=
  (c.withDebugger (p.run c.patience c.debugger).2, (p.run c.patience c.debugger).1)

/-- The reply that a command comes to in this way. -/
def answer (c : Console) (p : Procedure Procedure.Answer) : Reply where
  console := c.withDebugger (p.run c.patience c.debugger).2
  messages := (p.run c.patience c.debugger).1.messages
  input := (p.run c.patience c.debugger).1.input
  quits := (p.run c.patience c.debugger).1.quits

end Console

namespace Procedure

variable (c : Console)

/-- The listing is that of the console. -/
theorem carryOut_listing : c.carryOut listing = c.showListing := by
  have hsymbols : c.debugger.disassembly.2.symbols = c.debugger.symbols := by
    unfold Debugger.disassembly
    split <;> rfl
  have hrun : listing.run c.patience c.debugger =
      (Message.outputs (if c.debugger.disassembly.1.isEmpty then [Report.noProgram] else
        c.debugger.disassembly.1.flatMap (Report.row c.debugger.disassembly.2.symbols
          (Report.addressWidth c.debugger))), c.debugger.disassembly.2) := rfl
  rw [Console.carryOut, hrun, hsymbols]
  rfl

/-- Waiting for a stop leaves the debugger that the console waits for. -/
theorem run_settle : (settle c).run c.patience c.debugger = (c.settle.2, c.settle.1) := by
  unfold settle Console.settle
  simp only [run_bind, run_wait]
  by_cases hpaused : (c.debugger.machine.runUntilPaused c.patience).paused
  · simp only [hpaused, if_true]
    rfl
  · simp only [hpaused]
    rfl

/-- Waiting reports as the console does. -/
theorem carryOut_waitForStop : c.carryOut (waitForStop c) = c.waitForStop := by
  have hlisting := carryOut_listing (c.withDebugger c.settle.1.goToPc)
  unfold waitForStop Console.waitForStop Console.carryOut
  simp only [run_bind, run_settle]
  rw [← hlisting]
  rfl

/-- A step starts and waits as the console's does. -/
theorem carryOut_step (start : Debugger → Bool × Debugger) :
    c.carryOut (step c start) = c.step start := by
  unfold Console.step Console.carryOut step
  rcases hstart : start c.debugger with ⟨_ | _, after⟩
  · simp [hstart]
  · simp only [run_bind, run_act, hstart]
    exact carryOut_waitForStop (c.withDebugger after)

/-- Defining a breakpoint reports as the console does. -/
theorem carryOut_define (existing : Option BreakpointId) (definition : String) :
    c.carryOut (define existing definition) = c.define existing definition := by
  unfold Console.define Console.carryOut define
  cases hset : c.debugger.setBreakpoint definition existing with
  | error e => simp [hset, Console.withDebugger]
  | ok pair =>
    obtain ⟨_ | id, after⟩ := pair
    · simp [hset]
    · simp [hset]

/-- So does defining one from the next line of input. -/
theorem answer_defineOrAsk (existing : Option BreakpointId) (definition : String)
    (input : List InputLine) :
    c.answer (defineOrAsk c existing definition input) =
      c.defineOrAsk existing definition input := by
  have hdefine (definition : String) (input : List InputLine) :
      c.answer (do return { messages := ← define existing definition, input }) =
        { console := (c.define existing definition).1,
          messages := (c.define existing definition).2, input } := by
    rw [← carryOut_define]
    simp [Console.answer, Console.carryOut]
  unfold defineOrAsk Console.defineOrAsk
  split
  · cases hedit : c.canEdit existing with
    | error e => simp [Console.answer, hedit, Console.withDebugger]
    | ok =>
      rcases input with _ | ⟨_ | _, input⟩
      · simp [Console.answer, hedit, Console.withDebugger]
      · simp only
        rw [← hdefine]
        simp [Console.answer, hedit, Console.withDebugger]
      · simp [Console.answer, hedit, Console.withDebugger]
  · exact hdefine definition input

/-- Toggling the selected line reports as the console does. -/
theorem carryOut_toggleSelected : c.carryOut toggleSelected = c.toggleSelected := by
  unfold Console.toggleSelected Console.carryOut toggleSelected
  cases htoggle : c.debugger.toggleSelected with
  | none => simp [htoggle, Console.withDebugger]
  | some pair =>
    obtain ⟨_ | _, after⟩ := pair
    · simp [htoggle]
    · simp [htoggle]

/-- Toggling an address reports as the console does. -/
theorem carryOut_toggle (address : Option String) :
    c.carryOut (toggle address) = c.toggle address := by
  cases address with
  | none => exact carryOut_toggleSelected c
  | some address =>
    unfold toggle Console.toggle
    cases hgo : c.debugger.goTo address with
    | error e => simp [Console.carryOut, hgo, Except.map, Console.withDebugger]
    | ok after =>
      simp only [hgo]
      rw [← carryOut_toggleSelected]
      simp [Console.carryOut, hgo, Except.map, Console.withDebugger]

/-- A change of a breakpoint reports as the console does. -/
theorem carryOut_changeBreakpoint (f : Debugger → Except LookupError Debugger) (done : String) :
    c.carryOut (changeBreakpoint f done) = c.change (f c.debugger) done := by
  unfold changeBreakpoint Console.change Console.carryOut
  cases hchange : f c.debugger with
  | error e => simp [hchange, Except.map, Console.withDebugger]
  | ok after => simp [hchange, Except.map]

/-- Loading symbols reports as the console does. -/
theorem carryOut_loadSymbols (files : Files) (name : String) :
    c.carryOut (loadSymbols files name) = c.loadSymbols files name := by
  unfold loadSymbols Console.loadSymbols Console.carryOut
  cases hload : c.debugger.loadSymbols name (files name) with
  | error e => simp [hload, Console.withDebugger]
  | ok pair => simp [hload]

/-- Moving the cursor shows the listing that the console shows. -/
theorem carryOut_navigate (f : Debugger → Debugger) :
    c.carryOut (navigate f) = c.navigate (f c.debugger) :=
  carryOut_listing (c.withDebugger (f c.debugger))

/-- Going to an address shows the listing there, or reports the error. -/
theorem carryOut_goTo (address : String) :
    c.carryOut (goTo address) = match c.debugger.goTo address with
      | .ok after => c.navigate after
      | .error e => (c, [.failure e.message]) := by
  unfold goTo Console.carryOut
  cases hgo : c.debugger.goTo address with
  | error e => simp [hgo, Except.map, Console.withDebugger]
  | ok after =>
    simp only [Console.navigate]
    rw [← carryOut_listing]
    simp [Console.carryOut, hgo, Except.map, Console.withDebugger]

/-- Running on reports so and waits for the next stop. -/
theorem carryOut_resume :
    c.carryOut (resume c) = ((c.withDebugger c.debugger.run).waitForStop.1,
      .output "Continuing execution..." :: (c.withDebugger c.debugger.run).waitForStop.2) := by
  rw [← carryOut_waitForStop]
  unfold resume Console.carryOut
  simp only [run_bind, run_change, run_pure]
  rfl

/-- Printing changes nothing. -/
theorem carryOut_print (f : Debugger → List String) :
    c.carryOut (print f) = (c, Message.outputs (f c.debugger)) := rfl

/-- A reply leaves the rest of the input. -/
theorem answer_reply (input : List InputLine) (p : Procedure (List Message)) :
    c.answer (reply input p) =
      { console := (c.carryOut p).1, messages := (c.carryOut p).2, input } := by
  unfold reply Console.answer Console.carryOut
  simp only [run_bind, run_pure]

/-- Carrying out a command gives the console's answer. -/
theorem answer_perform (files : Files) (input : List InputLine) (command : Command) :
    c.answer (perform c files input command) = c.perform files input command := by
  cases command <;> unfold perform Console.perform
  case breakAt | edit => exact answer_defineOrAsk c _ _ _
  case quit => rfl
  all_goals simp only [answer_reply]
  case delete | enable | disable => rw [carryOut_changeBreakpoint]; rfl
  case toggle => rw [carryOut_toggle]; rfl
  case resume => rw [carryOut_resume]; rfl
  case step | next | finish => rw [carryOut_step]; rfl
  case disassemble => rw [carryOut_listing]; rfl
  case goTo address =>
    rw [carryOut_goTo]
    cases c.debugger.goTo address <;> rfl
  case goToPc | stack | scroll | move | view => rw [carryOut_navigate]; rfl
  case symbols => rw [carryOut_loadSymbols]; rfl
  case breakpoints | help => rfl
  case registers =>
    rw [carryOut_print]
    cases c.debugger.cpu? <;> rfl

/-- So does handling a line. -/
theorem answer_handle (files : Files) (line : String) (input : List InputLine) :
    c.answer (handle c files line input) = c.handle files line input := by
  unfold handle Console.handle
  cases Command.parse? line with
  | none => rfl
  | some command => exact answer_perform c files input command

/-- With a worker that runs the program only while it is waited for, a line comes to what the
console replies to it. -/
theorem answer_handleLine (files : Files) (line : String) (input : List InputLine) :
    c.answer (handleLine c files line input) = c.handleLine files line input := by
  unfold handleLine Console.handleLine
  by_cases hblank : (Text.trimmed line).isEmpty
  · simp only [hblank, if_true]
    rfl
  · simp only [hblank, Bool.false_eq_true, if_false]
    exact answer_handle c files _ input

/-- The procedure for a command does not depend on the debugger that the console has. -/
theorem perform_withDebugger (d : Debugger) (files : Files) (input : List InputLine)
    (command : Command) :
    perform (c.withDebugger d) files input command = perform c files input command := by
  cases command <;> rfl

/-- A command looks at the debugger only within its regions, so the procedure is the same whatever
debugger the console has. -/
theorem handleLine_withDebugger (d : Debugger) (files : Files) (line : String)
    (input : List InputLine) :
    handleLine (c.withDebugger d) files line input = handleLine c files line input := by
  unfold handleLine handle
  simp only [perform_withDebugger]

end Procedure

end Z80Debugger
