import Z80Debugger.Core
import Z80Debugger.Disassembly

/-!
# Stepping

A step session runs the core until one instruction is done (`into`), until control is behind the
instruction (`over`), or until the routine has returned (`finish`).  It owns one tested trap, its
trampoline, and its test decides when to stop.  A session starts with a trampoline that every opcode
hits; stepping over moves it, once the instruction has run, to the address where the step is to end.
When a session stops, its trampoline is gone.
-/

set_option autoImplicit false

namespace Z80Debugger

/-- What a session waits for. -/
inductive StepKind where
  /-- The end of one instruction; a halt lasts until an interrupt ends it. -/
  | into
  /-- The end of the instruction, whose successor in memory is at `after`. -/
  | over (after : UInt16)
  /-- The instruction at `target`, on the way to which the step has run its first one. -/
  | armed (after target : UInt16)
  /-- A return while the stack is shorter than it was. -/
  | finish (threshold : UInt16)
  deriving DecidableEq, Repr

/-- A step session. -/
structure Session where
  kind : StepKind
  trampoline : Handle
  deriving DecidableEq, Repr

/-- The session that is going on, if there is one. -/
abbrev Stepper : Type := Option Session

namespace Trap

/-- The trap that every opcode hits. -/
def everyOpcode : Trap := { kind := .opcode, first := 0, last := 0, mask := 0, tested := true }

/-- The tested trap on running the instruction at an address. -/
def reaching (target : UInt16) : Trap where
  kind := .memoryExec
  first := target.toUInt32
  last := target.toUInt32
  mask := 0xFFFF
  tested := true

end Trap

namespace Stepper

/-- Ends the session, if there is one, and removes its trampoline. -/
def cancel (s : Stepper) (ts : Traps) : Traps :=
  match s with
  | some session => ts.erase session.trampoline
  | none => ts

/-- Starts a session in the place of the one that is going on.  No session is left if its trampoline
is refused. -/
def start (s : Stepper) (ts : Traps) (kind : StepKind) : Stepper × Traps :=
  let ts := s.cancel ts
  match ts.add? .everyOpcode with
  | some (trampoline, ts) => (some { kind, trampoline }, ts)
  | none => (none, ts)

/-- The address behind the instruction at the program counter; one byte on if the disassembler
cannot tell or says that the instruction takes no room. -/
def addressAfter (disassembler : Disassembler) (c : Cpu) : UInt16 :=
  let pc := c.registers.pc
  match disassembler c .logical pc.toUInt32 with
  | some line => if line.next.toUInt16 ≠ pc then line.next.toUInt16 else pc + 1
  | none => pc + 1

/-- Steps into the next instruction. -/
def stepInto (s : Stepper) (ts : Traps) : Stepper × Traps := s.start ts .into

/-- Steps over the next instruction. -/
def stepOver (s : Stepper) (disassembler : Disassembler) (c : Cpu) (ts : Traps) :
    Stepper × Traps :=
  s.start ts (.over (addressAfter disassembler c))

/-- Runs until the routine returns. -/
def finish (s : Stepper) (c : Cpu) (ts : Traps) : Stepper × Traps :=
  s.start ts (.finish c.registers.sp)

/-- Whether `into` is done after an opcode: a halt is not, until an interrupt will be served. -/
def intoIsDone (c : Cpu) (opcode : UInt32) : Bool :=
  Flow.ofOpcode opcode != .halt || (c.registers.iff1 && c.interruptPending)

/-- Whether `finish` is done after an opcode: it returned, and left the stack shorter. -/
def finishIsDone (c : Cpu) (threshold : UInt16) (opcode : UInt32) : Bool :=
  threshold < c.registers.sp &&
    match Flow.ofOpcode opcode with
    | .ret | .indirectJump | .interruptRet => true
    | .conditionalRet condition => condition.holds c.registers.f
    | _ => false

/-- Where a step over an instruction ends, once it has run: where it went if it transfers control,
and behind it otherwise. -/
def overTarget (c : Cpu) (after : UInt16) (opcode : UInt32) : UInt16 :=
  if (Flow.ofOpcode opcode).transfersControl then c.registers.pc else after

/-- Moves the trampoline to where the step is to end; the step ends at once if that is refused. -/
def arm (session : Session) (c : Cpu) (after : UInt16) (opcode : UInt32) (ts : Traps) :
    Bool × Traps × Session :=
  let target := overTarget c after opcode
  let ts := ts.erase session.trampoline
  match ts.add? (.reaching target) with
  | some (trampoline, ts) => (false, ts, { kind := .armed after target, trampoline })
  | none => (true, ts, session)

/-- Whether a session stops now, and the session if it goes on. -/
def evaluate (session : Session) (c : Cpu) (opcode : UInt32) (ts : Traps) :
    Bool × Traps × Session :=
  match session.kind with
  | .into => (intoIsDone c opcode, ts, session)
  | .finish threshold => (finishIsDone c threshold opcode, ts, session)
  | .armed _ _ => (true, ts, session)
  | .over after => arm session c after opcode ts

/-- The test of the trampoline.  A handle that is not the session's own stops. -/
def test : Test Stepper := fun c h opcode (ts, stepper) =>
  match stepper with
  | none => (true, ts, none)
  | some session =>
    if session.trampoline = h then
      match evaluate session c opcode ts with
      | (true, ts, session) => (true, ts.erase session.trampoline, none)
      | (false, ts, session) => (false, ts, some session)
    else (true, ts, some session)

end Stepper

end Z80Debugger
