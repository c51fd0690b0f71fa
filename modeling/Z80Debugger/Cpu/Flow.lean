import Z80Debugger.Cpu.Condition

/-!
# Flow of control by opcode

An opcode value is the opcode byte, or the prefix byte over it for the prefixes CB, DD, ED and FD.
`Flow.ofOpcode` says what an opcode does to the flow of control; an index prefix (DD or FD) does not
change that, and no opcode behind CB has an effect on it.
-/

set_option autoImplicit false

namespace Z80Debugger

/-- What an instruction does to the flow of control. -/
inductive Flow where
  | call
  | conditionalCall (condition : Condition)
  | restart
  | ret
  | conditionalRet (condition : Condition)
  | interruptRet
  | jump
  | indirectJump
  /-- A jump that may fall through; `djnz` tests a register and no flag. -/
  | branch (condition : Option Condition)
  | halt
  | other
  deriving DecidableEq, Repr

namespace Flow

/-- Whether control may go elsewhere without coming back behind the instruction. -/
def transfersControl : Flow → Bool
  | jump | indirectJump | branch _ | ret | conditionalRet _ | interruptRet => true
  | _ => false

/-- The condition on the flags that the flow depends on, if it does. -/
def condition? : Flow → Option Condition
  | conditionalCall c | conditionalRet c => some c
  | branch c => c
  | _ => none

/-- The flow of an opcode byte without a prefix. -/
def ofByte (op : UInt8) : Flow :=
  let condition := Condition.ofCode (op >>> 3)
  if op == 0x76 then halt
  else if op == 0xCD then call
  else if op == 0xC9 then ret
  else if op == 0xC3 || op == 0x18 then jump
  else if op == 0xE9 then indirectJump
  else if op == 0x10 then branch none
  else if op == 0x20 || op == 0x28 || op == 0x30 || op == 0x38 then
    branch (some (Condition.ofCode ((op >>> 3) &&& 3)))
  else if op &&& 0xC7 == 0xC4 then conditionalCall condition
  else if op &&& 0xC7 == 0xC7 then restart
  else if op &&& 0xC7 == 0xC0 then conditionalRet condition
  else if op &&& 0xC7 == 0xC2 then branch (some condition)
  else other

/-- An opcode behind an index prefix counts as the opcode alone. -/
def withoutIndexPrefix (op : UInt32) : UInt32 :=
  if op >>> 8 == 0xDD || op >>> 8 == 0xFD then op &&& 0xFF else op

/-- The flow of an opcode value. -/
def ofOpcode (value : UInt32) : Flow :=
  let op := withoutIndexPrefix value
  if op ≤ 0xFF then ofByte op.toUInt8
  else if op &&& 0xFFC7 == 0xED45 then interruptRet
  else other

end Flow

end Z80Debugger
