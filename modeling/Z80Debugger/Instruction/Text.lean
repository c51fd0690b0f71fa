import Z80Debugger.Instruction.Decode
import Z80Debugger.Text.Hex

/-!
# Instructions as text

Numbers are written in capital hexadecimal behind a dollar sign, a byte with two digits and a word
with four.  A word that has a name is written as that name; the target of a relative jump is always
a number.
-/

set_option autoImplicit false

namespace Z80Debugger

/-- A byte as two digits. -/
def byteText (b : UInt8) : String := "$" ++ Text.Hex.text 2 b.toNat

/-- A word as four digits. -/
def wordText (w : UInt16) : String := "$" ++ Text.Hex.text 4 w.toNat

namespace IndexRegister

/-- The register's name. -/
def text : IndexRegister → String
  | ix => "ix"
  | iy => "iy"

end IndexRegister

namespace Register8

/-- The register's name. -/
def text : Register8 → String
  | b => "b"
  | c => "c"
  | d => "d"
  | e => "e"
  | h => "h"
  | l => "l"
  | a => "a"

end Register8

namespace Pair

/-- The pair's name. -/
def text : Pair → String
  | bc => "bc"
  | de => "de"
  | hl => "hl"
  | sp => "sp"
  | af => "af"
  | index x => x.text

end Pair

namespace Operand

/-- The distance from an index register, with its sign. -/
def distanceText (d : UInt8) : String :=
  if displacement d < 0 then "-" ++ "$" ++ Text.Hex.text 2 (displacement d).natAbs
  else "+" ++ byteText d

/-- The operand as it is written. -/
def text : Operand → String
  | register r => r.text
  | atHl => "(hl)"
  | atIndex x d => "(" ++ x.text ++ distanceText d ++ ")"
  | highHalf x => x.text ++ "h"
  | lowHalf x => x.text ++ "l"

end Operand

namespace AluOp

/-- The mnemonic up to the operand. -/
def text : AluOp → String
  | add => "add a,"
  | adc => "adc a,"
  | sub => "sub "
  | sbc => "sbc a,"
  | and => "and "
  | xor => "xor "
  | or => "or "
  | cp => "cp "

end AluOp

namespace AccumulatorOp

/-- The mnemonic. -/
def text : AccumulatorOp → String
  | rlca => "rlca"
  | rrca => "rrca"
  | rla => "rla"
  | rra => "rra"
  | daa => "daa"
  | cpl => "cpl"
  | scf => "scf"
  | ccf => "ccf"

end AccumulatorOp

namespace ShiftOp

/-- The mnemonic. -/
def text : ShiftOp → String
  | rlc => "rlc"
  | rrc => "rrc"
  | rl => "rl"
  | rr => "rr"
  | sla => "sla"
  | sra => "sra"
  | sll => "sll"
  | srl => "srl"

end ShiftOp

namespace BlockOp

/-- The mnemonic; the repeated output instructions drop one letter of their stem. -/
def text (op : BlockOp) (downward repeated : Bool) : String :=
  let stem := match op with
    | load => "ld"
    | compare => "cp"
    | input => "in"
    | output => if repeated then "ot" else "out"
  stem ++ (if downward then "d" else "i") ++ (if repeated then "r" else "")

end BlockOp

namespace SystemOp

/-- The mnemonic with its operands. -/
def text : SystemOp → String
  | loadIA => "ld i,a"
  | loadRA => "ld r,a"
  | loadAI => "ld a,i"
  | loadAR => "ld a,r"
  | rrd => "rrd"
  | rld => "rld"
  | noOperation => "nop*"

end SystemOp

namespace Instruction

/-- A condition and the comma behind it, or nothing. -/
def conditionText : Option Condition → String
  | none => ""
  | some c => c.text ++ ","

/-- The target of a relative jump, counted from the 32-bit address behind the instruction: the sum
is an integer, of which the low 16 bits are kept. -/
def relativeTarget (next : UInt32) (d : UInt8) : UInt32 :=
  UInt32.ofInt (next.toNat + displacement d) &&& 0xFFFF

/-- The instruction as it is written, where `names` gives names to words and `next` is the address
behind the instruction. -/
def text (names : UInt32 → Option String) (next : UInt32) : Instruction → String
  | nop => "nop"
  | exAf => "ex af,af'"
  | djnz d => "djnz " ++ target d
  | jumpRelative c d => "jr " ++ conditionText c ++ target d
  | loadPair p w => "ld " ++ p.text ++ "," ++ word w
  | addPair dst src => "add " ++ dst.text ++ "," ++ src.text
  | storeAtPair p => "ld (" ++ p.text ++ "),a"
  | fetchAtPair p => "ld a,(" ++ p.text ++ ")"
  | storePair w p => "ld (" ++ word w ++ ")," ++ p.text
  | fetchPair p w => "ld " ++ p.text ++ ",(" ++ word w ++ ")"
  | storeA w => "ld (" ++ word w ++ "),a"
  | fetchA w => "ld a,(" ++ word w ++ ")"
  | incPair p => "inc " ++ p.text
  | decPair p => "dec " ++ p.text
  | inc o => "inc " ++ o.text
  | dec o => "dec " ++ o.text
  | load o n => "ld " ++ o.text ++ "," ++ byteText n
  | accumulator op => op.text
  | halt => "halt"
  | move dst src => "ld " ++ dst.text ++ "," ++ src.text
  | alu op o => op.text ++ o.text
  | aluImmediate op n => op.text ++ byteText n
  | ret none => "ret"
  | ret (some c) => "ret " ++ c.text
  | pop p => "pop " ++ p.text
  | push p => "push " ++ p.text
  | exx => "exx"
  | jumpPair p => "jp (" ++ p.text ++ ")"
  | loadSp p => "ld sp," ++ p.text
  | jump c w => "jp " ++ conditionText c ++ word w
  | call c w => "call " ++ conditionText c ++ word w
  | restart v => "rst " ++ byteText v
  | output port => "out (" ++ byteText port ++ "),a"
  | input port => "in a,(" ++ byteText port ++ ")"
  | exStack p => "ex (sp)," ++ p.text
  | exDeHl => "ex de,hl"
  | disableInterrupts => "di"
  | enableInterrupts => "ei"
  | shift op o => op.text ++ " " ++ o.text
  | testBit b o => "bit " ++ Text.Hex.text 1 b ++ "," ++ o.text
  | resetBit b o => "res " ++ Text.Hex.text 1 b ++ "," ++ o.text
  | setBit b o => "set " ++ Text.Hex.text 1 b ++ "," ++ o.text
  | inputC none => "in (c)"
  | inputC (some r) => "in " ++ r.text ++ ",(c)"
  | outputC none => "out (c),0"
  | outputC (some r) => "out (c)," ++ r.text
  | subtractPair p => "sbc hl," ++ p.text
  | addPairCarry p => "adc hl," ++ p.text
  | negate => "neg"
  | retInterrupt => "reti"
  | retNonMaskable => "retn"
  | interruptMode m => "im " ++ Text.Hex.text 1 m
  | system op => op.text
  | block op downward repeated => op.text downward repeated
  | undefinedExtended op => "db $ED," ++ byteText op
  | strayPrefix x => "db " ++ byteText x.prefixByte
where
  word (w : UInt16) : String := (names w.toUInt32).getD (wordText w)
  target (d : UInt8) : String := "$" ++ Text.Hex.text 4 (relativeTarget next d).toNat

end Instruction

end Z80Debugger
