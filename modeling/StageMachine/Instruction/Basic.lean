import StageMachine.Instruction.Field
import StageMachine.Numeral.Basic
import StageMachine.Text.Upper

/-! Instructions: what can be done, and one assembled line with its sixteen bits and its typed fields.
Only the bits decide which parts of the machine are switched on; the typed fields say which registers
and numbers take part. -/
namespace StageMachine

/-- The operations of the machine. -/
inductive Opcode where
  | add | sub | and | or | addi | ldi | load | store | jmp | brz | mov | nop
  deriving DecidableEq, Repr

namespace Opcode

def all : List Opcode := [add, sub, and, or, addi, ldi, load, store, jmp, brz, mov, nop]

def name : Opcode → Text
  | add => "ADD".toList
  | sub => "SUB".toList
  | and => "AND".toList
  | or => "OR".toList
  | addi => "ADDI".toList
  | ldi => "LDI".toList
  | load => "LOAD".toList
  | store => "STORE".toList
  | jmp => "JMP".toList
  | brz => "BRZ".toList
  | mov => "MOV".toList
  | nop => "NOP".toList

/-- The first seven bits of the word. `mov` is a second name for `ldi` and has its bits. -/
def bits : Opcode → Text
  | add => "0000010".toList
  | sub => "0000101".toList
  | and => "0001000".toList
  | or => "0001001".toList
  | addi => "1000010".toList
  | ldi => "1001100".toList
  | load => "0010000".toList
  | store => "0100000".toList
  | brz => "1100000".toList
  | jmp => "1110000".toList
  | mov => "1001100".toList
  | nop => "0000000".toList

def ofName? (t : Text) : Option Opcode := all.find? (·.name == t)

/-- The opcode with these bits, `ldi` for the bits that two opcodes share. -/
def ofBits? (t : Text) : Option Opcode := all.find? fun op => op != mov && op.bits == t

end Opcode

def opcodeWidth : Nat := 7

def wordWidth : Nat := 16

/-- The bits of a word that does nothing. -/
def idleOpcode : Text := "0000000".toList

/-- One assembled line. -/
structure Instruction where
  /-- The operation as it was written, also where it names no opcode. -/
  mnemonic : Text := []
  opcode : Option Opcode := none
  /-- The instruction word. -/
  binary : Text := List.replicate wordWidth '0'
  /-- The register that takes the result. -/
  dest : Option Int := none
  src1 : Option Int := none
  src2 : Option Int := none
  immediate : Option Int := none
  /-- The distance of a branch. -/
  address : Option Int := none
  /-- The line without the white space around it. -/
  raw : Text := []
  /-- The number of the line, from one. -/
  line : Int := 0
  /-- The place in the program, from zero. -/
  index : Int := 0
  deriving DecidableEq, Repr

namespace Instruction

def opcodeBits (i : Instruction) : Text := i.binary.take opcodeWidth

end Instruction

/-- A number in at least four capital hexadecimal digits, a minus sign taking the place of one. -/
def hexWord (v : Int) : Text :=
  let digits := Text.upper (Nat.toDigits 16 v.natAbs)
  if v < 0 then '-' :: digits.leftpad 3 '0' else digits.leftpad 4 '0'

def Instruction.hex (i : Instruction) : Except Fault Text :=
  return hexWord (← Numeral.read .binary i.binary)

end StageMachine
