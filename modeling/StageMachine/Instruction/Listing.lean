import StageMachine.Instruction.Basic

/-! Instructions as assembly again, from their typed fields or from their words alone. A word cannot
tell a missing operand from zero, so a listing of words shows every operand. -/
namespace StageMachine

/-- A register operand, register 0 where none is given. -/
def registerName (register : Option Int) : Except Fault Text :=
  return 'R' :: (← Numeral.decimal (register.getD 0))

/-- A numeric operand, zero where none is given. -/
def numberName (value : Option Int) : Except Fault Text := Numeral.decimal (value.getD 0)

namespace Opcode

/-- The operands that are shown for an opcode, in order. -/
def operands (dest src1 src2 immediate address : Option Int) : Opcode → List (Except Fault Text)
  | add | sub | and | or => [registerName dest, registerName src1, registerName src2]
  | addi => [registerName dest, registerName src1, numberName immediate]
  | ldi | mov => [registerName dest, numberName immediate]
  | load => [registerName dest, registerName src1]
  | store => [registerName src1, registerName src2]
  | brz => [registerName src1, numberName address]
  | jmp => [registerName src1]
  | nop => []

def render (op : Opcode) (dest src1 src2 immediate address : Option Int) : Except Fault Text := do
  match ← (op.operands dest src1 src2 immediate address).mapM id with
  | [] => return op.name
  | shown => return op.name ++ ' ' :: Text.joined [',', ' '] shown

end Opcode

/-- An instruction in assembly, from its typed fields; a mnemonic that names no opcode is kept. -/
def Instruction.render (i : Instruction) : Except Fault Text :=
  match i.opcode with
  | none => .ok i.mnemonic
  | some op => op.render i.dest i.src1 i.src2 i.immediate i.address

/-- A three-bit number read as two's complement. -/
def signedField (value : Int) : Int := if value / 4 % 2 = 1 then value - 8 else value

/-- A word in assembly. A word with no known opcode is shown as data. -/
def wordText (word : Text) : Except Fault Text := do
  if word.length ≠ wordWidth then throw (.wordLength word)
  match Opcode.ofBits? (word.take opcodeWidth) with
  | none => return "DW $".toList ++ hexWord (← Numeral.read .binary word)
  | some op =>
    let dest ← Numeral.read .binary ((word.drop 7).take fieldWidth)
    let src1 ← Numeral.read .binary ((word.drop 10).take fieldWidth)
    let last ← Numeral.read .binary ((word.drop 13).take fieldWidth)
    op.render dest src1 last last (signedField last)

/-- A line of a listing. -/
structure ListingLine where
  index : Nat
  hex : Text
  text : Text
  deriving DecidableEq, Repr

def listingLine (index : Nat) (i : Instruction) : Except Fault ListingLine :=
  return { index, hex := ← i.hex, text := ← wordText i.binary }

/-- The instructions of a program from the place `start` up to `start + length`, as far as it goes. -/
def listing (program : List Instruction) (start length : Int) : Except Fault (List ListingLine) :=
  let first := start.toNat
  let shown := (program.take (start + length).toNat).drop first
  (shown.zipIdx first).mapM fun (i, index) => listingLine index i

end StageMachine
