import StageMachine.Instruction.Basic
import StageMachine.Report

/-! Assembly, one instruction a line. A line that holds anything before its comment becomes an
instruction, so that the places of the others do not shift; what is missing or malformed counts as
zero and is remarked on. -/
namespace StageMachine.Assembly

def isSeparator (c : Char) : Bool := Text.isBlank c || c == ','

def tokens (line : Text) : List Text :=
  (Text.splitWhen isSeparator (line.takeWhile (· != ';'))).filter (!·.isEmpty)

def opcode? (mnemonic : Text) : Option Opcode :=
  if mnemonic = "LD".toList then some .load
  else if mnemonic = "ST".toList then some .store
  else Opcode.ofName? mnemonic

/-- A token without the letter that marks a register, wherever it stands. -/
def dropLetter : Text → Text
  | [] => []
  | c :: rest => if c = 'r' ∨ c = 'R' then rest else c :: dropLetter rest

def registerCount : Int := 8

def register (line : Nat) (token : Text) : Report Int := do
  match ← Numeral.leadingInt? (dropLetter token) with
  | none =>
    Report.note (.malformedRegister line token)
    return 0
  | some value =>
    let reduced := value % registerCount
    if reduced = value then return value
    Report.note (.reducedRegister line token reduced)
    return reduced

def number (line : Nat) (token : Text) : Report Int := do
  match ← Numeral.leadingInt? token with
  | none =>
    Report.note (.malformedNumber line token)
    return 0
  | some value => return value

/-- The register at a place among the operands, register 0 where the operands end before. -/
def registerAt (line : Nat) (operands : List Text) (place : Nat) : Report (Option Int) :=
  match operands[place]? with
  | some token => some <$> register line token
  | none => do
    Report.note (.missingRegister line (place + 1))
    return some 0

/-- The number at a place among the operands, zero where the operands end before. -/
def numberAt (line : Nat) (operands : List Text) (place : Nat) : Report (Option Int) :=
  match operands[place]? with
  | some token => some <$> number line token
  | none => do
    Report.note (.missingNumber line (place + 1))
    return some 0

def registerAt? (line : Nat) (operands : List Text) (place : Nat) : Report (Option Int) :=
  match operands[place]? with
  | some token => some <$> register line token
  | none => return none

/-- The typed fields of an instruction. -/
structure Fields where
  dest : Option Int := none
  src1 : Option Int := none
  src2 : Option Int := none
  immediate : Option Int := none
  address : Option Int := none
  deriving DecidableEq, Repr

/-- The value of the last field of the word. -/
def Fields.last (f : Fields) : Option Int := f.src2 <|> f.immediate <|> f.address

def fields (line : Nat) (operands : List Text) : Option Opcode → Report Fields
  | some .add | some .sub | some .and | some .or => do
    let dest ← registerAt? line operands 0
    let src1 ← registerAt? line operands 1
    let src2 ← registerAt? line operands 2
    return { dest, src1, src2 }
  | some .addi => do
    let dest ← registerAt line operands 0
    let src1 ← registerAt line operands 1
    let immediate ← numberAt line operands 2
    return { dest, src1, immediate }
  | some .ldi | some .mov => do
    let dest ← registerAt line operands 0
    let immediate ← numberAt line operands 1
    return { dest, immediate }
  | some .load => do
    let dest ← registerAt line operands 0
    let src1 ← registerAt line operands 1
    return { dest, src1 }
  | some .store => do
    let src1 ← registerAt line operands 0
    let src2 ← registerAt line operands 1
    return { src1, src2 }
  | some .brz => do
    let src1 ← registerAt line operands 0
    let address ← numberAt line operands 1
    return { src1, address }
  | some .jmp => do
    let src1 ← registerAt line operands 0
    return { src1 }
  | some .nop | none => return {}

def instruction (mnemonic raw : Text) (line index : Nat) (opcode : Option Opcode) (f : Fields) :
    Instruction where
  mnemonic
  opcode
  binary := wordBits ((opcode.map Opcode.bits).getD idleOpcode) f.dest f.src1 f.last
  dest := f.dest
  src1 := f.src1
  src2 := f.src2
  immediate := f.immediate
  address := f.address
  raw
  line
  index

/-- Assembles a line that is not blank and is no comment. -/
def assembleLine (raw : Text) (line index : Nat) : Report Instruction :=
  match tokens raw with
  | [] => do
    Report.note (.noTokens line)
    return instruction [] raw line index none {}
  | word :: operands => do
    let mnemonic := Text.upper word
    let opcode := opcode? mnemonic
    let f ← fields line operands opcode
    if opcode.isNone then Report.note (.unknownMnemonic line mnemonic)
    return instruction mnemonic raw line index opcode f

/-- A line that becomes an instruction: not blank, and not a comment from its start. -/
def isCode (trimmed : Text) : Bool := !trimmed.isEmpty && trimmed.head? != some ';'

/-- Assembles lines; `line` is the number of the first one and `index` the place of its instruction. -/
def assembleLines (line index : Nat) : List Text → Report (List Instruction)
  | [] => return []
  | text :: rest =>
    let trimmed := Text.trim text
    if isCode trimmed then do
      let first ← assembleLine trimmed line index
      let others ← assembleLines (line + 1) (index + 1) rest
      return first :: others
    else assembleLines (line + 1) index rest

def assemble (source : Text) : Report (List Instruction) :=
  assembleLines 1 0 (Text.lines source)

end StageMachine.Assembly
