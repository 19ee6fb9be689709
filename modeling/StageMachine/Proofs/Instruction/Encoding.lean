import StageMachine.Proofs.Instruction.Joining
import StageMachine.Proofs.Instruction.Relisting
import StageMachine.Proofs.Machine.Cycle

/-! What the word of an assembled instruction says. Its bits are those of the opcode and of the typed fields,
each field in its own place; which fields are set, and which parts of the machine the word switches on, is a
matter of the opcode alone. -/
namespace StageMachine

/-- Three bits that hold a value modulo 8, or zeros where there is none. -/
def FieldHolds (bits : Text) : Option Int → Prop
  | none => bits = "000".toList
  | some value => Numeral.read .binary bits = .ok (value % 8)

theorem fieldHolds_fieldBits (value : Option Int) : FieldHolds (fieldBits fieldWidth value) value := by
  cases value with
  | none => rfl
  | some v => exact read_fieldBits (by decide) (by decide) (some v)

namespace Assembly

inductive Slot where
  | dest | src1 | src2 | immediate | address
  deriving DecidableEq, Repr

namespace Slot

def role : Slot → Role
  | dest | src1 | src2 => .register
  | immediate | address => .number

end Slot

def Fields.get (f : Fields) : Slot → Option Int
  | .dest => f.dest
  | .src1 => f.src1
  | .src2 => f.src2
  | .immediate => f.immediate
  | .address => f.address

def slots : Option Opcode → List Slot
  | some .add | some .sub | some .and | some .or => [.dest, .src1, .src2]
  | some .addi => [.dest, .src1, .immediate]
  | some .ldi | some .mov => [.dest, .immediate]
  | some .load => [.dest, .src1]
  | some .store => [.src1, .src2]
  | some .brz => [.src1, .address]
  | some .jmp => [.src1]
  | some .nop | none => []

theorem Fields.Laid.mem_slots {opcode : Option Opcode} {f : Fields} (laid : f.Laid opcode) {slot : Slot}
    (set : f.get slot ≠ none) : slot ∈ slots opcode := by
  cases laid with
  | ternary kind =>
    rcases kind with rfl | rfl | rfl | rfl <;> cases slot <;> simp_all [Fields.get, slots]
  | immediate kind => rcases kind with rfl | rfl <;> cases slot <;> simp_all [Fields.get, slots]
  | addi | load | store | brz | jmp | idle => cases slot <;> simp_all [Fields.get, slots]

theorem Fields.Laid.single {opcode : Option Opcode} {f : Fields} (laid : f.Laid opcode) :
    (f.src2 = none ∨ f.immediate = none) ∧ (f.src2 = none ∨ f.address = none) ∧
      (f.immediate = none ∨ f.address = none) := by
  cases laid <;> simp

theorem get_fieldValues {opcode : Option Opcode} {tokens : List Text} {place : Nat} {slot : Slot}
    {token : Text} (meant : (slots opcode)[place]? = some slot) (given : tokens[place]? = some token) :
    (fieldValues tokens opcode).get slot = some (Operand.value ⟨slot.role, token⟩) := by
  have taken (role : Role) : valueAt role tokens place = Operand.value ⟨role, token⟩ := by
    simp [valueAt, valueAt?, given]
  have taken? (role : Role) : valueAt? role tokens place = some (Operand.value ⟨role, token⟩) := by
    simp [valueAt?, given]
  unfold slots at meant
  split at meant
  all_goals
    rcases place with _ | _ | _ | place <;> cases meant
    all_goals simp [fieldValues, Fields.get, Slot.role, taken, taken?]

inductive NamesRegister : Text → Int → Prop where
  | of {letter : Char} {number : Text} {m : Int} (marked : letter = 'r' ∨ letter = 'R')
      (spelled : Numeral.Spells number m) : NamesRegister (letter :: number) m

theorem digits_of_begins {token : Text} {m : Int} (begun : Numeral.Begins (dropLetter token) m) :
    Operand.digits ⟨.register, token⟩ ≠ [] ∧ Operand.value ⟨.register, token⟩ = m % 8 := by
  obtain ⟨negative, rest, parts, found, value⟩ := begun.read
  have read : Operand.parts ⟨.register, token⟩ = (negative, rest) := parts
  have digits : Operand.digits ⟨.register, token⟩ = Numeral.leadingDigits rest := by
    rw [Operand.digits, read]
  refine ⟨digits ▸ found, ?_⟩
  show Operand.number _ % 8 = m % 8
  rw [Operand.number, digits, read]
  exact congrArg (· % 8) value

theorem NamesRegister.value_eq {token : Text} {m : Int} (named : NamesRegister token m) :
    Operand.value ⟨.register, token⟩ = m % 8 := by
  cases named with
  | @of letter number _ marked spelled =>
    have dropped : dropLetter (letter :: number) = number := if_pos marked
    have begun : Numeral.Begins (number ++ []) m := .of spelled nofun
    rw [List.append_nil, ← dropped] at begun
    exact (digits_of_begins begun).2

theorem exists_line_of_mem {source : Text} {made : List Instruction}
    (assembled : (assemble source).outcome = .ok made) {i : Instruction} (member : i ∈ made) :
    ∃ raw line index, raw ∈ (Text.lines source).map Text.trim ∧ i = lineInstruction raw line index := by
  obtain ⟨-, rfl⟩ := assemble_eq_ok.1 assembled
  obtain ⟨item, listed, rfl⟩ := List.mem_map.1 member
  have kept := List.mem_of_mem_filter (List.fst_mem_of_mem_zipIdx listed)
  exact ⟨item.1.1, item.1.2, item.2, List.fst_mem_of_mem_zipIdx kept, rfl⟩

end Assembly

open Assembly

/-- The word of an instruction and its typed fields say the same, and say it where its opcode puts it. -/
structure Instruction.Encoded (i : Instruction) : Prop where
  bits : IsBits i.binary
  length : i.binary.length = 16
  code : i.binary.take 7 = (i.opcode.map Opcode.bits).getD (List.replicate 7 '0')
  dest : ∀ r ∈ i.dest, 0 ≤ r ∧ r < 8
  src1 : ∀ r ∈ i.src1, 0 ≤ r ∧ r < 8
  src2 : ∀ r ∈ i.src2, 0 ≤ r ∧ r < 8
  destBits : FieldHolds ((i.binary.drop 7).take 3) i.dest
  src1Bits : FieldHolds ((i.binary.drop 10).take 3) i.src1
  single : (i.src2 = none ∨ i.immediate = none) ∧ (i.src2 = none ∨ i.address = none) ∧
    (i.immediate = none ∨ i.address = none)
  lastBits : FieldHolds (i.binary.drop 13) (i.src2 <|> i.immediate <|> i.address)
  set : ∀ slot, i.fields.get slot ≠ none → slot ∈ slots i.opcode
  signals : Signals.decode i.binary = .ok (controls i.opcode)

theorem Instruction.IsAssembled.encoded {i : Instruction} (assembled : i.IsAssembled) : i.Encoded := by
  have width : ((i.opcode.map Opcode.bits).getD idleOpcode).length = opcodeWidth := by
    rw [← bits_listedOpcode]
    cases listedOpcode i.opcode <;> rfl
  obtain ⟨code, dest, src1, last⟩ := parts_wordBits width i.dest i.src1 i.fields.last
  rw [← assembled.binary_eq] at code dest src1 last
  have writable := assembled.laid.writable
  refine ⟨assembled.isBits_binary, assembled.length_binary, code, writable.dest, writable.src1,
    writable.src2, ?_, ?_, assembled.laid.single, ?_, fun slot => assembled.laid.mem_slots,
    assembled.decode_binary⟩
  · exact dest.symm ▸ fieldHolds_fieldBits i.dest
  · exact src1.symm ▸ fieldHolds_fieldBits i.src1
  · exact last.symm ▸ fieldHolds_fieldBits i.fields.last

namespace Assembly
variable {source : Text} {program : List Instruction}

theorem get_lineInstruction {raw word : Text} {operands : List Text} (read : tokens raw = word :: operands)
    {line index place : Nat} {slot : Slot} {token : Text}
    (meant : (slots (lineInstruction raw line index).opcode)[place]? = some slot)
    (given : operands[place]? = some token) :
    (lineInstruction raw line index).fields.get slot = some (Operand.value ⟨slot.role, token⟩) := by
  have made : lineInstruction raw line index = instruction (Text.upper word) raw line index
      (opcode? (Text.upper word)) (fieldValues operands (opcode? (Text.upper word))) := by
    simp [lineInstruction, read]
  rw [made] at meant ⊢
  exact get_fieldValues meant given

/-- In an assembled instruction the word and the typed fields agree. Each instruction is that of a line of the
source, and an operand of it that is meant for a register and spells a number with the letter before it names
the register of that number modulo 8. -/
theorem encoded_of_assemble (assembled : (assemble source).outcome = .ok program) :
    ∀ i ∈ program, i.Encoded ∧ i.raw ∈ (Text.lines source).map Text.trim ∧
      ∀ (word : Text) (operands : List Text), tokens i.raw = word :: operands →
        ∀ (place : Nat) (slot : Slot) (token : Text) (m : Int), (slots i.opcode)[place]? = some slot →
          slot.role = .register → operands[place]? = some token → NamesRegister token m →
          i.fields.get slot = some (m % 8) := by
  intro i member
  have encoded := (isAssembled_of_assemble assembled i member).encoded
  obtain ⟨raw, line, index, listed, rfl⟩ := exists_line_of_mem assembled member
  rw [raw_lineInstruction]
  refine ⟨encoded, listed, fun word operands read place slot token m meant role given named => ?_⟩
  rw [get_lineInstruction read meant given, role, named.value_eq]

theorem encoded_of_assemble_negative : ∃ i : Instruction,
    (assemble "; jumps\n brz r-٣, 9 ; back".toList).outcome = .ok [i] ∧ i.src1 = some 5 ∧
      i.address = some 9 ∧ Numeral.read .binary (i.binary.drop 13) = .ok 1 := by
  let i := instruction "BRZ".toList "brz r-٣, 9 ; back".toList 2 0 (some .brz)
    { src1 := some 5, address := some 9 }
  have made : (assemble "; jumps\n brz r-٣, 9 ; back".toList).outcome = .ok [i] := by decide +kernel
  obtain ⟨encoded, -, operands⟩ := encoded_of_assemble made i (by simp)
  have digits : "٣".toList.map Text.digitValue? = [3].map some := by decide
  have named : NamesRegister "r-٣".toList (-3) := .of (.inl rfl) (.minus digits (by simp))
  have first : i.src1 = some (-3 % 8) :=
    operands "brz".toList ["r-٣".toList, "9".toList] (by decide +kernel) 0 .src1 _ _ rfl rfl rfl named
  exact ⟨i, made, first, rfl, encoded.lastBits⟩

end Assembly
end StageMachine
