import StageMachine.Instruction.Assembly
import StageMachine.Instruction.Listing
import StageMachine.Proofs.Numeral.Binary
import StageMachine.Proofs.Outcome

/-! What assembly leaves in an instruction. The opcode alone decides which of its typed fields are set,
its word is made of the opcode's bits and those fields, registers exist and numbers can be written. -/
namespace StageMachine
namespace Assembly

def IsRegister (i : Int) : Prop := 0 ≤ i ∧ i < registerCount

def IsShort (v : Int) : Prop := v.natAbs < Numeral.ceiling

theorem isShort_zero : IsShort 0 := Numeral.lt_ceiling (by decide)

theorem IsRegister.short {i : Int} (r : IsRegister i) : IsShort i := by
  obtain ⟨low, high⟩ := r
  have : i < 8 := high
  exact Numeral.lt_ceiling (by omega)

inductive Fields.Laid : Option Opcode → Fields → Prop where
  | ternary {op : Opcode} {dest src1 src2 : Option Int}
      (kind : op = .add ∨ op = .sub ∨ op = .and ∨ op = .or) (target : ∀ i ∈ dest, IsRegister i)
      (first : ∀ i ∈ src1, IsRegister i) (second : ∀ i ∈ src2, IsRegister i) :
      Laid (some op) { dest, src1, src2 }
  | addi {d a n : Int} (target : IsRegister d) (source : IsRegister a) (short : IsShort n) :
      Laid (some .addi) { dest := some d, src1 := some a, immediate := some n }
  | immediate {op : Opcode} {d n : Int} (kind : op = .ldi ∨ op = .mov) (target : IsRegister d)
      (short : IsShort n) : Laid (some op) { dest := some d, immediate := some n }
  | load {d a : Int} (target : IsRegister d) (source : IsRegister a) :
      Laid (some .load) { dest := some d, src1 := some a }
  | store {a b : Int} (place : IsRegister a) (source : IsRegister b) :
      Laid (some .store) { src1 := some a, src2 := some b }
  | brz {a n : Int} (source : IsRegister a) (short : IsShort n) :
      Laid (some .brz) { src1 := some a, address := some n }
  | jmp {a : Int} (source : IsRegister a) : Laid (some .jmp) { src1 := some a }
  | idle {opcode : Option Opcode} (kind : opcode = some .nop ∨ opcode = none) : Laid opcode {}

theorem isRegister_of_register {line : Nat} {token : Text} {r : Int}
    (read : (register line token).outcome = .ok r) : IsRegister r := by
  have reduced (v : Int) : IsRegister (v % registerCount) :=
    ⟨Int.emod_nonneg v (by decide), Int.emod_lt_of_pos v (by decide)⟩
  unfold register at read
  obtain ⟨found, -, rest⟩ := Report.outcome_bind_eq_ok.1 read
  cases found with
  | none =>
    obtain ⟨-, -, rest⟩ := Report.outcome_bind_eq_ok.1 rest
    cases rest
    exact ⟨by decide, by decide⟩
  | some value =>
    simp only at rest
    split at rest
    · next same =>
      cases rest
      exact same ▸ reduced r
    · obtain ⟨-, -, rest⟩ := Report.outcome_bind_eq_ok.1 rest
      cases rest
      exact reduced value

theorem isShort_of_number {line : Nat} {token : Text} {v : Int}
    (read : (number line token).outcome = .ok v) : IsShort v := by
  unfold number at read
  obtain ⟨found, first, rest⟩ := Report.outcome_bind_eq_ok.1 read
  cases found with
  | none =>
    obtain ⟨-, -, rest⟩ := Report.outcome_bind_eq_ok.1 rest
    cases rest
    exact isShort_zero
  | some value =>
    cases rest
    exact Numeral.natAbs_lt_ceiling first

theorem registerAt_bind {α : Type} {line place : Nat} {operands : List Text} {value : α}
    {next : Option Int → Report α} (read : (registerAt line operands place >>= next).outcome = .ok value) :
    ∃ i, IsRegister i ∧ (next (some i)).outcome = .ok value := by
  obtain ⟨r, first, rest⟩ := Report.outcome_bind_eq_ok.1 read
  unfold registerAt at first
  split at first
  · obtain ⟨i, found, rfl⟩ := Report.outcome_map_eq_ok.1 first
    exact ⟨i, isRegister_of_register found, rest⟩
  · obtain ⟨-, -, missing⟩ := Report.outcome_bind_eq_ok.1 first
    cases missing
    exact ⟨0, ⟨by decide, by decide⟩, rest⟩

theorem registerAt?_eq_ok {line place : Nat} {operands : List Text} {r : Option Int}
    (read : (registerAt? line operands place).outcome = .ok r) : ∀ i ∈ r, IsRegister i := by
  unfold registerAt? at read
  split at read
  · obtain ⟨i, found, rfl⟩ := Report.outcome_map_eq_ok.1 read
    simpa using isRegister_of_register found
  · cases read
    simp

theorem numberAt_bind {α : Type} {line place : Nat} {operands : List Text} {value : α}
    {next : Option Int → Report α} (read : (numberAt line operands place >>= next).outcome = .ok value) :
    ∃ v, IsShort v ∧ (next (some v)).outcome = .ok value := by
  obtain ⟨n, first, rest⟩ := Report.outcome_bind_eq_ok.1 read
  unfold numberAt at first
  split at first
  · obtain ⟨v, found, rfl⟩ := Report.outcome_map_eq_ok.1 first
    exact ⟨v, isShort_of_number found, rest⟩
  · obtain ⟨-, -, missing⟩ := Report.outcome_bind_eq_ok.1 first
    cases missing
    exact ⟨0, isShort_zero, rest⟩

theorem laid_of_fields {line : Nat} {operands : List Text} {opcode : Option Opcode} {f : Fields}
    (read : (fields line operands opcode).outcome = .ok f) : f.Laid opcode := by
  unfold fields at read
  split at read
  case h_1 | h_2 | h_3 | h_4 =>
    obtain ⟨dest, first, read⟩ := Report.outcome_bind_eq_ok.1 read
    obtain ⟨src1, second, read⟩ := Report.outcome_bind_eq_ok.1 read
    obtain ⟨src2, third, read⟩ := Report.outcome_bind_eq_ok.1 read
    cases read
    exact .ternary (by simp) (registerAt?_eq_ok first) (registerAt?_eq_ok second)
      (registerAt?_eq_ok third)
  case h_5 =>
    obtain ⟨dest, target, read⟩ := registerAt_bind read
    obtain ⟨src1, source, read⟩ := registerAt_bind read
    obtain ⟨immediate, short, read⟩ := numberAt_bind read
    cases read
    exact .addi target source short
  case h_6 | h_7 =>
    obtain ⟨dest, target, read⟩ := registerAt_bind read
    obtain ⟨immediate, short, read⟩ := numberAt_bind read
    cases read
    exact .immediate (by simp) target short
  case h_8 =>
    obtain ⟨dest, target, read⟩ := registerAt_bind read
    obtain ⟨src1, source, read⟩ := registerAt_bind read
    cases read
    exact .load target source
  case h_9 =>
    obtain ⟨src1, place, read⟩ := registerAt_bind read
    obtain ⟨src2, source, read⟩ := registerAt_bind read
    cases read
    exact .store place source
  case h_10 =>
    obtain ⟨src1, source, read⟩ := registerAt_bind read
    obtain ⟨address, short, read⟩ := numberAt_bind read
    cases read
    exact .brz source short
  case h_11 =>
    obtain ⟨src1, source, read⟩ := registerAt_bind read
    cases read
    exact .jmp source
  case h_12 | h_13 =>
    cases read
    exact .idle (by simp)

end Assembly

namespace Instruction

def fields (i : Instruction) : Assembly.Fields where
  dest := i.dest
  src1 := i.src1
  src2 := i.src2
  immediate := i.immediate
  address := i.address

/-- An instruction as assembly leaves it. -/
structure IsAssembled (i : Instruction) : Prop where
  laid : i.fields.Laid i.opcode
  binary_eq : i.binary =
    wordBits ((i.opcode.map Opcode.bits).getD idleOpcode) i.dest i.src1 i.fields.last

end Instruction

namespace Assembly

theorem isAssembled_instruction {mnemonic raw : Text} {line index : Nat} {opcode : Option Opcode}
    {f : Fields} (laid : f.Laid opcode) : (instruction mnemonic raw line index opcode f).IsAssembled :=
  ⟨laid, rfl⟩

theorem isAssembled_of_assembleLine {raw : Text} {line index : Nat} {i : Instruction}
    (assembled : (assembleLine raw line index).outcome = .ok i) : i.IsAssembled := by
  unfold assembleLine at assembled
  split at assembled
  · obtain ⟨-, -, rest⟩ := Report.outcome_bind_eq_ok.1 assembled
    cases rest
    exact isAssembled_instruction (.idle (by simp))
  · obtain ⟨f, found, rest⟩ := Report.outcome_bind_eq_ok.1 assembled
    have laid := laid_of_fields found
    simp only at rest
    split at rest
    · obtain ⟨-, -, rest⟩ := Report.outcome_bind_eq_ok.1 rest
      cases rest
      exact isAssembled_instruction laid
    · cases rest
      exact isAssembled_instruction laid

theorem isAssembled_of_assembleLines {lines : List Text} {line index : Nat}
    {program : List Instruction} (assembled : (assembleLines line index lines).outcome = .ok program) :
    ∀ i ∈ program, i.IsAssembled := by
  induction lines generalizing line index program with
  | nil =>
    cases assembled
    simp
  | cons text rest ih =>
    rw [assembleLines] at assembled
    split at assembled
    · obtain ⟨first, head, assembled⟩ := Report.outcome_bind_eq_ok.1 assembled
      obtain ⟨others, tail, made⟩ := Report.outcome_bind_eq_ok.1 assembled
      cases made
      intro i member
      rcases List.mem_cons.1 member with rfl | member
      · exact isAssembled_of_assembleLine head
      · exact ih tail i member
    · exact ih assembled

/-- Every instruction of an assembled program is laid out by its opcode. -/
theorem isAssembled_of_assemble {source : Text} {program : List Instruction}
    (assembled : (assemble source).outcome = .ok program) : ∀ i ∈ program, i.IsAssembled :=
  isAssembled_of_assembleLines assembled

end Assembly
end StageMachine
