import StageMachine.Proofs.Machine.Placement

/-! Programs whose words tell everything. A word has three bits for a number and cannot tell a missing
register from register 0; where no operand needs more than that, a program that is listed by its words and
assembled again runs as the program does. -/
namespace StageMachine
open Assembly

/-- An instruction with no more operands than its word can tell: a ternary one has all three, its immediate
fits in three bits, and the distance of its branch in three bits with a sign. -/
structure Instruction.Told (i : Instruction) : Prop where
  ternary : i.opcode ∈ [some .add, some .sub, some .and, some .or] →
    i.dest ≠ none ∧ i.src1 ≠ none ∧ i.src2 ≠ none
  immediate : ∀ n ∈ i.immediate, 0 ≤ n ∧ n ≤ 7
  address : ∀ n ∈ i.address, -4 ≤ n ∧ n ≤ 3

theorem heldValue_of_isRegister {v : Int} (r : IsRegister v) : heldValue fieldWidth (some v) = v :=
  Int.emod_eq_of_lt r.1 r.2

theorem signedField_heldValue {n : Int} (low : -4 ≤ n) (high : n ≤ 3) :
    signedField (heldValue fieldWidth (some n)) = n := by
  show signedField (n % 8) = n
  unfold signedField
  split <;> omega

namespace Instruction
variable {i j : Instruction}

theorem Told.fields_eq (told : i.Told) (assembled : i.IsAssembled) :
    i.fields.told (listedOpcode i.opcode) = i.fields := by
  have laid := assembled.laid
  have immediate : ∀ n ∈ i.fields.immediate, 0 ≤ n ∧ n ≤ 7 := told.immediate
  have address : ∀ n ∈ i.fields.address, -4 ≤ n ∧ n ≤ 3 := told.address
  have ternary : i.opcode ∈ [some .add, some .sub, some .and, some .or] →
      i.fields.dest ≠ none ∧ i.fields.src1 ≠ none ∧ i.fields.src2 ≠ none := told.ternary
  generalize i.fields = f at laid immediate address ternary ⊢
  generalize i.opcode = opcode at laid ternary ⊢
  have small {n : Int} (so : 0 ≤ n ∧ n ≤ 7) : heldValue fieldWidth (some n) = n :=
    heldValue_of_isRegister ⟨so.1, Int.lt_add_one_iff.2 so.2⟩
  cases laid with
  | @ternary op dest src1 src2 kind target first second =>
    obtain ⟨some_dest, some_src1, some_src2⟩ := ternary (by rcases kind with rfl | rfl | rfl | rfl <;> simp)
    obtain ⟨d, rfl⟩ := Option.ne_none_iff_exists'.1 some_dest
    obtain ⟨a, rfl⟩ := Option.ne_none_iff_exists'.1 some_src1
    obtain ⟨b, rfl⟩ := Option.ne_none_iff_exists'.1 some_src2
    have d := heldValue_of_isRegister (target d rfl)
    have a := heldValue_of_isRegister (first a rfl)
    have b := heldValue_of_isRegister (second b rfl)
    rcases kind with rfl | rfl | rfl | rfl <;>
      simp [listedOpcode, Fields.told, Fields.last, d, a, b]
  | addi target source short =>
    simp [listedOpcode, Fields.told, Fields.last, heldValue_of_isRegister target,
      heldValue_of_isRegister source, small (immediate _ rfl)]
  | immediate kind target short =>
    rcases kind with rfl | rfl <;>
      simp [listedOpcode, Fields.told, Fields.last, heldValue_of_isRegister target,
        small (immediate _ rfl)]
  | load target source =>
    simp [listedOpcode, Fields.told, heldValue_of_isRegister target, heldValue_of_isRegister source]
  | store place source =>
    simp [listedOpcode, Fields.told, Fields.last, heldValue_of_isRegister place,
      heldValue_of_isRegister source]
  | @brz a n source short =>
    obtain ⟨low, high⟩ := address n rfl
    simp [listedOpcode, Fields.told, Fields.last, heldValue_of_isRegister source,
      signedField_heldValue low high]
  | jmp source => simp [listedOpcode, Fields.told, heldValue_of_isRegister source]
  | idle kind => rcases kind with rfl | rfl <;> rfl

theorem Relisted.alike (relisted : i.Relisted j) (told : i.Told) (assembled : i.IsAssembled) :
    i.Alike j where
  opcode := by
    rw [relisted.opcode]
    rcases i.opcode with _ | op
    · rfl
    · cases op <;> rfl
  fields := relisted.fields.trans (told.fields_eq assembled)
  binary := relisted.binary

end Instruction

theorem placed_of_relisted {program again : List Instruction}
    (relisted : List.Forall₂ Instruction.Relisted program again)
    (assembled : ∀ i ∈ program, i.IsAssembled) (told : ∀ i ∈ program, i.Told) :
    Placed 0 program again where
  inside := by
    intro place i found
    obtain ⟨bound, rfl⟩ := List.getElem?_eq_some_iff.1 found
    have same : place < again.length := relisted.length_eq ▸ bound
    have member := List.getElem_mem bound
    refine ⟨again[place], by simp [same], ?_⟩
    exact (relisted.get bound same).alike (told _ member) (assembled _ member)
  before := by simp
  length_le := by simp [relisted.length_eq]
  assembled
  whole_assembled := assembled_relisted relisted

namespace Engine
variable {program again : List Instruction} {e f : Engine}

theorem Beside.isHalted_eq (beside : Beside 0 program again e f)
    (length : again.length = program.length) : f.isHalted = e.isHalted := by
  unfold isHalted State.isHalted
  rw [beside.shifted.stage, beside.shifted.pc, beside.whole_eq, beside.program_eq, length]
  simp

theorem Beside.state_eq (beside : Beside 0 program again e f) :
    f.state = { e.state with program := again } := by
  obtain ⟨registers, memory, alu, stage, pc, inner⟩ := beside.shifted
  obtain ⟨index, signals⟩ := inner rfl
  have pc : f.state.pc = e.state.pc := by simpa using pc
  have whole := beside.whole_eq
  cases shown : f.state
  simp_all

/-- A program whose words tell everything is assembled again from the lines of its words, and with every
width the new program runs as the old one does: after any number of steps both have stopped with the same
fault, or they differ in nothing but their instructions. -/
theorem steps_of_words {source : Text} (assembled : (assemble source).outcome = .ok program)
    (told : ∀ i ∈ program, i.Told) :
    ∃ texts again, program.mapM (fun i => wordText i.binary) = .ok texts ∧
      (assemble (Text.joined ['\n'] texts)).outcome = .ok again ∧
      (∀ (e : Engine) (n : Nat),
        Agree (fun a b => b.state = { a.state with program := again } ∧ b.stepCount = a.stepCount ∧
            b.isHalted = a.isHalted)
          ((e.load program).steps n) ((e.load again).steps n)) ∧
      ∀ e : Engine, (∀ w ∈ e.width, w.Masks) → ∀ n, ∃ a, (e.load program).steps n = .ok a := by
  have solid := isAssembled_of_assemble assembled
  obtain ⟨again, reread, relisted⟩ := assemble_listed solid
  have placed := placed_of_relisted relisted solid told
  have length : again.length = program.length := relisted.length_eq.symm
  refine ⟨_, again, mapM_eq_ok fun i member => (solid i member).wordText_eq, reread, ?_,
    fun e masks n => steps_eq_ok (e := e.load program) solid masks n⟩
  intro e n
  have begun : Beside 0 program again (e.load program) (e.load again) :=
    beside_of_path .start rfl (State.shifted_load program again) (by simp)
  have together : Agree (Beside 0 program again) ((e.load program).steps n) ((e.load again).steps n) := by
    refine steps_agree (fun {a b} beside => ?_) begun n
    cases halted : a.isHalted with
    | false => exact beside.shownStep placed halted
    | true =>
      rw [shownStep_halted halted, shownStep_halted ((beside.isHalted_eq length).trans halted)]
      exact .value beside
  exact together.imp fun beside =>
    ⟨beside.state_eq, by simp [beside.count], beside.isHalted_eq length⟩

theorem steps_of_words_move :
    ∃ (program again : List Instruction) (e a b : Engine), e.bits = some 4 ∧
      (assemble "mov r9, 7\nfoo ; unknown\nSUB R2, R0, R1\nBRZ R3, -3".toList).outcome = .ok program ∧
      program.mapM (fun i => wordText i.binary) = .ok ["LDI R1, 7".toList, "NOP".toList,
        "SUB R2, R0, R1".toList, "BRZ R3, -3".toList] ∧
      (assemble "LDI R1, 7\nNOP\nSUB R2, R0, R1\nBRZ R3, -3".toList).outcome = .ok again ∧
      (e.load program).steps 22 = .ok a ∧ (e.load again).steps 22 = .ok b ∧
      a.state.registers = [0, 7, 9, 0, 0, 0, 0, 0] ∧ a.state.pc = 1 ∧
      b.state = { a.state with program := again } := by
  let program := [
    instruction "MOV".toList "mov r9, 7".toList 1 0 (some .mov) { dest := some 1, immediate := some 7 },
    instruction "FOO".toList "foo ; unknown".toList 2 1 none {},
    instruction "SUB".toList "SUB R2, R0, R1".toList 3 2 (some .sub)
      { dest := some 2, src1 := some 0, src2 := some 1 },
    instruction "BRZ".toList "BRZ R3, -3".toList 4 3 (some .brz) { src1 := some 3, address := some (-3) }]
  let e : Engine := { width := some ⟨4, by decide, true⟩ }
  have made : (assemble "mov r9, 7\nfoo ; unknown\nSUB R2, R0, R1\nBRZ R3, -3".toList).outcome =
      .ok program := by decide +kernel
  have told : ∀ i ∈ program, i.Told := by
    intro i member
    simp only [program, List.mem_cons, List.not_mem_nil, or_false] at member
    rcases member with rfl | rfl | rfl | rfl <;> constructor <;> simp [instruction]
  obtain ⟨texts, again, shown, reread, agree, total⟩ := steps_of_words made told
  have listed : program.mapM (fun i => wordText i.binary) = .ok ["LDI R1, 7".toList, "NOP".toList,
      "SUB R2, R0, R1".toList, "BRZ R3, -3".toList] := by decide +kernel
  obtain rfl := Except.ok.inj (shown.symm.trans listed)
  obtain ⟨a, first⟩ := total e (by decide) 22
  have seen : ((e.load program).steps 22).map (fun a => (a.state.registers, a.state.pc)) =
      .ok ([0, 7, 9, 0, 0, 0, 0, 0], 1) := by decide +kernel
  have agree := agree e 22
  rw [first] at agree seen
  obtain ⟨registers, pc⟩ := Prod.mk.inj (Except.ok.inj seen)
  obtain ⟨b, second, same, -⟩ := agree.exists_eq_ok
  exact ⟨program, again, e, a, b, rfl, made, listed, reread, first, second, registers, pc, same⟩

end Engine
end StageMachine
