import StageMachine.Proofs.Instruction.Joining
import StageMachine.Proofs.Machine.Placement

/-! Programs moved. A program without a jump does the same wherever it stands: behind instructions that do
nothing, and before whatever follows it, it goes through the same states, with its program counter further
on by the places it was moved. -/
namespace StageMachine
open Assembly

namespace Instruction
variable {i j : Instruction}

theorem alike_refl (i : Instruction) : i.Alike i := ⟨rfl, rfl, rfl⟩

theorem Alike.moved (alike : i.Alike j) (lines places : Nat) : i.Alike (j.moved lines places) :=
  ⟨alike.opcode, alike.fields, alike.binary⟩

theorem IsIdle.moved (idle : i.IsIdle) (lines places : Nat) : (i.moved lines places).IsIdle :=
  ⟨⟨idle.assembled.laid, idle.assembled.binary_eq⟩, idle.idle⟩

end Instruction

def idleLine : Text := "NOP".toList

def idleInstruction : Instruction := instruction idleLine idleLine 1 0 (some .nop) {}

theorem isIdle_idleInstruction : idleInstruction.IsIdle :=
  ⟨isAssembled_instruction (.idle (by simp)), .inl rfl⟩

theorem assemble_idleLine : (assemble idleLine).outcome = .ok [idleInstruction] := by rfl

theorem placed_append {first second : Text} {program other : List Instruction}
    (one : (assemble first).outcome = .ok program) (two : (assemble second).outcome = .ok other) :
    ∃ whole, (assemble (first ++ '\n' :: second)).outcome = .ok whole ∧ Placed 0 program whole := by
  have made := assemble_append first second one two
  refine ⟨_, made, ?_, by simp, by simp, isAssembled_of_assemble one, isAssembled_of_assemble made⟩
  intro place i found
  refine ⟨i, ?_, i.alike_refl⟩
  rw [Nat.zero_add, List.getElem?_append_left (List.getElem?_eq_some_iff.1 found).1, found]

theorem placed_succ {distance : Nat} {source : Text} {program whole : List Instruction}
    (made : (assemble source).outcome = .ok whole) (placed : Placed distance program whole) :
    ∃ more, (assemble (idleLine ++ '\n' :: source)).outcome = .ok more ∧
      Placed (distance + 1) program more := by
  have longer := assemble_append idleLine source assemble_idleLine made
  refine ⟨_, longer, ?_, ?_, ?_, placed.assembled, isAssembled_of_assemble longer⟩
  · intro place i found
    obtain ⟨j, there, alike⟩ := placed.inside place i found
    refine ⟨_, ?_, alike.moved (Text.lines idleLine).length 1⟩
    rw [Nat.add_right_comm]
    simp [there]
  · intro place before
    cases place with
    | zero => exact ⟨_, rfl, isIdle_idleInstruction⟩
    | succ place =>
      obtain ⟨j, there, idle⟩ := placed.before place (Nat.lt_of_succ_lt_succ before)
      exact ⟨_, by simp [there], idle.moved (Text.lines idleLine).length 1⟩
  · have := placed.length_le
    simp only [List.length_append, List.length_map, List.length_singleton]
    omega

theorem placed_joined {first second : Text} {program other : List Instruction}
    (one : (assemble first).outcome = .ok program) (two : (assemble second).outcome = .ok other)
    (distance : Nat) :
    ∃ whole, (assemble (Text.joined ['\n'] (List.replicate distance idleLine ++ [first, second]))).outcome =
      .ok whole ∧ Placed distance program whole := by
  induction distance with
  | zero =>
    obtain ⟨whole, made, placed⟩ := placed_append one two
    exact ⟨whole, by simpa [Text.joined] using made, placed⟩
  | succ distance ih =>
    obtain ⟨whole, made, placed⟩ := ih
    have shape : Text.joined ['\n'] (List.replicate (distance + 1) idleLine ++ [first, second]) =
        idleLine ++ '\n' :: Text.joined ['\n'] (List.replicate distance idleLine ++ [first, second]) := by
      rw [List.replicate_succ, List.cons_append, Text.joined_cons (by simp), List.append_assoc]
      rfl
    rw [shape]
    exact placed_succ made placed

namespace Engine
variable {distance : Nat} {program whole : List Instruction} {e f : Engine}

theorem path_idle {j : Instruction} (legible : f.Legible) (running : f.isHalted = false)
    (ready : f.state.stage = .fetch) (found : f.state.fetched.current? = some j) (idle : j.IsIdle)
    (masks : ∀ w ∈ f.width, w.Masks) :
    ∃ trail after, f.Path trail after ∧ trail.length = 4 ∧ after.state = { f.state with
      pc := f.state.pc + 1, index := f.state.pc, signals := controls j.opcode, alu := 0 } := by
  have read := decode_fetched found idle.assembled
  have found' : (f.state.fetched.decoded (controls j.opcode)).current? = some j := found
  have computed : (f.state.fetched.decoded (controls j.opcode)).execute f.width =
      .ok { f.state.fetched.decoded (controls j.opcode) with alu := 0 } := by
    simp [State.execute, found', idle.compute_eq masks, Except.map]
  obtain ⟨trail, after, path, four, made⟩ := path_written legible running ready read computed
  have last : ((f.state.fetched.decoded (controls j.opcode)).executed 0).current? = some j := found
  refine ⟨trail, after, path, four, ?_⟩
  rw [made, State.writeBack_eq_of_isIdle idle last rfl]
  simp [State.executed, State.decoded, State.fetched, ready]

theorem path_to_start (placed : Placed distance program whole) (masks : ∀ w ∈ e.width, w.Masks)
    {places : Nat} (within : places ≤ distance) :
    ∃ trail after, (e.load whole).Path trail after ∧ trail.length = 4 * places ∧
      ({ program } : State).Shifted places after.state := by
  induction places with
  | zero => exact ⟨[], _, .start, rfl, State.shifted_load program whole⟩
  | succ places ih =>
    obtain ⟨trail, before, path, length, shifted⟩ := ih (Nat.le_of_succ_le within)
    obtain ⟨j, found, idle⟩ := placed.before places within
    have loaded : before.state.program = whole := path.program_eq
    have here : before.state.pc = places := by simpa using shifted.pc
    have legible : before.Legible := fun i member =>
      (placed.whole_assembled i (loaded ▸ member)).render_eq_ok
    have inside : before.state.pc < whole.length := by
      have := placed.length_le
      omega
    have running := isHalted_of_inside loaded shifted.stage inside
    have current : before.state.fetched.current? = some j := by
      rw [State.current?_fetched, here, loaded, if_neg (by omega)]
      exact found
    obtain ⟨more, after, stages, four, made⟩ := path_idle legible running shifted.stage current idle
      (path.width_eq.symm ▸ masks)
    refine ⟨more ++ trail, after, path.trans stages, ?_, ?_⟩
    · rw [List.length_append, four, length]
      omega
    · rw [made]
      exact { shifted with alu := rfl, pc := by simp [here], inner := by simp }

theorem steps_to_start (placed : Placed distance program whole)
    (movable : 0 < distance → Movable e.width program) :
    ∃ start, (e.load whole).steps (4 * distance) = .ok start ∧
      Beside distance program whole (e.load program) start := by
  rcases Nat.eq_zero_or_pos distance with rfl | moved
  · exact ⟨_, rfl, beside_of_path .start rfl (State.shifted_load program whole) movable⟩
  · obtain ⟨trail, start, path, length, shifted⟩ :=
      path_to_start placed (movable moved).masks (Nat.le_refl distance)
    exact ⟨start, length ▸ path.steps_eq, beside_of_path path length shifted movable⟩

/-- Behind any number of idle lines, and before any other source, a program without a jump goes through the
states that it goes through alone, up to its end; only its program counter is further on. With a width that no
number can be cut to, the first idle line breaks off. -/
theorem steps_relocated {first second : Text} {program other : List Instruction}
    (one : (assemble first).outcome = .ok program) (two : (assemble second).outcome = .ok other)
    (relative : ∀ i ∈ program, i.opcode ≠ some .jmp) (distance : Nat) :
    ∃ whole, (assemble (Text.joined ['\n'] (List.replicate distance idleLine ++ [first, second]))).outcome =
        .ok whole ∧
      (∀ e : Engine, (distance = 0 ∨ ∀ w ∈ e.width, w.Masks) →
        ∀ t : Nat, (t : ℕ∞) ≤ (e.load program).stagesToEnd →
          Agree (fun a b => a.state.Shifted distance b.state) ((e.load program).steps t)
            ((e.load whole).steps (4 * distance + t))) ∧
      (∀ e : Engine, (∀ w ∈ e.width, w.Masks) → ∀ t, ∃ a, (e.load program).steps t = .ok a) ∧
      ∀ e : Engine, ∀ w ∈ e.width, ¬ w.Masks → 0 < distance →
        (∃ last, (e.load whole).steps 2 = .ok last ∧ last.state.stage = .execute) ∧
          ∀ n > 2, (e.load whole).steps n = .error w.fault := by
  obtain ⟨whole, made, placed⟩ := placed_joined one two distance
  refine ⟨whole, made, fun e masks t within => ?_,
    fun e masks t => steps_eq_ok (e := e.load program) placed.assembled masks t,
    fun e w wide stuck moved => steps_stuck made ?_ wide stuck⟩
  · have movable : 0 < distance → Movable e.width program := fun moved =>
      ⟨masks.resolve_left (by omega), relative⟩
    obtain ⟨start, reached, beside⟩ := steps_to_start (e := e) placed movable
    rw [steps_add, reached]
    exact (beside.steps placed within).imp fun beside => beside.shifted
  · have := placed.length_le
    exact List.ne_nil_of_length_pos (by omega)

theorem steps_relocated_below_zero :
    ∃ (program whole : List Instruction) (e a b : Engine), e.bits = some 4 ∧
      (assemble "ADDI R1, R1, 3\nSUB R2, R3, R1\nBRZ R0, -4".toList).outcome = .ok program ∧
      (assemble "NOP\nADDI R1, R1, 3\nSUB R2, R3, R1\nBRZ R0, -4\nLDI R5, 1".toList).outcome = .ok whole ∧
      (e.load program).steps 24 = .ok a ∧ (e.load whole).steps 28 = .ok b ∧
      a.state.registers = [0, 6, 13, 0, 0, 0, 0, 0] ∧ a.state.pc = 1 ∧ a.state.Shifted 1 b.state := by
  let e : Engine := { width := some ⟨4, by decide, true⟩ }
  let program := [
    instruction "ADDI".toList "ADDI R1, R1, 3".toList 1 0 (some .addi)
      { dest := some 1, src1 := some 1, immediate := some 3 },
    instruction "SUB".toList "SUB R2, R3, R1".toList 2 1 (some .sub)
      { dest := some 2, src1 := some 3, src2 := some 1 },
    instruction "BRZ".toList "BRZ R0, -4".toList 3 2 (some .brz) { src1 := some 0, address := some (-4) }]
  have one : (assemble "ADDI R1, R1, 3\nSUB R2, R3, R1\nBRZ R0, -4".toList).outcome = .ok program := by
    decide +kernel
  have two : (assemble "LDI R5, 1".toList).outcome = .ok [instruction "LDI".toList "LDI R5, 1".toList 1 0
      (some .ldi) { dest := some 5, immediate := some 1 }] := by decide +kernel
  obtain ⟨whole, made, agree, total, -⟩ := steps_relocated one two (by decide) 1
  obtain ⟨a, first⟩ := total e (by decide) 24
  have seen : ((e.load program).steps 24).map (fun a => (a.state.registers, a.state.pc, a.isHalted)) =
      .ok ([0, 6, 13, 0, 0, 0, 0, 0], 1, false) := by decide +kernel
  rw [first] at seen
  obtain ⟨registers, pc, running⟩ : a.state.registers = [0, 6, 13, 0, 0, 0, 0, 0] ∧ a.state.pc = 1 ∧
      a.isHalted = false := by simpa [Except.map] using seen
  have within : ((24 : Nat) : ℕ∞) ≤ (e.load program).stagesToEnd := by
    obtain ⟨trail, path, all | ⟨-, halted⟩⟩ := exists_path_of_steps first
    · exact all ▸ path.length_le_stagesToEnd
    · rw [running] at halted
      cases halted
  have agree := agree e (.inr (by decide)) 24 within
  rw [first] at agree
  obtain ⟨b, second, shifted⟩ := agree.exists_eq_ok
  exact ⟨program, whole, e, a, b, rfl, one, made, first, second, registers, pc, shifted⟩

theorem not_steps_relocated_of_every_width :
    ¬ ∀ (first second : Text) (program other : List Instruction) (distance : Nat),
      (assemble first).outcome = .ok program → (assemble second).outcome = .ok other →
      (∀ i ∈ program, i.opcode ≠ some .jmp) →
      ∃ whole,
        (assemble (Text.joined ['\n'] (List.replicate distance idleLine ++ [first, second]))).outcome =
          .ok whole ∧
        ∀ (e : Engine) (t : Nat), (t : ℕ∞) ≤ (e.load program).stagesToEnd →
          ∃ a b, (e.load program).steps t = .ok a ∧ (e.load whole).steps (4 * distance + t) = .ok b ∧
            a.state.Shifted distance b.state := by
  intro every
  let program := [instruction "LDI".toList "LDI R1, 5".toList 1 0 (some .ldi)
    { dest := some 1, immediate := some 5 }]
  let e : Engine := { width := some ⟨0x100000000000000000000, by decide, true⟩ }
  have one : (assemble "LDI R1, 5".toList).outcome = .ok program := by rfl
  have two : (assemble []).outcome = .ok [] := by rfl
  obtain ⟨whole, made, runs⟩ := every _ _ program [] 1 one two (by decide)
  have some : whole ≠ [] := by
    rintro rfl
    revert made
    decide +kernel
  obtain ⟨-, stops⟩ := steps_stuck (e := e) made some rfl (by decide)
  obtain ⟨-, b, -, moved, -⟩ := runs e 0 (by simp)
  rw [stops 4 (by decide)] at moved
  cases moved

end Engine
end StageMachine
