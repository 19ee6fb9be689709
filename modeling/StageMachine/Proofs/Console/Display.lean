import StageMachine.Console.Display
import StageMachine.Proofs.Machine.Path

/-! What the console can show. A line fails only for a number that is too long to be written; where none
of the numbers in it is, every stage has its line and every state its lines. -/
namespace StageMachine

open Assembly (IsShort)

theorem Numeral.decimal_eq_ok {v : Int} (short : IsShort v) : decimal v = .ok (plain v) := by
  unfold IsShort at short
  rw [decimal, if_pos short]

structure State.Writable (s : State) : Prop where
  registers : ∀ v ∈ s.registers, IsShort v
  pc : IsShort s.pc
  cells : ∀ cell ∈ s.memory.cells, IsShort cell.1 ∧ IsShort cell.2

theorem State.writable_of_blank {s : State} (registers : s.registers = List.replicate 8 0) (pc : s.pc = 0)
    (memory : s.memory = {}) : s.Writable where
  registers v member := by
    rw [registers] at member
    rw [List.eq_of_mem_replicate member]
    exact Assembly.isShort_zero
  pc := pc ▸ Assembly.isShort_zero
  cells cell member := by
    rw [memory] at member
    cases member

/-- No number that is shown of the moment is too long. The result is shown of one stage only. -/
structure Snapshot.Writable (m : Snapshot) : Prop where
  count : IsShort m.stepCount
  pc : IsShort m.state.pc
  result : m.stage = .execute → IsShort m.state.alu

namespace Console

theorem stageDetail_eq_ok {m : Snapshot} (w : m.Writable) :
    ∃ detail, stageDetail m.stage m.state = .ok detail := by
  unfold stageDetail
  cases stage : m.stage with
  | execute => exact ⟨_, by rw [Numeral.decimal_eq_ok (w.result stage)]; rfl⟩
  | _ => exact ⟨_, rfl⟩

theorem momentLine_eq_ok {m : Snapshot} (w : m.Writable) {position : Option Nat}
    (few : ∀ p ∈ position, p < 10) : ∃ line, momentLine m position = .ok ('[' :: line) := by
  obtain ⟨detail, shown⟩ := stageDetail_eq_ok w
  unfold momentLine traceLine
  rw [Numeral.decimal_eq_ok w.count, Numeral.decimal_eq_ok w.pc, shown]
  cases position with
  | none => exact ⟨_, rfl⟩
  | some p =>
    have short : IsShort (Int.ofNat p) := Numeral.lt_ceiling (few p rfl)
    simp only [Option.map_some, Numeral.decimal_eq_ok short]
    exact ⟨_, rfl⟩

theorem stateLines_eq_ok {s : State} (w : s.Writable) : ∃ lines, stateLines s = .ok lines := by
  unfold stateLines
  refine exists_bind_eq_ok (exists_mapM_eq_ok ?_) fun registers =>
    exists_bind_eq_ok ⟨_, Numeral.decimal_eq_ok w.pc⟩ fun pc =>
      exists_bind_eq_ok (exists_mapM_eq_ok ?_) fun cells => ⟨_, rfl⟩
  · rintro ⟨value, i⟩ member
    have inside : value ∈ s.registers := List.mem_of_getElem? (List.mem_zipIdx_iff_getElem?.1 member)
    simp only [Numeral.decimal_eq_ok (w.registers value inside)]
    exact ⟨_, rfl⟩
  · rintro ⟨address, value⟩ member
    obtain ⟨there, held⟩ := w.cells _ member
    simp only [Numeral.decimal_eq_ok there, Numeral.decimal_eq_ok held]
    exact ⟨_, rfl⟩

end Console
end StageMachine
