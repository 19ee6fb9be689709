import StageMachine.Proofs.Machine.Cycle

/-! What the stages of an instruction hand on. Each of the working registers holds what an earlier stage of
the same instruction put there, until write-back has used it. -/
namespace StageMachine

namespace State
variable {width : Option Width} {s t : State}

def Fetched (s : State) : Prop := s.index = s.pc ∧ s.pc < s.program.length

def InWork (s : State) (idle : Prop) (busy : Instruction → Prop) : Prop :=
  match s.current? with
  | none => idle
  | some i => busy i

/-- The signals are those of the instruction in work, or all off where there is none. -/
def Decoded (s : State) : Prop :=
  s.InWork (s.signals = {}) fun i => Signals.decode i.binary = .ok s.signals

def Computed (width : Option Width) (s : State) : Prop :=
  s.InWork (s.alu = 0) fun i => Alu.compute width i s = .ok s.alu

/-- What is in place for the stage that runs next. -/
def Prepared (width : Option Width) (s : State) : Prop :=
  match s.stage with
  | .fetch => True
  | .decode => s.Fetched
  | .execute => s.Fetched ∧ s.Decoded
  | .writeBack => s.Fetched ∧ s.Decoded ∧ s.Computed width

section
variable {idle : Prop} {busy : Instruction → Prop}

theorem inWork_of_none (found : s.current? = none) (so : idle) : s.InWork idle busy := by
  rwa [InWork, found]

theorem inWork_of_some {i : Instruction} (found : s.current? = some i) (so : busy i) :
    s.InWork idle busy := by
  rwa [InWork, found]

theorem Fetched.inWork (fetched : s.Fetched) (so : s.InWork idle busy) :
    (s.pc < 0 → idle) ∧ (0 ≤ s.pc → ∃ i, s.program[s.pc.toNat]? = some i ∧ busy i) := by
  obtain ⟨same, inside⟩ := fetched
  unfold InWork current? at so
  rw [same] at so
  refine ⟨fun low => by simpa [low] using so, fun high => ?_⟩
  have bound : s.pc.toNat < s.program.length := by omega
  rw [if_neg (Int.not_lt.2 high), List.getElem?_eq_getElem bound] at so
  exact ⟨_, List.getElem?_eq_getElem bound, so⟩

end

theorem decode_eq_ok (read : s.decode = .ok t) : ∃ signals, t = { s with signals } ∧ t.Decoded := by
  unfold decode at read
  split at read
  · next found =>
    cases read
    exact ⟨{}, rfl, inWork_of_none found rfl⟩
  · next i found =>
    obtain ⟨signals, told, rfl⟩ := map_eq_ok.1 read
    exact ⟨signals, rfl, inWork_of_some found told⟩

theorem execute_eq_ok (computed : s.execute width = .ok t) :
    ∃ alu, t = { s with alu } ∧ t.Computed width := by
  unfold execute at computed
  split at computed
  · next found =>
    cases computed
    exact ⟨0, rfl, inWork_of_none found rfl⟩
  · next i found =>
    obtain ⟨alu, result, rfl⟩ := map_eq_ok.1 computed
    exact ⟨alu, rfl, inWork_of_some found result⟩

theorem length_writtenRegisters (i : Instruction) (memory : Memory) :
    (s.writtenRegisters i memory).length = s.registers.length := by
  unfold writtenRegisters
  split
  · split
    · exact List.length_set
    · rfl
  · rfl

theorem length_registers_writeBack : s.writeBack.registers.length = s.registers.length := by
  unfold writeBack
  split
  · rfl
  · exact length_writtenRegisters _ _

theorem length_registers_work (worked : s.work width = .ok t) : t.registers.length = s.registers.length := by
  unfold work at worked
  split at worked
  · cases worked
    rfl
  · obtain ⟨signals, rfl, -⟩ := decode_eq_ok worked
    rfl
  · obtain ⟨alu, rfl, -⟩ := execute_eq_ok worked
    rfl
  · cases worked
    exact length_registers_writeBack

theorem Prepared.fetched (prepared : s.Prepared width) (begun : s.stage ≠ .fetch) : s.Fetched := by
  unfold Prepared at prepared
  cases stage : s.stage with
  | fetch => exact absurd stage begun
  | decode => simpa [stage] using prepared
  | execute | writeBack =>
    simp only [stage] at prepared
    exact prepared.1

theorem Prepared.decoded (prepared : s.Prepared width) (later : s.stage = .execute ∨ s.stage = .writeBack) :
    s.Decoded := by
  unfold Prepared at prepared
  rcases later with stage | stage
  · simp only [stage] at prepared
    exact prepared.2
  · simp only [stage] at prepared
    exact prepared.2.1

theorem Prepared.computed (prepared : s.Prepared width) (last : s.stage = .writeBack) : s.Computed width := by
  simp only [Prepared, last] at prepared
  exact prepared.2.2

theorem Decoded.decode_eq (decoded : s.Decoded) {i : Instruction} (found : s.current? = some i) :
    Signals.decode i.binary = .ok s.signals := by
  unfold Decoded InWork at decoded
  rwa [found] at decoded

theorem Decoded.signals_eq (decoded : s.Decoded) {i : Instruction}
    (assembled : ∀ i ∈ s.program, i.IsAssembled) (found : s.current? = some i) :
    s.signals = controls i.opcode := by
  have solid := assembled i (Engine.mem_of_current? found)
  exact Except.ok.inj ((decoded.decode_eq found).symm.trans solid.decode_binary)

/-- Every stage leaves what the next one needs. -/
theorem Prepared.advance (prepared : s.Prepared width) (running : s.isHalted = false)
    (moved : s.advance width = .ok t) : t.Prepared width := by
  obtain ⟨u, worked, rfl⟩ := map_eq_ok.1 moved
  unfold Prepared at prepared
  unfold work at worked
  cases stage : s.stage with
  | fetch =>
    simp only [stage] at worked
    cases worked
    have inside : s.pc < s.program.length := by simpa [isHalted, stage] using running
    exact ⟨rfl, inside⟩
  | decode =>
    simp only [stage] at prepared worked
    obtain ⟨signals, rfl, decoded⟩ := decode_eq_ok worked
    exact ⟨prepared, decoded⟩
  | execute =>
    simp only [stage] at prepared worked
    obtain ⟨alu, rfl, computed⟩ := execute_eq_ok worked
    exact ⟨prepared.1, prepared.2, computed⟩
  | writeBack => exact trivial

end State

theorem Stage.idxOf_next (stage : Stage) : Stage.all.idxOf stage.next = (Stage.all.idxOf stage + 1) % 4 := by
  cases stage <;> rfl

namespace Engine
variable {e f : Engine}

/-- Registers, step count and working registers are as the stage that runs next expects them. -/
structure InPhase (e : Engine) : Prop where
  eight : e.state.registers.length = 8
  count : e.stepCount % 4 = Stage.all.idxOf e.state.stage
  prepared : e.state.Prepared e.width

theorem inPhase_load (e : Engine) (program : List Instruction) : (e.load program).InPhase :=
  ⟨rfl, rfl, trivial⟩

theorem InPhase.step (phase : e.InPhase) (stepped : e.step = .ok f) : f.InPhase := by
  cases halted : e.isHalted with
  | true =>
    rw [step_halted halted] at stepped
    cases stepped
    exact phase
  | false =>
    rw [step_running halted] at stepped
    obtain ⟨state, moved, rfl⟩ := map_eq_ok.1 stepped
    refine ⟨?_, ?_, phase.prepared.advance halted moved⟩
    · obtain ⟨u, worked, rfl⟩ := map_eq_ok.1 moved
      exact (State.length_registers_work worked).trans phase.eight
    · obtain ⟨u, worked, rfl⟩ := map_eq_ok.1 moved
      show (e.stepCount + 1) % 4 = Stage.all.idxOf e.state.stage.next
      rw [Stage.idxOf_next, ← phase.count, Nat.mod_add_mod]

theorem Path.inPhase {trail : List Moment} (path : e.Path trail f) (phase : e.InPhase) : f.InPhase := by
  induction path with
  | start => exact phase
  | next _ commits ih => exact ih.step commits.step

end Engine
end StageMachine
