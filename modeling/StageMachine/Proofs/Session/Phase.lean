import StageMachine.Proofs.Machine.Phase
import StageMachine.Proofs.Session.Reachable

/-! Sessions are in phase: whatever was done to one, also in the middle of an instruction, the machine's
working registers belong to the stage that runs next. -/
namespace StageMachine

namespace Session

theorem Started.inPhase {limit : Option Int} {s : Session} (started : Started limit s) :
    Throughout Engine.InPhase s := by
  refine ⟨?_, by simp [started.toList_history]⟩
  cases started with
  | created engine session =>
    obtain ⟨rfl, -⟩ := create_eq_ok session
    rw [eq_load_of_create engine]
    exact Engine.inPhase_load _ _
  | built chosen session =>
    obtain ⟨e, new, t, -, -, done, rfl⟩ := build_eq_ok session
    have loaded := loaded_of_prepare done
    refine ⟨loaded.eight, ?_, ?_⟩
    · show t.engine.stepCount % 4 = Stage.all.idxOf t.engine.state.stage
      rw [loaded.stepCount, loaded.stage]
      rfl
    · show t.engine.state.Prepared t.engine.width
      simp [State.Prepared, loaded.stage]

/-- There are eight registers, the step count goes with the stage, and once an instruction was fetched the
working registers hold what its earlier stages made of it: its place, then its signals, then its result on
the registers as they are. Before the program there is nothing to decode or to compute. -/
theorem working_registers_in_phase {limit : Option Int} {origin s : Session}
    (started : Started limit origin) (reached : Reaches origin s) :
    s.engine.state.registers.length = 8 ∧
    s.engine.stepCount % 4 = Stage.all.idxOf s.engine.state.stage ∧
    (s.engine.state.stage ≠ .fetch →
      s.engine.state.index = s.engine.state.pc ∧ s.engine.state.pc < s.engine.state.program.length) ∧
    (s.engine.state.stage = .execute ∨ s.engine.state.stage = .writeBack →
      (s.engine.state.pc < 0 → s.engine.state.signals = {}) ∧
      (0 ≤ s.engine.state.pc → ∃ i, s.engine.state.program[s.engine.state.pc.toNat]? = some i ∧
        Signals.decode i.binary = .ok s.engine.state.signals)) ∧
    (s.engine.state.stage = .writeBack →
      (s.engine.state.pc < 0 → s.engine.state.alu = 0) ∧
      (0 ≤ s.engine.state.pc → ∃ i, s.engine.state.program[s.engine.state.pc.toNat]? = some i ∧
        Alu.compute s.engine.width i s.engine.state = .ok s.engine.state.alu)) := by
  obtain ⟨phase, -⟩ := started.inPhase.changes (fun e _ _ _ => Engine.inPhase_load e _)
    (fun {e} _ => Engine.inPhase_load e _) Engine.InPhase.step reached.changes
  have prepared := phase.prepared
  have fetched (begun : s.engine.state.stage ≠ .fetch) := prepared.fetched begun
  refine ⟨phase.eight, phase.count, fetched, fun later => ?_, fun last => ?_⟩
  · have begun : s.engine.state.stage ≠ .fetch := by rcases later with stage | stage <;> simp [stage]
    exact (fetched begun).inWork (prepared.decoded later)
  · exact (fetched (by simp [last])).inWork (prepared.computed last)

theorem working_registers_in_phase_after_undo :
    ∃ origin s : Session, Started (some 4) origin ∧ Reaches origin s ∧
      s.engine.state.stage = .writeBack ∧ s.engine.state.pc = 0 ∧ s.engine.stepCount = 3 ∧
      ∃ i, s.engine.state.program[0]? = some i ∧ Signals.decode i.binary = .ok s.engine.state.signals ∧
        Alu.compute s.engine.width i s.engine.state = .ok s.engine.state.alu := by
  let origin : Session := { history := { limit := 4 } }
  have engine : Engine.create (.upTo 0) none = .ok {} := rfl
  have session : create {} (some 1000) (some 4) = .ok origin := rfl
  have started : Started (some 4) origin := .created engine session
  let operations : List Operation := [.load "ADDI R1, R1, 5".toList, .step, .step, .step, .stepBack, .step]
  let s : Session := operations.foldl (fun t operation => operation.act.after t) origin
  have reached : Reaches origin s := Reaches.start.foldl operations
  have stage : s.engine.state.stage = .writeBack := by decide +kernel
  have place : s.engine.state.pc = 0 := by decide +kernel
  obtain ⟨-, -, -, decoded, computed⟩ := working_registers_in_phase started reached
  obtain ⟨i, found, signals⟩ := (decoded (.inr stage)).2 (by simp [place])
  obtain ⟨j, again, result⟩ := (computed stage).2 (by simp [place])
  obtain rfl : i = j := Option.some.inj (found.symm.trans again)
  rw [place] at found
  exact ⟨origin, s, started, reached, stage, place, by decide +kernel, i, found, signals, result⟩

end Session
end StageMachine
