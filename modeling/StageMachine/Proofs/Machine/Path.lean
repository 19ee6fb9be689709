import StageMachine.Machine.Engine
import StageMachine.Proofs.Instruction.Rendering
import StageMachine.Session.History

/-! Stages in a row. A committed stage is a step of an engine that is not at its end and whose new moment
can be shown; the trail of a path has the moments before its stages, newest first. -/
namespace StageMachine

namespace State
variable {width : Option Width} {s t : State}

theorem program_of_work (worked : s.work width = .ok t) : t.program = s.program := by
  unfold work at worked
  split at worked
  · cases worked
    rfl
  · unfold decode at worked
    split at worked
    · cases worked
      rfl
    · obtain ⟨signals, -, rfl⟩ := map_eq_ok.1 worked
      rfl
  · unfold execute at worked
    split at worked
    · cases worked
      rfl
    · obtain ⟨alu, -, rfl⟩ := map_eq_ok.1 worked
      rfl
  · cases worked
    unfold writeBack
    split <;> rfl

theorem program_of_advance (moved : s.advance width = .ok t) : t.program = s.program := by
  obtain ⟨u, worked, rfl⟩ := map_eq_ok.1 moved
  have kept := program_of_work worked
  exact kept

end State

namespace Engine

def moment (e : Engine) : Moment := ⟨e.state, e.stepCount⟩

def atMoment (e : Engine) (m : Moment) : Engine := { e with state := m.state, stepCount := m.stepCount }

theorem atMoment_moment {e f : Engine} (same : e.width = f.width) : e.atMoment f.moment = f := by
  cases e
  cases f
  cases same
  rfl

theorem atMoment_congr {e f : Engine} (same : e.width = f.width) (m : Moment) :
    e.atMoment m = f.atMoment m := by
  cases e
  cases f
  cases same
  rfl

/-- Every instruction of the program can be shown. -/
def Legible (e : Engine) : Prop := ∀ i ∈ e.state.program, ∃ text, i.render = .ok text

theorem legible_of_assemble {source : Text} {e : Engine}
    (assembled : (Assembly.assemble source).outcome = .ok e.state.program) : e.Legible :=
  fun i member => (Assembly.isAssembled_of_assemble assembled i member).render_eq_ok

/-- One stage is committed: the engine is not at its end, steps, and its new moment can be shown. -/
structure Commits (before : Engine) (m : Snapshot) (after : Engine) : Prop where
  running : before.isHalted = false
  step : before.step = .ok after
  shown : after.snapshotAt before.state.stage false = .ok m

/-- Stages committed one after the other. -/
inductive Path (origin : Engine) : List Moment → Engine → Prop where
  | start : Path origin [] origin
  | next {trail : List Moment} {before after : Engine} {m : Snapshot}
      (path : Path origin trail before) (commits : before.Commits m after) :
      Path origin (before.moment :: trail) after

theorem mem_of_current? {s : State} {i : Instruction} (found : s.current? = some i) :
    i ∈ s.program := by
  unfold State.current? at found
  split at found
  · cases found
  · exact List.mem_of_getElem? found

theorem exists_snapshotAt_eq_ok {e : Engine} (legible : ∀ i ∈ e.state.current?, ∃ text, i.render = .ok text)
    (stage : Stage) (halted : Bool) : ∃ m, e.snapshotAt stage halted = .ok m := by
  unfold snapshotAt
  split
  · exact ⟨_, rfl⟩
  · cases found : e.state.current? with
    | none => exact ⟨_, rfl⟩
    | some i =>
      obtain ⟨text, shown⟩ := legible i found
      simp only [shown]
      exact ⟨_, rfl⟩

theorem Legible.snapshotAt_eq_ok {e : Engine} (legible : e.Legible) (stage : Stage) (halted : Bool) :
    ∃ m, e.snapshotAt stage halted = .ok m :=
  exists_snapshotAt_eq_ok (fun i found => legible i (mem_of_current? found)) stage halted

theorem snapshotAt_eq_ok {e : Engine} {stage : Stage} {m : Snapshot}
    (shown : e.snapshotAt stage false = .ok m) :
    ∃ disassembly, m = {
      state := e.state, stage, instruction := e.state.current?, microSteps := stage.microSteps
      wires := stage.wires, stepCount := e.stepCount, disassembly } := by
  rw [snapshotAt, if_neg (by simp)] at shown
  split at shown
  all_goals
    obtain ⟨text, -, made⟩ := bind_eq_ok.1 shown
    cases made
    exact ⟨_, rfl⟩

theorem snapshotAt_running {e : Engine} {stage : Stage} {m : Snapshot}
    (shown : e.snapshotAt stage false = .ok m) :
    m.state = e.state ∧ m.stage = stage ∧ m.halted = false ∧ m.stepCount = e.stepCount := by
  obtain ⟨disassembly, rfl⟩ := snapshotAt_eq_ok shown
  exact ⟨rfl, rfl, rfl, rfl⟩

theorem shown_of_snapshotAt {e : Engine} {stage : Stage} {halted : Bool} {m : Snapshot}
    (shown : e.snapshotAt stage halted = .ok m) :
    m.state = e.state ∧ m.stage = stage ∧ m.stepCount = e.stepCount := by
  cases halted with
  | true =>
    cases shown
    exact ⟨rfl, rfl, rfl⟩
  | false =>
    obtain ⟨state, stage, -, count⟩ := snapshotAt_running shown
    exact ⟨state, stage, count⟩

theorem step_running {e : Engine} (running : e.isHalted = false) :
    e.step =
      (e.state.advance e.width).map fun state => { e with state, stepCount := e.stepCount + 1 } := by
  simp [step, running]

theorem step_halted {e : Engine} (halted : e.isHalted = true) : e.step = .ok e := by
  simp [step, halted]

theorem width_of_step {e f : Engine} (stepped : e.step = .ok f) : f.width = e.width := by
  cases halted : e.isHalted with
  | true =>
    rw [step_halted halted] at stepped
    cases stepped
    rfl
  | false =>
    rw [step_running halted] at stepped
    obtain ⟨state, -, rfl⟩ := map_eq_ok.1 stepped
    rfl

theorem isHalted_of_error {e : Engine} {fault : Fault} (stuck : e.step = .error fault) :
    e.isHalted = false := by
  rw [← Bool.not_eq_true]
  intro halted
  rw [step_halted halted] at stuck
  cases stuck

namespace Commits
variable {before after : Engine} {m : Snapshot}

theorem after_eq (commits : before.Commits m after) :
    ∃ state, before.state.advance before.width = .ok state ∧
      after = { before with state, stepCount := before.stepCount + 1 } := by
  have stepped := commits.step
  rw [step_running commits.running] at stepped
  obtain ⟨state, moved, rfl⟩ := map_eq_ok.1 stepped
  exact ⟨state, moved, rfl⟩

theorem width_eq (commits : before.Commits m after) : after.width = before.width := by
  obtain ⟨state, -, rfl⟩ := commits.after_eq
  rfl

theorem stepCount_eq (commits : before.Commits m after) :
    after.stepCount = before.stepCount + 1 := by
  obtain ⟨state, -, rfl⟩ := commits.after_eq
  rfl

theorem program_eq (commits : before.Commits m after) :
    after.state.program = before.state.program := by
  obtain ⟨state, moved, rfl⟩ := commits.after_eq
  exact State.program_of_advance moved

theorem stage_eq (commits : before.Commits m after) : after.state.stage = before.state.stage.next := by
  obtain ⟨state, moved, rfl⟩ := commits.after_eq
  obtain ⟨t, -, rfl⟩ := map_eq_ok.1 moved
  rfl

theorem legible (commits : before.Commits m after) (l : before.Legible) : after.Legible := by
  unfold Legible
  rw [commits.program_eq]
  exact l

theorem unique {n : Snapshot} {other : Engine} (commits : before.Commits m after)
    (again : before.Commits n other) : m = n ∧ after = other := by
  have same : after = other := Except.ok.inj (commits.step.symm.trans again.step)
  subst same
  exact ⟨Except.ok.inj (commits.shown.symm.trans again.shown), rfl⟩

end Commits

theorem Legible.commits {before after : Engine} (legible : before.Legible)
    (running : before.isHalted = false) (stepped : before.step = .ok after) :
    ∃ m, before.Commits m after := by
  have kept : after.Legible := by
    rw [step_running running] at stepped
    obtain ⟨state, moved, rfl⟩ := map_eq_ok.1 stepped
    unfold Legible
    rw [State.program_of_advance moved]
    exact legible
  obtain ⟨m, shown⟩ := kept.snapshotAt_eq_ok before.state.stage false
  exact ⟨m, running, stepped, shown⟩

namespace Path
variable {origin last : Engine} {trail : List Moment}

theorem width_eq (path : Path origin trail last) : last.width = origin.width := by
  induction path with
  | start => rfl
  | next _ commits ih => rw [commits.width_eq, ih]

theorem program_eq (path : Path origin trail last) : last.state.program = origin.state.program := by
  induction path with
  | start => rfl
  | next _ commits ih => rw [commits.program_eq, ih]

theorem stepCount_eq (path : Path origin trail last) :
    last.stepCount = origin.stepCount + trail.length := by
  induction path with
  | start => rfl
  | next _ commits ih =>
    rw [commits.stepCount_eq, ih, List.length_cons]
    omega

/-- The engine goes one way: a path is determined by its origin and its length. -/
theorem unique {other : Engine} {trace : List Moment} (path : Path origin trail last)
    (again : Path origin trace other) (same : trail.length = trace.length) :
    trail = trace ∧ last = other := by
  induction path generalizing trace other with
  | start =>
    cases again with
    | start => exact ⟨rfl, rfl⟩
    | next => simp at same
  | next path commits ih =>
    cases again with
    | start => simp at same
    | next path' commits' =>
      obtain ⟨rfl, rfl⟩ := ih path' (by simpa using same)
      exact ⟨rfl, (commits.unique commits').2⟩

theorem trans {middle : Engine} {trace : List Moment} (path : Path origin trail middle)
    (more : Path middle trace last) : Path origin (trace ++ trail) last := by
  induction more with
  | start => exact path
  | next _ commits ih => exact ih.next commits

theorem split {newer older : List Moment} (path : Path origin (newer ++ older) last) :
    ∃ middle, Path origin older middle ∧ Path middle newer last := by
  induction newer generalizing last with
  | nil => exact ⟨last, path, .start⟩
  | cons m newer ih =>
    cases path with
    | next path commits =>
      obtain ⟨middle, first, second⟩ := ih path
      exact ⟨middle, first, second.next commits⟩

theorem back {m : Moment} (path : Path origin (m :: trail) last) :
    Path origin trail (last.atMoment m) ∧ ∃ shown, (last.atMoment m).Commits shown last := by
  cases path with
  | @next _ before _ shown path commits =>
    rw [atMoment_moment commits.width_eq]
    exact ⟨path, shown, commits⟩

theorem first {steps : Nat} (path : Path origin trail last) (some : trail.length = steps + 1) :
    ∃ rest shown after, trail = rest ++ [origin.moment] ∧ origin.Commits shown after ∧
      Path after rest last := by
  have whole := (List.take_append_drop steps trail).symm
  have single : (trail.drop steps).length = 1 := by
    rw [List.length_drop]
    omega
  obtain ⟨m, only⟩ := List.length_eq_one_iff.1 single
  rw [only] at whole
  rw [whole] at path ⊢
  obtain ⟨after, one, rest⟩ := path.split
  cases one with
  | next begun commits =>
    cases begun with
    | start => exact ⟨trail.take steps, _, after, rfl, commits, rest⟩

theorem stepCount_getElem? (path : Path origin trail last) {place : Nat} {m : Moment}
    (found : trail[place]? = some m) : m.stepCount + (place + 1) = last.stepCount := by
  induction path generalizing place with
  | start => simp at found
  | next _ commits ih =>
    rw [commits.stepCount_eq]
    cases place with
    | zero =>
      simp only [List.getElem?_cons_zero, Option.some.injEq] at found
      rw [← found]
      rfl
    | succ place =>
      have := ih (by simpa using found)
      omega

theorem isChain {e : Engine} (path : Path origin trail last) (same : e.width = last.width) :
    List.IsChain (fun later earlier => ∃ shown, (e.atMoment earlier).Commits shown (e.atMoment later))
      (last.moment :: trail) := by
  induction path with
  | start => simp
  | next _ commits ih =>
    have width := same.trans commits.width_eq
    rw [List.isChain_cons_cons, atMoment_moment same, atMoment_moment width]
    exact ⟨⟨_, commits⟩, ih width⟩

theorem exists_prefix (path : Path origin trail last) {steps : Nat} (within : steps ≤ trail.length) :
    ∃ part middle, Path origin part middle ∧ part.length = steps := by
  rw [← List.take_append_drop (trail.length - steps) trail] at path
  obtain ⟨middle, first, -⟩ := path.split
  refine ⟨_, middle, first, ?_⟩
  rw [List.length_drop]
  omega

theorem length_le_of_not_commits {stopped : Engine} {trace : List Moment}
    (path : Path origin trail stopped) (stops : ∀ m after, ¬ stopped.Commits m after)
    (other : Path origin trace last) : trace.length ≤ trail.length := by
  by_contra longer
  obtain ⟨part, middle, reached, length⟩ := other.exists_prefix (Nat.lt_of_not_le longer)
  cases reached with
  | start => simp at length
  | next before commits =>
    obtain ⟨-, rfl⟩ := before.unique path (by simpa using length)
    exact stops _ _ commits

theorem length_le_of_error {stuck : Engine} {trace : List Moment} {fault : Fault}
    (path : Path origin trail stuck) (stops : stuck.step = .error fault)
    (other : Path origin trace last) : trace.length ≤ trail.length := by
  refine path.length_le_of_not_commits (fun m after commits => ?_) other
  have stepped := commits.step
  rw [stops] at stepped
  cases stepped

theorem length_le_of_isHalted {trace : List Moment} {other : Engine} (path : Path origin trail last)
    (halted : last.isHalted = true) (more : Path origin trace other) :
    trace.length ≤ trail.length := by
  refine path.length_le_of_not_commits (fun m after commits => ?_) more
  have running := commits.running
  rw [halted] at running
  cases running

theorem onward {part : List Moment} {middle : Engine} (path : Path origin trail last)
    (halted : last.isHalted = true) (begun : Path origin part middle) :
    ∃ rest, Path middle rest last ∧ rest.length + part.length = trail.length := by
  have within := path.length_le_of_isHalted halted begun
  have whole := path
  rw [← List.take_append_drop (trail.length - part.length) trail] at whole
  obtain ⟨reached, first, rest⟩ := whole.split
  obtain ⟨-, rfl⟩ := first.unique begun (by rw [List.length_drop]; omega)
  refine ⟨_, rest, ?_⟩
  rw [List.length_take]
  omega

end Path
end Engine
end StageMachine
