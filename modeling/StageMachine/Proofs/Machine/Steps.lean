import StageMachine.Proofs.Machine.Duration

/-! Any number of steps. Each of them is made and shown, and an engine at the end of its program stays as
it is. What a single step keeps, of one engine or between two of them, any number of steps keeps. -/
namespace StageMachine.Engine
variable {e f last : Engine} {n : Nat}

def shownStep (e : Engine) : Except Fault Engine := do
  let after ← e.step
  let _ ← after.snapshotAt e.state.stage e.isHalted
  return after

def steps (e : Engine) : Nat → Except Fault Engine
  | 0 => .ok e
  | n + 1 => e.steps n >>= shownStep

theorem program_of_step (stepped : e.step = .ok f) : f.state.program = e.state.program := by
  cases halted : e.isHalted with
  | true =>
    rw [step_halted halted] at stepped
    cases stepped
    rfl
  | false =>
    rw [step_running halted] at stepped
    obtain ⟨state, moved, rfl⟩ := map_eq_ok.1 stepped
    exact State.program_of_advance moved

theorem step_of_shownStep (made : e.shownStep = .ok f) : e.step = .ok f := by
  obtain ⟨after, stepped, rest⟩ := bind_eq_ok.1 made
  obtain ⟨m, -, kept⟩ := bind_eq_ok.1 rest
  cases kept
  exact stepped

theorem Legible.shownStep_eq (legible : e.Legible) : e.shownStep = e.step := by
  unfold shownStep
  cases stepped : e.step with
  | error fault => rfl
  | ok after =>
    have kept : after.Legible := by
      unfold Legible
      rw [program_of_step stepped]
      exact legible
    obtain ⟨m, shown⟩ := kept.snapshotAt_eq_ok e.state.stage e.isHalted
    simp only [bind, Except.bind, shown]
    rfl

theorem shownStep_halted (halted : e.isHalted = true) : e.shownStep = .ok e := by
  simp [shownStep, step_halted halted, snapshotAt, halted, bind, Except.bind, pure, Except.pure]

theorem steps_halted (halted : e.isHalted = true) (n : Nat) : e.steps n = .ok e := by
  induction n with
  | zero => rfl
  | succ n ih =>
    rw [steps, ih]
    exact shownStep_halted halted

theorem steps_add (e : Engine) (m n : Nat) : e.steps (m + n) = e.steps m >>= fun f => f.steps n := by
  induction n with
  | zero => cases e.steps m <;> rfl
  | succ n ih =>
    rw [← Nat.add_assoc, steps, ih]
    cases e.steps m <;> rfl

section
variable {motive : Engine → Prop} {related : Engine → Engine → Prop}

theorem steps_induction (step : ∀ {a b}, motive a → a.step = .ok b → motive b) (start : motive e)
    (made : e.steps n = .ok last) : motive last := by
  induction n generalizing last with
  | zero =>
    cases made
    exact start
  | succ n ih =>
    obtain ⟨before, reached, final⟩ := bind_eq_ok.1 made
    exact step (ih reached) (step_of_shownStep final)

theorem steps_related {other : Engine}
    (step : ∀ {a b a' b'}, related a b → a.step = .ok a' → b.step = .ok b' → related a' b')
    (start : related e f) (made : e.steps n = .ok last) (made' : f.steps n = .ok other) :
    related last other := by
  induction n generalizing last other with
  | zero =>
    cases made
    cases made'
    exact start
  | succ n ih =>
    obtain ⟨a, reached, final⟩ := bind_eq_ok.1 made
    obtain ⟨b, reached', final'⟩ := bind_eq_ok.1 made'
    exact step (ih reached reached') (step_of_shownStep final) (step_of_shownStep final')

/-- Engines that go the same way in each step go the same way in any number of them. -/
theorem steps_agree (step : ∀ {a b}, related a b → Agree related a.shownStep b.shownStep)
    (start : related e f) (n : Nat) : Agree related (e.steps n) (f.steps n) := by
  induction n with
  | zero => exact .value start
  | succ n ih => exact ih.bind step

end

theorem Path.steps_eq {trail : List Moment} (path : e.Path trail last) :
    e.steps trail.length = .ok last := by
  induction path with
  | start => rfl
  | next path commits ih =>
    rw [List.length_cons, steps, ih]
    simp [shownStep, bind, Except.bind, commits.step, commits.running, commits.shown, pure, Except.pure]

theorem commits_of_shownStep (made : e.shownStep = .ok f) (running : e.isHalted = false) :
    ∃ m, e.Commits m f := by
  obtain ⟨after, stepped, rest⟩ := bind_eq_ok.1 made
  obtain ⟨m, shown, kept⟩ := bind_eq_ok.1 rest
  cases kept
  rw [running] at shown
  exact ⟨m, running, stepped, shown⟩

theorem exists_path_of_steps (made : e.steps n = .ok last) :
    ∃ trail, e.Path trail last ∧ (trail.length = n ∨ trail.length < n ∧ last.isHalted = true) := by
  induction n generalizing last with
  | zero =>
    cases made
    exact ⟨[], .start, .inl rfl⟩
  | succ n ih =>
    obtain ⟨before, reached, final⟩ := bind_eq_ok.1 made
    obtain ⟨trail, path, length⟩ := ih reached
    cases halted : before.isHalted with
    | true =>
      rw [shownStep_halted halted] at final
      cases final
      exact ⟨trail, path, .inr ⟨by omega, halted⟩⟩
    | false =>
      obtain ⟨m, commits⟩ := commits_of_shownStep final halted
      refine ⟨_, path.next commits, .inl ?_⟩
      rcases length with all | ⟨-, ended⟩
      · rw [List.length_cons, all]
      · rw [halted] at ended
        cases ended

theorem running_of_lt_stagesToEnd (made : e.steps n = .ok last) (before : (n : ℕ∞) < e.stagesToEnd) :
    last.isHalted = false := by
  obtain ⟨trail, path, length⟩ := exists_path_of_steps made
  rw [← Bool.not_eq_true]
  intro halted
  rw [path.stagesToEnd_eq halted, Nat.cast_lt] at before
  omega

theorem steps_of_error {fault : Fault} (stuck : e.steps n = .error fault) {more : Nat}
    (later : n ≤ more) : e.steps more = .error fault := by
  induction later with
  | refl => exact stuck
  | step _ ih => rw [steps, ih]; rfl

theorem steps_eq_ok (assembled : ∀ i ∈ e.state.program, i.IsAssembled)
    (masks : ∀ w ∈ e.width, w.Masks) (n : Nat) : ∃ last, e.steps n = .ok last := by
  induction n with
  | zero => exact ⟨e, rfl⟩
  | succ n ih =>
    obtain ⟨before, reached⟩ := ih
    obtain ⟨width, program⟩ : before.width = e.width ∧ before.state.program = e.state.program :=
      steps_induction (motive := fun f => f.width = e.width ∧ f.state.program = e.state.program)
        (fun kept stepped => ⟨(width_of_step stepped).trans kept.1,
          (program_of_step stepped).trans kept.2⟩) ⟨rfl, rfl⟩ reached
    have legible : before.Legible := fun i member =>
      (assembled i (program ▸ member)).render_eq_ok
    rw [steps, reached]
    show ∃ last, before.shownStep = .ok last
    rw [legible.shownStep_eq]
    cases halted : before.isHalted with
    | true => exact ⟨before, step_halted halted⟩
    | false =>
      obtain ⟨state, moved⟩ := State.advance_eq_ok (program ▸ assembled) (width ▸ masks)
      rw [step_running halted, moved]
      exact ⟨_, rfl⟩

theorem steps_stuck {source : Text} {program : List Instruction} {w : Width}
    (assembled : (Assembly.assemble source).outcome = .ok program) (some : program ≠ [])
    (wide : e.width = .some w) (stuck : ¬ w.Masks) :
    (∃ last, (e.load program).steps 2 = .ok last ∧ last.state.stage = .execute) ∧
      ∀ n > 2, (e.load program).steps n = .error w.fault := by
  have inside : (e.load program).state.pc < program.length := by
    have := List.length_pos_iff.2 some
    show (0 : Int) < program.length
    omega
  obtain ⟨trail, last, path, two, stage, -, stops⟩ :=
    path_stuck assembled rfl rfl inside (Int.le_refl 0) wide stuck
  have reached : (e.load program).steps 2 = .ok last := two ▸ path.steps_eq
  have third : (e.load program).steps 3 = .error w.fault := by
    rw [steps, reached]
    show last.shownStep = _
    rw [shownStep, stops]
    rfl
  exact ⟨⟨last, reached, stage⟩, fun n more => steps_of_error third more⟩

end StageMachine.Engine
