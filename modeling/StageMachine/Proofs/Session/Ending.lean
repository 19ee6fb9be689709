import StageMachine.Proofs.Session.Stopping

/-! How a run ends. A run that comes back takes its mark off the session; a fault in one of its turns
ends it too, and the mark stays as that turn left it. -/
namespace StageMachine.Session
variable {s t : Session} {interval : Int} {fault : Fault}

theorem run_begins (s : Session) (asked maxSteps : Option Int) :
    (∃ interval, chosenInterval asked s.clockInterval = .ok interval ∧ 0 ≤ interval) ∨
      ∃ fault, run asked maxSteps s = .error fault s := by
  cases chosen : chosenInterval asked s.clockInterval with
  | error fault => exact .inr ⟨fault, by simp [run, Act.bind_apply, chosen]⟩
  | ok interval =>
    by_cases low : 0 ≤ interval
    · exact .inl ⟨interval, rfl, low⟩
    · have refused : ∃ fault, (Act.ofExcept (Numeral.decimal interval) >>= fun _ =>
          throw (Fault.negativeRunInterval interval) : Act Session Progress) s = .error fault s := by
        rw [Act.bind_apply]
        cases Numeral.decimal interval with
        | error fault => exact ⟨fault, rfl⟩
        | ok words => exact ⟨.negativeRunInterval interval, rfl⟩
      refine .inr ?_
      simp only [run, Act.bind_apply, Act.get_apply, chosen, Act.ofExcept_ok]
      rwa [if_pos (Int.not_le.1 low)]

variable {asked maxSteps : Option Int}

theorem turns_eq_error {p : Progress} (stopped : turns interval maxSteps p s = some (.error fault t)) :
    ∃ q u, u.running = true ∧ turn interval maxSteps q u = .error fault t := by
  refine turns_induction interval maxSteps
    (motive := fun _ _ r => r = .error fault t →
      ∃ q u, u.running = true ∧ turn interval maxSteps q u = .error fault t) ?_ ?_ ?_ ?_ stopped rfl
  · intro p s idle same
    cases same
  · intro p s q u on turned same
    cases same
  · intro p s q u r on turned ih same
    exact ih same
  · intro p s other u on turned same
    cases same
    exact ⟨p, s, on, turned⟩

theorem run_of_stuck (chosen : chosenInterval asked s.clockInterval = .ok interval) (low : 0 ≤ interval)
    (stuck : s.engine.step = .error fault) :
    run asked maxSteps s = .error fault { s with running := true } := by
  have failed : turn interval maxSteps { snapshot := s.last } { s with running := true } =
      .error fault { s with running := true } := turn_of_error stuck fun begun => absurd rfl begun
  rw [run_eq chosen low, turns.eq_1, if_pos rfl, failed]

/-- A run that comes back takes the mark of a run off the session. One that a fault stops does not: a machine
that is stuck leaves the mark, and a run that is refused before its first turn keeps the mark that another one
has left. -/
theorem run_running (s : Session) (asked maxSteps : Option Int) :
    (∀ p t, run asked maxSteps s = .ok p t → t.running = false) ∧
    (∀ fault t, run asked maxSteps s = .error fault t →
      t = s ∨ (fault = .unfinished ∧ t = { s with running := true }) ∨
        ∃ interval p u, u.running = true ∧ turn interval maxSteps p u = .error fault t) ∧
    (∀ interval fault, chosenInterval asked s.clockInterval = .ok interval → 0 ≤ interval →
      s.engine.step = .error fault →
        run asked maxSteps s = .error fault { s with running := true }) := by
  refine ⟨fun p t came => ?_, fun fault t stopped => ?_, fun interval fault => run_of_stuck⟩
  · rcases run_begins s asked maxSteps with ⟨interval, chosen, low⟩ | ⟨fault, refused⟩
    · rw [run_eq chosen low] at came
      split at came
      · cases came
        rfl
      · cases came
      · cases came
    · rw [refused] at came
      cases came
  · rcases run_begins s asked maxSteps with ⟨interval, chosen, low⟩ | ⟨other, refused⟩
    · rw [run_eq chosen low] at stopped
      split at stopped
      · cases stopped
      · next ended =>
        cases stopped
        exact .inr (.inr ⟨interval, turns_eq_error ended⟩)
      · cases stopped
        exact .inr (.inl ⟨rfl, rfl⟩)
    · rw [refused] at stopped
      cases stopped
      exact .inl rfl

theorem run_running_of_short_word :
    ∃ s t : Session, s.engine.state.program = [{ binary := ['1'] }] ∧ s.running = false ∧
      run (some 0) none s = .error .shortWord t ∧ t.running = true := by
  let s : Session := {
    engine := { state := { program := [{ binary := ['1'] }], stage := .decode } }
    history := { limit := 4 } }
  have failed : run (some 0) none s = .error .shortWord { s with running := true } :=
    (run_running s (some 0) none).2.2 0 .shortWord rfl (by decide) rfl
  exact ⟨s, _, rfl, rfl, failed, rfl⟩

theorem not_idle_after_every_run :
    ¬ ∀ (s t : Session) (asked maxSteps : Option Int) (fault : Fault),
      run asked maxSteps s = .error fault t → fault ≠ .unfinished → t.running = false := by
  intro idle
  let s : Session := {
    engine := { state := { program := [{ binary := ['1'] }], stage := .decode } }
    history := { limit := 4 } }
  have chosen : chosenInterval (some 0) s.clockInterval = .ok 0 := rfl
  have failed : run (some 0) none s = .error .shortWord { s with running := true } :=
    run_of_stuck chosen (by decide) rfl
  have cleared := idle s _ (some 0) none .shortWord failed (by decide)
  cases cleared

end StageMachine.Session
