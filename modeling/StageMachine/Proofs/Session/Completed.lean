import StageMachine.Proofs.Machine.Steps
import StageMachine.Proofs.Session.Reachable

/-! Operations that come to their end. A fault may leave the machine in the middle of an instruction that
cannot be shown; while no operation fails, whatever is in work can be. -/
namespace StageMachine

namespace Engine
variable {e f : Engine} {m : Snapshot}

def Showable (e : Engine) : Prop :=
  e.state.stage ≠ .fetch → ∀ i ∈ e.state.current?, ∃ text, i.render = .ok text

theorem Commits.showable (commits : e.Commits m f) : f.Showable := by
  rintro - i found
  have shown := commits.shown
  rw [snapshotAt, if_neg (by simp), found] at shown
  obtain ⟨text, rendered, -⟩ := bind_eq_ok.1 shown
  exact ⟨text, rendered⟩

end Engine

namespace Session
variable {origin s t : Session} {holds : Engine → Prop}

/-- The sessions that operations lead to which come to their end, where programs may be put straight into the
machine and the machine may be stepped by hand. -/
inductive Completed (origin : Session) : Session → Prop where
  | start : Completed origin origin
  | next {s t : Session} (completed : Completed origin s) (operation : Operation)
      (done : operation.act s = .ok () t) : Completed origin t
  | put {s : Session} (completed : Completed origin s) (program : List Instruction) :
      Completed origin { s with engine := s.engine.load program }
  | stepped {s : Session} {e : Engine} (completed : Completed origin s) (made : s.engine.shownStep = .ok e) :
      Completed origin { s with engine := e }

theorem Completed.handled (completed : Completed origin s) : Handled origin s := by
  induction completed with
  | start => exact .start
  | next _ operation done ih => exact Act.after_of_ok done ▸ ih.next operation
  | put _ program ih => exact ih.put program
  | stepped _ made ih => exact ih.stepped (Engine.step_of_shownStep made)

theorem Throughout.stepBack {m : Option Snapshot} (throughout : Throughout holds s)
    (back : Session.stepBack s = .ok m t) : Throughout holds t := by
  rw [← Act.after_of_ok back]
  cases popped : s.history.pop? with
  | none => rwa [Act.after_of_ok (stepBack_none popped)]
  | some _ =>
    rw [stepBack_eq popped]
    exact throughout.undo popped

section
variable (load : ∀ e program, holds (Engine.load e program))
  (commit : ∀ {e f m}, holds e → Engine.Commits e m f → holds f)

include load commit

theorem traced_throughout : Traced (fun s t => Throughout holds s → Throughout holds t) fun _ _ _ => True where
  refl _ := id
  still _ _ := trivial
  trans first rest := rest ∘ first
  stop _ _ := trivial
  quiet engine history _ _ throughout := throughout.congr engine history
  commit := Act.leads_of_ended fun committed throughout => by
    rcases commit_eq_ok committed with ⟨e, commits, rfl⟩ | ⟨-, -, rfl⟩
    · exact (throughout.commit commits (commit throughout.1 commits)).congr rfl rfl
    · exact throughout.congr rfl rfl
  overrun := leads_overrun fun _ => trivial
  stepBack := Act.leads_of_ended fun back throughout => throughout.stepBack back
  reset := Act.leads_of_ended fun done _ => by
    cases done
    exact throughout_restart (load _ _)
  load _ := Act.leads_of_ended fun done _ => by
    obtain ⟨program, engine⟩ := engine_of_load done
    exact ⟨engine ▸ load _ _, by simp [(loaded_of_load done).history]⟩

theorem Completed.throughout (begun : Throughout holds origin) (completed : Completed origin s) :
    Throughout holds s := by
  induction completed with
  | start => exact begun
  | next _ operation done ih => exact (leads_act (traced_throughout load commit) operation).ended done ih
  | put _ program ih => exact ⟨load _ program, ih.2⟩
  | @stepped s e _ made ih =>
    refine ih.stepped (Engine.step_of_shownStep made) ?_
    cases halted : s.engine.isHalted with
    | true =>
      rw [Engine.shownStep_halted halted] at made
      cases made
      exact ih.1
    | false =>
      obtain ⟨m, commits⟩ := Engine.commits_of_shownStep made halted
      exact commit ih.1 commits

end

theorem Completed.showable {limit : Option Int} (started : Started limit origin)
    (completed : Completed origin s) : s.engine.Showable := by
  have begun : Throughout Engine.Showable origin :=
    ⟨fun late => absurd (Fresh.started started).ready.2 late, by simp [started.toList_history]⟩
  exact (completed.throughout (fun _ _ late => absurd rfl late) (fun _ commits => commits.showable) begun).1

end Session
end StageMachine
