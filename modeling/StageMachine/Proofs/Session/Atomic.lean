import StageMachine.Proofs.Machine.Change
import StageMachine.Proofs.Session.Phase
import StageMachine.Proofs.Session.Step

/-! Steps are all or nothing. Whatever program the machine was given, a step finds it at its end and leaves it
as it is, or commits one stage as a whole, or fails and leaves the whole session as it was. Listeners are told
after that, so they never see a stage half made. -/
namespace StageMachine
namespace Session
variable {limit : Option Int} {origin s t : Session} {m : Snapshot}

/-- A step has come to the session `t` before anyone is told of it. Beside the machine, its past and the latest
moment only the log is new. Then the listeners are called on `t`, in order, and the moment is returned. -/
structure Settles (s : Session) (m : Snapshot) (t : Session) : Prop where
  spared : t = { s with engine := t.engine, history := t.history, last := some m, journal := t.journal }
  told : step s = (do tellAll (stepWithin (nestingLimit - 1)) m s.listeners; return m : Act Session Snapshot) t
  heeded : (∀ l ∈ s.listeners, l.Passive) → ∃ u, step s = .ok m u ∧ Heeded t u

theorem settles_of_commit (committed : commit s = .ok m t) : Settles s m t where
  spared := by rcases commit_eq_ok committed with ⟨_, -, rfl⟩ | ⟨-, -, rfl⟩ <;> rfl
  told := by
    have nested (depth : Nat) : stepWithin (depth + 1) s =
        (do tellAll (stepWithin depth) m s.listeners; return m : Act Session Snapshot) t := by
      simp [stepWithin, Act.bind_apply, Act.map_apply, committed, listeners_of_commit committed]
    exact nested 489
  heeded passive := step_of_commit passive committed

theorem settles_halted (halted : s.engine.isHalted = true) :
    ∃ m t, Settles s m t ∧ m.halted = true ∧ t.engine = s.engine ∧ t.history = s.history :=
  ⟨_, _, settles_of_commit (commit_halted halted rfl), rfl, rfl, rfl⟩

/-- A step that is neither at the end nor barred commits what one stage changes, and what was before it is the
newest of the past. -/
theorem settles_running (phase : s.engine.InPhase) (legible : s.engine.Legible)
    (running : s.engine.isHalted = false) (free : ¬ s.engine.Barred) :
    ∃ m t, Settles s m t ∧ m.halted = false ∧ m.state = t.engine.state ∧
      s.engine.state.Ran t.engine.state ∧ t.engine.width = s.engine.width ∧
      t.engine.stepCount = s.engine.stepCount + 1 ∧
      t.history.toList = (s.engine.moment :: s.history.toList).take s.history.limit := by
  obtain ⟨m, e, commits, ran⟩ := phase.exists_commits legible running free
  obtain ⟨state, -, going, -⟩ := Engine.snapshotAt_running commits.shown
  exact ⟨m, _, settles_of_commit (commit_running commits), going, state, ran, commits.width_eq,
    commits.stepCount_eq, History.toList_push _ _⟩

/-- Steps are atomic for every program whose numbers are short enough to be written, however its instructions
are malformed otherwise, and in every session that operations lead to. At the end of the program nothing but
the latest moment changes. Elsewhere one stage is committed, which goes on to the next stage of the cycle; its
state is what that stage may change and no more. Only a word of less than seven characters to decode, or a
result to cut to a width that there is no room for, makes the step fail: then the session is as it was, and no
one was told. -/
theorem step_atomic (started : Started limit origin) (handled : Handled origin s)
    (short : ∀ i ∈ s.engine.state.program, i.Short) :
    (s.engine.isHalted = true →
      ∃ m t, Settles s m t ∧ m.halted = true ∧ t.engine = s.engine ∧ t.history = s.history) ∧
    (s.engine.isHalted = false → ¬ s.engine.Barred →
      ∃ m t, Settles s m t ∧ m.halted = false ∧ m.state = t.engine.state ∧
        s.engine.state.Ran t.engine.state ∧
        t.engine.state.stage = s.engine.state.stage.next ∧ t.engine.width = s.engine.width ∧
        t.engine.stepCount = s.engine.stepCount + 1 ∧
        t.history.toList = (s.engine.moment :: s.history.toList).take s.history.limit) ∧
    (s.engine.Barred → s.engine.isHalted = false ∧ ∃ fault, step s = .error fault s ∧
      (s.engine.state.Unreadable → fault = .shortWord) ∧
      (s.engine.state.Overwide s.engine.width → fault = .tooManyPlaces ∨ fault = .noRoom)) := by
  obtain ⟨phase, -⟩ := handled.throughout Engine.InPhase.step Engine.inPhase_load started.inPhase
  have legible : s.engine.Legible := fun i member => (short i member).render_eq_ok
  refine ⟨settles_halted, fun running free => ?_, fun barred => ?_⟩
  · obtain ⟨m, t, settles, going, state, ran, rest⟩ := settles_running phase legible running free
    exact ⟨m, t, settles, going, state, ran, ran.stage_eq, rest⟩
  · obtain ⟨fault, refused, kinds⟩ := barred.step_eq
    exact ⟨barred.running, fault, step_of_error refused, kinds⟩

theorem step_atomic_short_word : ∃ origin s t : Session, ∃ m, Started (some 4) origin ∧ Handled origin s ∧
    s.engine.state.program = [{ binary := "1".toList, dest := some (-4) }] ∧ s.listeners ≠ [] ∧
    Settles s m t ∧ s.engine.state.Ran t.engine.state ∧ t.engine.state.stage = .decode ∧
    t.engine.stepCount = 1 ∧ Handled origin (step.after s) ∧
    step (step.after s) = .error .shortWord (step.after s) := by
  let origin : Session := { history := { limit := 4 } }
  have engine : Engine.create (.upTo 0) none = .ok {} := rfl
  have session : create {} (some 1000) (some 4) = .ok origin := rfl
  have started : Started (some 4) origin := .created engine session
  let i : Instruction := { binary := "1".toList, dest := some (-4) }
  let heard := (Operation.addListener { name := "told".toList }).act.after origin
  let s : Session := { heard with engine := heard.engine.load [i] }
  have handled : Handled origin s := (Handled.start.next (.addListener _)).put [i]
  have later : Handled origin (step.after s) := Act.after_discard step s ▸ handled.next .step
  have short : ∀ j ∈ [i], j.Short := Instruction.short_of_digits (by decide)
  have free : ¬ s.engine.Barred := by rintro (⟨stage, -⟩ | ⟨stage, -⟩) <;> cases stage
  obtain ⟨-, made, -⟩ := step_atomic started handled short
  obtain ⟨m, t, settles, -, -, ran, stage, width, count, -⟩ := made (by decide +kernel) free
  have program : (step.after s).engine.state.program = [i] := by decide +kernel
  have unreadable : (step.after s).engine.state.Unreadable :=
    ⟨by decide +kernel, i, by decide +kernel, by decide⟩
  obtain ⟨-, -, refused⟩ := step_atomic started later (program ▸ short)
  obtain ⟨-, fault, failed, kind, -⟩ := refused (.inl unreadable)
  rw [kind unreadable] at failed
  exact ⟨origin, s, t, m, started, handled, rfl, by decide +kernel, settles, ran, stage, count, later, failed⟩

/-- At a width that there is no room for, an instruction in order is decoded, and fails to be executed. And a
listener that acts on the session may undo a stage before the step comes back. -/
theorem not_step_atomic_of_any :
    ¬ (∀ limit origin s fault t, Started limit origin → Handled origin s →
      (∀ i ∈ s.engine.state.program, i.Short) → s.listeners = [] → step s = .error fault t →
      s.engine.state.Unreadable) ∧
    ¬ (∀ limit origin s m t, Started limit origin → Handled origin s →
      (∀ i ∈ s.engine.state.program, i.Short) → s.engine.isHalted = false → step s = .ok m t →
      t.engine.stepCount = s.engine.stepCount + 1) := by
  constructor
  · intro always
    let origin : Session := {
      engine := { width := some ⟨0x100000000000000000000, by decide, true⟩ }, history := { limit := 4 } }
    have engine : Engine.create ⟨fun _ => true, fun _ => true⟩ (some 0x100000000000000000000) = .ok origin.engine :=
      rfl
    have session : create origin.engine (some 1000) (some 4) = .ok origin := rfl
    have started : Started (some 4) origin := .created engine session
    let operations : List Operation := [.load "LDI R1, 5".toList, .step, .step]
    let s := operations.foldl (fun t operation => operation.act.after t) origin
    have handled : Handled origin s := (Reaches.start.foldl operations).handled
    have short : ∀ i ∈ s.engine.state.program, i.Short := Instruction.short_of_digits (by decide +kernel)
    have stage : s.engine.state.stage = .execute := by decide +kernel
    have width : s.engine.width = some ⟨0x100000000000000000000, by decide, true⟩ := by decide +kernel
    have barred : s.engine.Barred := .inr ⟨stage, by decide +kernel, _, width, by decide +kernel⟩
    obtain ⟨fault, refused, -⟩ := barred.step_eq
    obtain ⟨decoding, -⟩ :=
      always (some 4) origin s fault s started handled short (by decide +kernel) (step_of_error refused)
    rw [stage] at decoding
    cases decoding
  · intro always
    let origin : Session := { history := { limit := 4 } }
    have engine : Engine.create (.upTo 0) none = .ok {} := rfl
    have session : create {} (some 1000) (some 4) = .ok origin := rfl
    have started : Started (some 4) origin := .created engine session
    let operations : List Operation :=
      [.addListener { name := "told".toList, reaction := .reset }, .load "LDI R1, 5".toList]
    let s := operations.foldl (fun t operation => operation.act.after t) origin
    have handled : Handled origin s := (Reaches.start.foldl operations).handled
    have short : ∀ i ∈ s.engine.state.program, i.Short := Instruction.short_of_digits (by decide +kernel)
    have ended : (step.result? s).isSome = true := by decide +kernel
    obtain ⟨⟨m, t⟩, made⟩ := Option.isSome_iff_exists.1 ended
    have made : step s = .ok m t := Act.result?_eq_some.1 made
    have counted := always (some 4) origin s m t started handled short (by decide +kernel) made
    rw [← Act.after_of_ok made] at counted
    exact absurd counted (by decide +kernel)

end Session
end StageMachine
