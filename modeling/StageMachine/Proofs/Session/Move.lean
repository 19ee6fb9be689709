import Mathlib.Logic.Relation
import StageMachine.Proofs.Action
import StageMachine.Proofs.Machine.Path
import StageMachine.Settings.Build
import StageMachine.Session.Run

/-! What an operation can do to a session. However steps nest and wherever a fault stops them, the
machine, its history and the latest moment change in single moves of a few kinds. Only where steps nest too
deep the machine moves by itself. -/
namespace StageMachine
namespace Session

inductive Move : Session → Session → Prop where
  /-- The machine and its past stay as they are. -/
  | quiet {s t : Session} (engine : t.engine = s.engine) (history : t.history = s.history)
      (last : t.last = s.last) (source : t.source = s.source) : Move s t
  | read (s : Session) (source : Text) : Move s { s with source }
  | commit {s : Session} {m : Snapshot} {e : Engine} (commits : s.engine.Commits m e) :
      Move s { s with engine := e, history := s.history.push s.engine.moment, last := some m }
  /-- A machine at its end was stepped. -/
  | rest {s : Session} {m : Snapshot} (halted : s.engine.isHalted = true)
      (shown : s.engine.snapshotAt s.engine.state.stage true = .ok m) :
      Move s { s with last := some m }
  /-- A step was made to a moment that cannot be shown. -/
  | slip {s : Session} {e : Engine} {fault : Fault} (running : s.engine.isHalted = false)
      (stepped : s.engine.step = .ok e)
      (unseen : e.snapshotAt s.engine.state.stage false = .error fault) :
      Move s { s with engine := e }
  | undo {s : Session} {m : Moment} {history : History}
      (popped : s.history.pop? = some (m, history)) :
      Move s { s with engine := s.engine.atMoment m, history, last := none }
  | load {s : Session} {program : List Instruction}
      (assembled : (Assembly.assemble s.source).outcome = .ok program) :
      Move s (s.restart (s.engine.load program))
  | reset (s : Session) : Move s (s.restart s.engine.reset)

abbrev Moves : Session → Session → Prop := Relation.ReflTransGen Move

/-- The machine made a stage, and the session took no note of it. -/
inductive Overrun (s : Session) : Session → Prop where
  | mk {e : Engine} (running : s.engine.isHalted = false) (stepped : s.engine.step = .ok e) :
      Overrun s { s with engine := e }

inductive Change : Session → Session → Prop where
  | move {s t : Session} (move : Move s t) : Change s t
  | overrun {s t : Session} (overrun : Overrun s t) : Change s t

abbrev Changes : Session → Session → Prop := Relation.ReflTransGen Change

/-- What a fault leaves: moves, and behind them a stage without a note where steps nested too deep. -/
def BreaksOff (fault : Fault) (s t : Session) : Prop :=
  Moves s t ∨ fault = .nestingTooDeep ∧ ∃ u, Moves s u ∧ Overrun u t

theorem Moves.changes {s t : Session} (moves : Moves s t) : Changes s t := by
  have each : Move ≤ Change := fun _ _ => Change.move
  exact Relation.ReflTransGen.mono each _ _ moves

theorem BreaksOff.changes {fault : Fault} {s t : Session} (broken : BreaksOff fault s t) : Changes s t := by
  rcases broken with moves | ⟨-, u, moves, overrun⟩
  · exact moves.changes
  · exact moves.changes.tail (.overrun overrun)

theorem BreaksOff.moves {fault : Fault} {s t : Session} (broken : BreaksOff fault s t) (other : fault ≠ .nestingTooDeep) :
    Moves s t :=
  broken.resolve_right fun deep => other deep.1

theorem through_reset : Act.Through Move reset :=
  (Act.through_modify fun _ => .quiet rfl rfl rfl rfl).bind fun _ => Act.through_modify .reset

theorem commit_running {s : Session} {m : Snapshot} {e : Engine} (commits : s.engine.Commits m e) :
    commit s = .ok m { s with
      engine := e
      history := s.history.push s.engine.moment
      last := some m
      journal := s.engine.stepRemarks.reverse ++ s.journal } := by
  have open_end := (Engine.snapshotAt_running commits.shown).2.2.1
  have shown := commits.shown
  rw [← commits.running] at shown
  simp [commit, drive, Act.bind_apply, Act.map_apply, commits.step, shown, settled, open_end, Engine.moment]

theorem commit_halted {s : Session} {m : Snapshot} (halted : s.engine.isHalted = true)
    (shown : s.engine.snapshotAt s.engine.state.stage true = .ok m) :
    commit s = .ok m { s with
      last := some m, journal := s.engine.stepRemarks.reverse ++ s.journal } := by
  have closed : m.halted = true := by
    cases shown
    rfl
  rw [← halted] at shown
  simp [commit, drive, Act.bind_apply, Act.map_apply, Engine.step_halted halted, shown, settled, closed]

theorem commit_eq_ok {s t : Session} {m : Snapshot} (committed : commit s = .ok m t) :
    (∃ e, s.engine.Commits m e ∧ t = { s with
        engine := e
        history := s.history.push s.engine.moment
        last := some m
        journal := s.engine.stepRemarks.reverse ++ s.journal }) ∨
      s.engine.isHalted = true ∧ s.engine.snapshotAt s.engine.state.stage true = .ok m ∧
        t = { s with last := some m, journal := s.engine.stepRemarks.reverse ++ s.journal } := by
  cases stepped : s.engine.step with
  | error fault => simp [commit, drive, Act.bind_apply, stepped] at committed
  | ok e =>
    cases halted : s.engine.isHalted with
    | true =>
      rw [commit_halted halted rfl] at committed
      cases committed
      exact .inr ⟨rfl, rfl, rfl⟩
    | false =>
      cases shown : e.snapshotAt s.engine.state.stage false with
      | error fault => simp [commit, drive, Act.bind_apply, stepped, halted, shown] at committed
      | ok n =>
        have commits : s.engine.Commits n e := ⟨halted, stepped, shown⟩
        rw [commit_running commits] at committed
        cases committed
        exact .inl ⟨e, commits, rfl⟩

theorem through_commit : Act.Through Move commit := by
  intro s
  cases stepped : s.engine.step with
  | error fault =>
    have stopped : commit s = .error fault s := by
      simp [commit, drive, Act.bind_apply, stepped]
    rw [Act.after_of_error stopped]
  | ok e =>
    cases halted : s.engine.isHalted with
    | true =>
      have shown : ∃ m, s.engine.snapshotAt s.engine.state.stage true = .ok m := ⟨_, rfl⟩
      obtain ⟨m, shown⟩ := shown
      rw [Act.after_of_ok (commit_halted halted shown)]
      refine (Relation.ReflTransGen.single (Move.rest halted shown)).tail ?_
      exact .quiet rfl rfl rfl rfl
    | false =>
      cases shown : e.snapshotAt s.engine.state.stage false with
      | ok m =>
        have commits : s.engine.Commits m e := ⟨halted, stepped, shown⟩
        rw [Act.after_of_ok (commit_running commits)]
        refine (Relation.ReflTransGen.single (Move.commit commits)).tail ?_
        exact .quiet rfl rfl rfl rfl
      | error fault =>
        have stopped : commit s = .error fault { s with
            engine := e, journal := s.engine.stepRemarks.reverse ++ s.journal } := by
          simp [commit, drive, Act.bind_apply, stepped, halted, shown]
        rw [Act.after_of_error stopped]
        refine (Relation.ReflTransGen.single (Move.slip halted stepped shown)).tail ?_
        exact .quiet rfl rfl rfl rfl

theorem overrun_eq (s : Session) : overrun s =
    match s.engine.step with
    | .ok e => .error .nestingTooDeep { s with
        engine := e, journal := s.engine.stepRemarks.reverse ++ s.journal }
    | .error fault => .error fault s := by
  cases stepped : s.engine.step with
  | error fault => simp [overrun, drive, Act.bind_apply, stepped]
  | ok e =>
    simp [overrun, drive, Act.bind_apply, stepped]
    rfl

theorem overrun_ne_ok {s t : Session} {m : Snapshot} : overrun s ≠ .ok m t := by
  rw [overrun_eq]
  split <;> simp

theorem leads_overrun {done : Session → Session → Prop} {failed : Fault → Session → Session → Prop}
    (stopped : ∀ {s t : Session} {fault : Fault}, overrun s = .error fault t → failed fault s t) :
    Act.Leads done failed overrun where
  ended came := absurd came overrun_ne_ok
  stopped := stopped

theorem breaksOff_of_overrun {s t : Session} {fault : Fault} (stopped : overrun s = .error fault t) :
    BreaksOff fault s t := by
  rw [overrun_eq] at stopped
  split at stopped
  · next e stepped =>
    cases stopped
    have noted : Move s { s with journal := s.engine.stepRemarks.reverse ++ s.journal } :=
      .quiet rfl rfl rfl rfl
    cases halted : s.engine.isHalted with
    | true =>
      rw [Engine.step_halted halted] at stepped
      cases stepped
      exact .inl (.single noted)
    | false => exact .inr ⟨rfl, _, .single noted, .mk halted stepped⟩
  · cases stopped
    exact .inl .refl

theorem stepBack_eq {s : Session} {m : Moment} {history : History}
    (popped : s.history.pop? = some (m, history)) :
    stepBack.after s = { s with engine := s.engine.atMoment m, history, last := none } := by
  have back : stepBack s = (some <$> Act.ofExcept (s.engine.atMoment m).snapshot : Act Session _)
      { s with engine := s.engine.atMoment m, history, last := none } := by
    simp only [stepBack, Act.bind_apply, Act.get_apply, popped, Act.modify_apply]
    rfl
  have kept := Act.after_map (Act.ofExcept (s.engine.atMoment m).snapshot) some
    { s with engine := s.engine.atMoment m, history, last := none }
  rw [Act.after_ofExcept] at kept
  rw [← kept]
  simp only [Act.after, back]

theorem stepBack_eq_ok {s : Session} {m : Moment} {history : History} {b : Snapshot}
    (popped : s.history.pop? = some (m, history)) (shown : (s.engine.atMoment m).snapshot = .ok b) :
    stepBack s = .ok (some b) { s with engine := s.engine.atMoment m, history, last := none } := by
  have shown : ({ s.engine with state := m.state, stepCount := m.stepCount } : Engine).snapshot = .ok b := shown
  simp [stepBack, Act.bind_apply, Act.map_apply, popped, shown, Engine.atMoment]

theorem stepBack_none {s : Session} (popped : s.history.pop? = none) : stepBack s = .ok none s := by
  simp [stepBack, Act.bind_apply, popped]

theorem through_stepBack : Act.Through Move stepBack := by
  intro s
  cases popped : s.history.pop? with
  | none => rw [Act.after_of_ok (stepBack_none popped)]
  | some found =>
    rw [stepBack_eq popped]
    exact .single (.undo popped)

theorem load_of_error {s : Session} {source : Text} {fault : Fault}
    (refused : (Assembly.assemble source).outcome = .error fault) :
    load source s = .error fault { s with
      running := false
      source
      journal := (Assembly.assemble source).remarks.reverse ++ s.journal } := by
  simp [load, pause, ofReport, Act.bind_apply, refused]

theorem load_of_ok {s : Session} {source : Text} {program : List Instruction}
    (assembled : (Assembly.assemble source).outcome = .ok program) :
    load source s = .ok () { s.restart (s.engine.load program) with
      running := false
      source
      journal := .loaded program.length ::
        ((Assembly.assemble source).remarks.reverse ++ s.journal) } := by
  simp [load, pause, ofReport, note, Act.bind_apply, assembled, restart]

structure Loaded (s t : Session) : Prop where
  assembled : ∃ source, (Assembly.assemble source).outcome = .ok t.engine.state.program
  history : t.history = s.history.clear
  listeners : t.listeners = s.listeners
  last : t.last = none
  stage : t.engine.state.stage = .fetch
  eight : t.engine.state.registers.length = 8
  stepCount : t.engine.stepCount = 0

theorem engine_of_load {s t : Session} {source : Text} (done : load source s = .ok () t) :
    ∃ program, t.engine = s.engine.load program := by
  cases assembled : (Assembly.assemble source).outcome with
  | error fault =>
    rw [load_of_error assembled] at done
    cases done
  | ok program =>
    rw [load_of_ok assembled] at done
    cases done
    exact ⟨program, rfl⟩

theorem loaded_of_load {s t : Session} {source : Text} (done : load source s = .ok () t) : Loaded s t := by
  cases assembled : (Assembly.assemble source).outcome with
  | error fault =>
    rw [load_of_error assembled] at done
    cases done
  | ok program =>
    rw [load_of_ok assembled] at done
    cases done
    exact ⟨⟨source, assembled⟩, rfl, rfl, rfl, rfl, rfl, rfl⟩

theorem through_load (source : Text) : Act.Through Move (load source) := by
  intro s
  have paused : Move s { s with running := false } := .quiet rfl rfl rfl rfl
  have begun : Moves s { s with running := false, source } :=
    (Relation.ReflTransGen.single paused).tail (.read _ source)
  cases assembled : (Assembly.assemble source).outcome with
  | error fault =>
    rw [Act.after_of_error (load_of_error assembled)]
    exact begun.tail (.quiet rfl rfl rfl rfl)
  | ok program =>
    rw [Act.after_of_ok (load_of_ok assembled)]
    exact (begun.tail (.load assembled)).tail (.quiet rfl rfl rfl rfl)

section
variable (interval : Int) (maxSteps : Option Int)

/-- What holds of every turn that stops and is carried over by every turn that goes on holds of the
outcome of all turns. -/
theorem turns_induction {motive : Progress → Session → EStateM.Result Fault Session Progress → Prop}
    (paused : ∀ p s, s.running = false → motive p s (.ok p s))
    (stop : ∀ p s q t, s.running = true → turn interval maxSteps p s = .ok (q, .stop) t →
      motive p s (.ok q t))
    (go : ∀ p s q t r, s.running = true → turn interval maxSteps p s = .ok (q, .go) t →
      motive q t r → motive p s r)
    (fault : ∀ p s f t, s.running = true → turn interval maxSteps p s = .error f t →
      motive p s (.error f t))
    {p : Progress} {s : Session} {r : EStateM.Result Fault Session Progress}
    (ended : turns interval maxSteps p s = some r) : motive p s r := by
  refine turns.partial_correctness interval maxSteps motive ?_ p s r ended
  intro turns ih p s r ended
  split at ended
  · next running =>
    split at ended
    · next q t turned =>
      cases ended
      exact stop p s q t running turned
    · next q t turned => exact go p s q t r running turned (ih q t r ended)
    · next f t turned =>
      cases ended
      exact fault p s f t running turned
  · next idle =>
    cases ended
    exact paused p s (by simpa using idle)

end

structure Unmoved (done : Session → Session → Prop) (failed : Fault → Session → Session → Prop) : Prop
    extends Act.Composes done failed where
  quiet : ∀ {s t : Session}, t.engine = s.engine → t.history = s.history → t.last = s.last →
    t.source = s.source → (∀ l ∈ t.listeners, l ∈ s.listeners) → done s t

/-- What holds of steps where it holds of the single things that they do. -/
structure Nested (done : Session → Session → Prop) (failed : Fault → Session → Session → Prop) : Prop
    extends Unmoved done failed where
  commit : Act.Leads done failed commit
  overrun : Act.Leads done failed overrun
  stepBack : Act.Leads done failed stepBack
  reset : Act.Leads done failed reset
  load : ∀ source, Act.Leads done failed (load source)

/-- What holds of runs and of every operation that adds no listener, where it holds of steps. -/
structure Driven (done : Session → Session → Prop) (failed : Fault → Session → Session → Prop) : Prop
    extends Unmoved done failed where
  step : Act.Leads done failed step
  stepBack : Act.Leads done failed stepBack
  reset : Act.Leads done failed reset
  load : ∀ source, Act.Leads done failed (load source)

/-- What holds of every operation where it holds of the single things that operations do. -/
structure Traced (done : Session → Session → Prop) (failed : Fault → Session → Session → Prop) : Prop
    extends Act.Composes done failed where
  quiet : ∀ {s t : Session}, t.engine = s.engine → t.history = s.history → t.last = s.last →
    t.source = s.source → done s t
  commit : Act.Leads done failed commit
  overrun : Act.Leads done failed overrun
  stepBack : Act.Leads done failed stepBack
  reset : Act.Leads done failed reset
  load : ∀ source, Act.Leads done failed (load source)

section
variable {done : Session → Session → Prop} {failed : Fault → Session → Session → Prop}

theorem Traced.nested (law : Traced done failed) : Nested done failed :=
  { law with quiet := fun engine history last source _ => law.quiet engine history last source }

theorem leads_addListener (law : Traced done failed) (l : Listener) : Act.Leads done failed (addListener l) := by
  refine Act.leads_modify fun s => ?_
  apply law.quiet
  all_goals split <;> rfl

section
variable (law : Unmoved done failed)

include law

theorem leads_quiet {change : Session → Session} (engine : ∀ s, (change s).engine = s.engine)
    (history : ∀ s, (change s).history = s.history) (last : ∀ s, (change s).last = s.last)
    (source : ∀ s, (change s).source = s.source) (listeners : ∀ s, ∀ l ∈ (change s).listeners, l ∈ s.listeners) :
    Act.Leads done failed (modify change) :=
  Act.leads_modify fun s => law.quiet (engine s) (history s) (last s) (source s) (listeners s)

theorem leads_note (r : Remark) : Act.Leads done failed (note r) :=
  leads_quiet law (fun _ => rfl) (fun _ => rfl) (fun _ => rfl) (fun _ => rfl) fun _ _ => id

theorem leads_pause : Act.Leads done failed pause :=
  leads_quiet law (fun _ => rfl) (fun _ => rfl) (fun _ => rfl) (fun _ => rfl) fun _ _ => id

theorem leads_removeBreakpoint (b : Breakpoint) : Act.Leads done failed (removeBreakpoint b) :=
  leads_quiet law (fun _ => rfl) (fun _ => rfl) (fun _ => rfl) (fun _ => rfl) fun _ _ => id

theorem leads_removeListener (l : Listener) : Act.Leads done failed (removeListener l) :=
  leads_quiet law (fun _ => rfl) (fun _ => rfl) (fun _ => rfl) (fun _ => rfl) fun _ _ => List.mem_of_mem_erase

theorem leads_addBreakpoint (b : Breakpoint) : Act.Leads done failed (addBreakpoint b) := by
  refine leads_quiet law ?_ ?_ ?_ ?_ fun s => ?_
  case refine_5 => split <;> exact fun _ => id
  all_goals
    intro s
    split <;> rfl

theorem leads_wait (interval : Int) (p : Progress) : Act.Leads done failed (wait interval p) := by
  refine law.bind law.get fun s => ?_
  split
  · split
    · exact law.throw _
    · exact law.pure _
  · exact law.pure p

end

section
variable (law : Nested done failed)

include law

section
variable {step : Act Session Snapshot}

theorem leads_react (steps : Act.Leads done failed step) (l : Listener) :
    Act.Leads done failed (react step l) := by
  unfold react
  cases l.reaction with
  | record => exact law.pure ()
  | pause => exact leads_pause law.toUnmoved
  | reset => exact law.reset
  | step => exact steps.map _
  | stepBack => exact law.stepBack.map _
  | load source => exact law.load source
  | leave => exact leads_removeListener law.toUnmoved l
  | addBreakpoint b => exact leads_addBreakpoint law.toUnmoved b

theorem leads_tell (steps : Act.Leads done failed step) (m : Snapshot) (l : Listener) :
    Act.Leads done failed (tell step m l) := by
  refine law.bind ?_ fun _ => ?_
  · exact leads_quiet law.toUnmoved (fun _ => rfl) (fun _ => rfl) (fun _ => rfl) (fun _ => rfl) fun _ _ => id
  · split
    · exact leads_react law steps l
    · exact law.pure ()

theorem leads_tellAll (steps : Act.Leads done failed step) (m : Snapshot) (listeners : List Listener) :
    Act.Leads done failed (tellAll step m listeners) := by
  induction listeners with
  | nil => exact law.pure ()
  | cons l rest ih => exact law.bind (leads_tell law steps m l) fun _ => ih

end

theorem leads_stepWithin (depth : Nat) : Act.Leads done failed (stepWithin depth) := by
  induction depth with
  | zero => exact law.overrun
  | succ depth ih =>
    refine law.bind law.commit fun m => law.bind law.get fun s => ?_
    exact law.bind (leads_tellAll law ih m s.listeners) fun _ => law.pure m

theorem Nested.driven : Driven done failed := { law with step := leads_stepWithin law nestingLimit }

end

section
variable (law : Driven done failed)

include law

theorem leads_loadFile (w : Workspace) (path : PathName) : Act.Leads done failed (loadFile w path) :=
  law.bind (law.ofExcept _) law.load

section
variable (interval : Int) (maxSteps : Option Int)

theorem leads_finish (p : Progress) : Act.Leads done failed (finish p) :=
  law.bind law.step fun _ => law.bind law.get fun _ => law.bind (leads_note law.toUnmoved _) fun _ => law.pure _

theorem leads_stride (p : Progress) : Act.Leads done failed (stride interval maxSteps p) := by
  refine law.bind law.get fun before => law.bind law.step fun m => law.bind law.get fun s =>
    law.bind (law.ofExcept _) fun hit => ?_
  split
  · exact law.bind (leads_note law.toUnmoved _) fun _ => law.pure _
  · split
    · exact law.pure _
    · exact law.bind (leads_wait law.toUnmoved interval _) fun _ => law.pure _

theorem leads_turn (p : Progress) : Act.Leads done failed (turn interval maxSteps p) := by
  refine law.bind law.get fun s => ?_
  split
  · exact law.bind (leads_finish law p) fun _ => law.pure _
  · split
    · exact law.bind (leads_note law.toUnmoved _) fun _ => law.pure _
    · exact leads_stride law interval maxSteps p

theorem leads_turns {p : Progress} {s : Session} {r : EStateM.Result Fault Session Progress}
    (ended : turns interval maxSteps p s = some r) :
    (∀ {q t}, r = .ok q t → done s t) ∧ ∀ {fault t}, r = .error fault t → failed fault s t := by
  refine turns_induction interval maxSteps (motive := fun _ s r =>
    (∀ {q t}, r = .ok q t → done s t) ∧ ∀ {fault t}, r = .error fault t → failed fault s t) ?_ ?_ ?_ ?_ ended
  · rintro p s -
    exact ⟨fun | rfl => law.refl s, nofun⟩
  · intro p s q t _ turned
    exact ⟨fun | rfl => (leads_turn law interval maxSteps p).ended turned, nofun⟩
  · intro p s q t r _ turned ⟨done, failed⟩
    have once := (leads_turn law interval maxSteps p).ended turned
    exact ⟨fun same => law.trans once (done same), fun same => law.stop once (failed same)⟩
  · intro p s fault t _ turned
    exact ⟨nofun, fun | rfl => (leads_turn law interval maxSteps p).stopped turned⟩

theorem leads_loop (p : Progress) : Act.Leads done failed (loop interval maxSteps p) where
  ended came := by
    unfold loop at came
    split at came
    · next _ ended => exact (leads_turns law interval maxSteps ended).1 came
    · cases came
  stopped came := by
    unfold loop at came
    split at came
    · next _ ended => exact (leads_turns law interval maxSteps ended).2 came
    · cases came
      exact law.still _ _

theorem leads_run (asked : Option Int) : Act.Leads done failed (run asked maxSteps) := by
  unfold run
  refine law.bind law.get fun s => law.bind (law.ofExcept _) fun interval => ?_
  split
  · exact law.bind (law.ofExcept _) fun _ => law.throw _
  · refine law.bind ?_ fun _ => law.bind (leads_loop law interval maxSteps _) fun p =>
      law.bind ?_ fun _ => law.pure p
    · exact leads_quiet law.toUnmoved (fun _ => rfl) (fun _ => rfl) (fun _ => rfl) (fun _ => rfl) fun _ _ => id
    · exact leads_quiet law.toUnmoved (fun _ => rfl) (fun _ => rfl) (fun _ => rfl) (fun _ => rfl) fun _ _ => id

end
end
end

theorem composes_moves : Act.Composes Moves BreaksOff where
  refl _ := .refl
  still _ _ := .inl .refl
  trans := .trans
  stop := fun moves broken => broken.imp moves.trans fun ⟨deep, u, more, overrun⟩ =>
    ⟨deep, u, moves.trans more, overrun⟩

theorem traced_moves : Traced Moves BreaksOff where
  toComposes := composes_moves
  quiet engine history last source := .single (.quiet engine history last source)
  commit := (Act.through_iff.1 through_commit).imp id .inl
  overrun := leads_overrun breaksOff_of_overrun
  stepBack := (Act.through_iff.1 through_stepBack).imp id .inl
  reset := (Act.through_iff.1 through_reset).imp id .inl
  load source := (Act.through_iff.1 (through_load source)).imp id .inl

theorem listeners_of_commit {s t : Session} {m : Snapshot} (committed : commit s = .ok m t) :
    t.listeners = s.listeners := by
  rcases commit_eq_ok committed with ⟨_, -, rfl⟩ | ⟨-, -, rfl⟩ <;> rfl

theorem nested_thinned : Nested (fun s t => ∀ l ∈ t.listeners, l ∈ s.listeners) fun _ _ _ => True where
  refl _ _ := id
  still _ _ := trivial
  trans first rest l := first l ∘ rest l
  stop _ _ := trivial
  quiet _ _ _ _ listeners := listeners
  commit := Act.leads_of_ended fun committed => by simp [listeners_of_commit committed]
  overrun := leads_overrun fun _ => trivial
  stepBack := Act.leads_of_ended fun {s t _} back => by
    rw [← Act.after_of_ok back]
    cases popped : s.history.pop? with
    | none => simp [Act.after_of_ok (stepBack_none popped)]
    | some _ => simp [stepBack_eq popped]
  reset := Act.leads_of_ended fun done => by
    cases done
    exact fun _ => id
  load _ := Act.leads_of_ended fun done => by simp [(loaded_of_load done).listeners]

end Session
end StageMachine
