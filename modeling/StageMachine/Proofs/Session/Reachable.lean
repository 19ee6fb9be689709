import StageMachine.Proofs.Session.Step

/-! The sessions that can come about: set up or built, and worked by any operations with any listeners.
Unless steps nest too deep, what is stored of the past is always a path of committed stages that leads to the
present. -/
namespace StageMachine
namespace Session

inductive Operation where
  | load (source : Text)
  | loadFile (workspace : Workspace) (path : PathName)
  | reset
  | step
  | stepBack
  | run (interval maxSteps : Option Int)
  | pause
  | addBreakpoint (breakpoint : Breakpoint)
  | removeBreakpoint (breakpoint : Breakpoint)
  | addListener (listener : Listener)
  | removeListener (listener : Listener)
  | setInterval (interval : Option Int)

def Operation.act : Operation → Act Session Unit
  | .load source => Session.load source
  | .loadFile w path => Session.loadFile w path
  | .reset => Session.reset
  | .step => discard Session.step
  | .stepBack => discard Session.stepBack
  | .run interval maxSteps => discard (Session.run interval maxSteps)
  | .pause => Session.pause
  | .addBreakpoint b => Session.addBreakpoint b
  | .removeBreakpoint b => Session.removeBreakpoint b
  | .addListener l => Session.addListener l
  | .removeListener l => Session.removeListener l
  | .setInterval clockInterval => modify fun s => { s with clockInterval }

/-- The sessions that operations lead to, whether or not a fault stops some of them. -/
inductive Reaches (origin : Session) : Session → Prop where
  | start : Reaches origin origin
  | next {s : Session} (reached : Reaches origin s) (operation : Operation) :
      Reaches origin (operation.act.after s)

/-- The operation does not nest steps too deep. Steps that are told to passive listeners only do not nest
at all. -/
def Shallow (operation : Operation) (s : Session) : Prop :=
  (∀ l ∈ s.listeners, l.Passive) ∨ ∀ t, operation.act s ≠ .error .nestingTooDeep t

inductive Contained (origin : Session) : Session → Prop where
  | start : Contained origin origin
  | next {s : Session} (contained : Contained origin s) (operation : Operation)
      (shallow : Shallow operation s) : Contained origin (operation.act.after s)

/-- The sessions that operations lead to, whether or not a fault stops some of them, where programs may be
put straight into the machine and the machine may be stepped by hand. -/
inductive Handled (origin : Session) : Session → Prop where
  | start : Handled origin origin
  | next {s : Session} (handled : Handled origin s) (operation : Operation) :
      Handled origin (operation.act.after s)
  | put {s : Session} (handled : Handled origin s) (program : List Instruction) :
      Handled origin { s with engine := s.engine.load program }
  | stepped {s : Session} {e : Engine} (handled : Handled origin s) (stepped : s.engine.step = .ok e) :
      Handled origin { s with engine := e }

inductive Started (limit : Option Int) : Session → Prop where
  | created {c : Capacity} {width interval : Option Int} {e : Engine} {s : Session}
      (engine : Engine.create c width = .ok e) (session : create e interval limit = .ok s) :
      Started limit s
  | built {h : Host} {settings : Settings} {s : Session} (chosen : settings.historyLimit = limit)
      (session : (build h settings).outcome = .ok s) : Started limit s

section
variable {done : Session → Session → Prop} {failed : Fault → Session → Session → Prop}

theorem Driven.act (law : Driven done failed) {operation : Operation}
    (heard : ∀ l, operation = .addListener l → Act.Leads done failed (addListener l)) :
    Act.Leads done failed operation.act := by
  cases operation with
  | load source => exact law.load source
  | loadFile w path => exact leads_loadFile law w path
  | reset => exact law.reset
  | step => exact law.step.map _
  | stepBack => exact law.stepBack.map _
  | run interval maxSteps => exact (leads_run law maxSteps interval).map _
  | pause => exact leads_pause law.toUnmoved
  | addBreakpoint b => exact leads_addBreakpoint law.toUnmoved b
  | removeBreakpoint b => exact leads_removeBreakpoint law.toUnmoved b
  | addListener l => exact heard l rfl
  | removeListener l => exact leads_removeListener law.toUnmoved l
  | setInterval interval =>
    exact leads_quiet law.toUnmoved (fun _ => rfl) (fun _ => rfl) (fun _ => rfl) (fun _ => rfl) fun _ _ => id

theorem leads_act (law : Traced done failed) (operation : Operation) : Act.Leads done failed operation.act :=
  law.nested.driven.act fun l _ => leads_addListener law l

end

theorem changes_act (operation : Operation) (s : Session) : Changes s (operation.act.after s) := by
  cases came : operation.act s with
  | ok value t =>
    rw [Act.after_of_ok came]
    exact ((leads_act traced_moves operation).ended came).changes
  | error fault t =>
    rw [Act.after_of_error came]
    exact ((leads_act traced_moves operation).stopped came).changes

theorem moves_act {operation : Operation} {s : Session} (shallow : Shallow operation s) :
    Moves s (operation.act.after s) := by
  cases came : operation.act s with
  | ok value t =>
    rw [Act.after_of_ok came]
    exact (leads_act traced_moves operation).ended came
  | error fault t =>
    rw [Act.after_of_error came]
    rcases shallow with passive | shallow
    · refine (driven_passive.act ?_).stopped came passive
      rintro l rfl
      cases came
    · refine ((leads_act traced_moves operation).stopped came).moves ?_
      rintro rfl
      exact shallow t came

theorem Reaches.foldl {origin s : Session} (reached : Reaches origin s) (operations : List Operation) :
    Reaches origin (operations.foldl (fun t operation => operation.act.after t) s) := by
  induction operations generalizing s with
  | nil => exact reached
  | cons operation rest ih => exact ih (reached.next operation)

theorem Reaches.handled {origin s : Session} (reached : Reaches origin s) : Handled origin s := by
  induction reached with
  | start => exact .start
  | next _ operation ih => exact ih.next operation

theorem Reaches.changes {origin s : Session} (reached : Reaches origin s) : Changes origin s := by
  induction reached with
  | start => exact .refl
  | next _ operation ih => exact ih.trans (changes_act operation _)

theorem Contained.reaches {origin s : Session} (contained : Contained origin s) : Reaches origin s := by
  induction contained with
  | start => exact .start
  | next _ operation _ ih => exact ih.next operation

theorem Contained.moves {origin s : Session} (contained : Contained origin s) : Moves origin s := by
  induction contained with
  | start => exact .refl
  | next _ operation shallow ih => exact ih.trans (moves_act shallow)

/-- The past of a session leads to its present, and every instruction in work can be shown. -/
structure Coherent (limit : Nat) (s : Session) : Prop where
  limit_eq : s.history.limit = limit
  path : ∃ origin, Engine.Path origin s.history.toList s.engine
  legible : s.engine.Legible

theorem toList_push_of_path {origin before after : Engine} {m : Snapshot} {h : History}
    (path : Engine.Path origin h.toList before) (commits : before.Commits m after) :
    ∃ later, Engine.Path later (h.push before.moment).toList after := by
  have whole := path.next commits
  rw [← List.take_append_drop h.limit (before.moment :: h.toList)] at whole
  obtain ⟨later, -, recent⟩ := whole.split
  exact ⟨later, by rwa [History.toList_push]⟩

theorem Coherent.move {limit : Nat} {s t : Session} (c : Coherent limit s) (move : Move s t) :
    Coherent limit t := by
  obtain ⟨limit_eq, ⟨origin, path⟩, legible⟩ := c
  cases move with
  | quiet engine history =>
    exact ⟨by rw [history, limit_eq], ⟨origin, by rwa [engine, history]⟩, by rwa [engine]⟩
  | read source => exact ⟨limit_eq, ⟨origin, path⟩, legible⟩
  | commit commits => exact ⟨limit_eq, toList_push_of_path path commits, commits.legible legible⟩
  | rest halted shown => exact ⟨limit_eq, ⟨origin, path⟩, legible⟩
  | slip running stepped unseen =>
    -- A legible program shows every moment, so no step slips past the history.
    obtain ⟨m, commits⟩ := legible.commits running stepped
    rw [commits.shown] at unseen
    cases unseen
  | undo popped =>
    obtain ⟨shown, kept⟩ := History.pop?_eq_some popped
    rw [shown] at path
    obtain ⟨before, m, commits⟩ := path.back
    refine ⟨by rw [kept, limit_eq], ⟨origin, before⟩, ?_⟩
    unfold Engine.Legible
    rw [← commits.program_eq]
    exact legible
  | load assembled => exact ⟨limit_eq, ⟨_, .start⟩, Engine.legible_of_assemble assembled⟩
  | reset => exact ⟨limit_eq, ⟨_, .start⟩, legible⟩

theorem Coherent.moves {limit : Nat} {s t : Session} (c : Coherent limit s) (moves : Moves s t) :
    Coherent limit t := by
  induction moves with
  | refl => exact c
  | tail _ move ih => exact ih.move move

/-- The machine came to the present in committed stages, and the past of the session has some of them, in their
order. Every instruction in work can be shown. -/
structure Threaded (limit : Nat) (s : Session) : Prop where
  limit_eq : s.history.limit = limit
  path : ∃ origin trail, Engine.Path origin trail s.engine ∧ s.history.toList.Sublist trail
  legible : s.engine.Legible

theorem Coherent.threaded {limit : Nat} {s : Session} (c : Coherent limit s) : Threaded limit s :=
  let ⟨origin, path⟩ := c.path
  ⟨c.limit_eq, ⟨origin, _, path, .refl _⟩, c.legible⟩

theorem Threaded.newest {limit : Nat} {s : Session} (threaded : Threaded limit s) {m : Moment}
    {older : List Moment} (shown : s.history.toList = m :: older) :
    ∃ origin trail n after, Engine.Path origin trail (s.engine.atMoment m) ∧ older.Sublist trail ∧
      (s.engine.atMoment m).Commits n after ∧ after.state.program = s.engine.state.program := by
  obtain ⟨origin, trail, path, part⟩ := threaded.path
  rw [shown] at part
  obtain ⟨first, rest, rfl, member, others⟩ := List.cons_sublist_iff.1 part
  obtain ⟨newer, between, rfl⟩ := List.append_of_mem member
  rw [List.append_assoc] at path
  obtain ⟨after, whole, more⟩ := path.split
  obtain ⟨before, n, commits⟩ := whole.back
  rw [Engine.atMoment_congr more.width_eq]
  exact ⟨origin, _, n, after, before, others.trans (List.sublist_append_right between rest), commits,
    more.program_eq.symm⟩

/-- Also where steps nest too deep, the past of a session has only stages on the way to its present. -/
theorem Threaded.change {limit : Nat} {s t : Session} (threaded : Threaded limit s) (change : Change s t) :
    Threaded limit t := by
  obtain ⟨limit_eq, ⟨origin, trail, path, part⟩, legible⟩ := threaded
  cases change with
  | overrun overrun =>
    obtain ⟨running, stepped⟩ := overrun
    obtain ⟨m, commits⟩ := legible.commits running stepped
    exact ⟨limit_eq, ⟨origin, _, path.next commits, part.cons _⟩, commits.legible legible⟩
  | move move =>
    cases move with
    | quiet engine history =>
      exact ⟨by rw [history, limit_eq], ⟨origin, trail, by rwa [engine], by rwa [history]⟩, by rwa [engine]⟩
    | read source => exact ⟨limit_eq, ⟨origin, trail, path, part⟩, legible⟩
    | commit commits =>
      refine ⟨limit_eq, ⟨origin, _, path.next commits, ?_⟩, commits.legible legible⟩
      rw [History.toList_push]
      exact (List.take_sublist _ _).trans (List.cons_sublist_cons.2 part)
    | rest halted shown => exact ⟨limit_eq, ⟨origin, trail, path, part⟩, legible⟩
    | slip running stepped unseen =>
      obtain ⟨m, commits⟩ := legible.commits running stepped
      rw [commits.shown] at unseen
      cases unseen
    | undo popped =>
      obtain ⟨shown, kept⟩ := History.pop?_eq_some popped
      obtain ⟨start, way, n, after, back, older, commits, program⟩ :=
        Threaded.newest ⟨limit_eq, ⟨origin, trail, path, part⟩, legible⟩ shown
      refine ⟨by rw [kept, limit_eq], ⟨start, way, back, older⟩, ?_⟩
      unfold Engine.Legible
      rw [← commits.program_eq, program]
      exact legible
    | load assembled =>
      exact ⟨limit_eq, ⟨_, [], .start, .refl _⟩, Engine.legible_of_assemble assembled⟩
    | reset => exact ⟨limit_eq, ⟨_, [], .start, .refl _⟩, legible⟩

theorem Threaded.changes {limit : Nat} {s t : Session} (threaded : Threaded limit s) (changes : Changes s t) :
    Threaded limit t := by
  induction changes with
  | refl => exact threaded
  | tail _ change ih => exact ih.change change

def Throughout (holds : Engine → Prop) (s : Session) : Prop :=
  holds s.engine ∧ ∀ m ∈ s.history.toList, holds (s.engine.atMoment m)

section
variable {holds : Engine → Prop} {s t : Session} {e : Engine}

theorem Throughout.congr (throughout : Throughout holds s) (engine : t.engine = s.engine)
    (history : t.history = s.history) : Throughout holds t := by
  obtain ⟨now, past⟩ := throughout
  exact ⟨engine ▸ now, by rwa [engine, history]⟩

theorem Throughout.stepped (throughout : Throughout holds s) (step : s.engine.step = .ok e) (now : holds e) :
    Throughout holds { s with engine := e } := by
  refine ⟨now, fun m member => ?_⟩
  rw [Engine.atMoment_congr (Engine.width_of_step step)]
  exact throughout.2 m member

theorem Throughout.commit {m : Snapshot} (throughout : Throughout holds s) (commits : s.engine.Commits m e)
    (now : holds e) :
    Throughout holds { s with engine := e, history := s.history.push s.engine.moment, last := some m } := by
  refine ⟨now, fun m member => ?_⟩
  rw [History.toList_push] at member
  rcases List.mem_cons.1 (List.mem_of_mem_take member) with rfl | member
  · rw [Engine.atMoment_moment commits.width_eq]
    exact throughout.1
  · rw [Engine.atMoment_congr commits.width_eq]
    exact throughout.2 m member

theorem Throughout.undo {m : Moment} {history : History} (throughout : Throughout holds s)
    (popped : s.history.pop? = some (m, history)) :
    Throughout holds { s with engine := s.engine.atMoment m, history, last := none } := by
  obtain ⟨-, past⟩ := throughout
  obtain ⟨shown, -⟩ := History.pop?_eq_some popped
  rw [shown] at past
  exact ⟨past _ (by simp), fun m member => past m (by simp [member])⟩

theorem throughout_restart (now : holds e) : Throughout holds (s.restart e) := ⟨now, by simp [restart]⟩

variable
  (load : ∀ (e : Engine) {source : Text} {program : List Instruction},
    (Assembly.assemble source).outcome = .ok program → holds (e.load program))
  (reset : ∀ {e : Engine}, holds e → holds e.reset)
  (step : ∀ {e f : Engine}, holds e → e.step = .ok f → holds f)

include load reset step

theorem Throughout.move (throughout : Throughout holds s) (move : Move s t) : Throughout holds t := by
  cases move with
  | quiet engine history => exact throughout.congr engine history
  | read source => exact throughout
  | commit commits => exact throughout.commit commits (step throughout.1 commits.step)
  | rest halted shown => exact throughout
  | slip running stepped unseen => exact throughout.stepped stepped (step throughout.1 stepped)
  | undo popped => exact throughout.undo popped
  | load assembled => exact throughout_restart (load _ assembled)
  | reset => exact throughout_restart (reset throughout.1)

theorem Throughout.change (throughout : Throughout holds s) (change : Change s t) : Throughout holds t := by
  cases change with
  | move move => exact throughout.move load reset step move
  | overrun overrun =>
    obtain ⟨-, stepped⟩ := overrun
    exact throughout.stepped stepped (step throughout.1 stepped)

/-- What a loaded machine has and every step keeps holds throughout, however a session is worked. -/
theorem Throughout.changes (throughout : Throughout holds s) (changes : Changes s t) :
    Throughout holds t := by
  induction changes with
  | refl => exact throughout
  | tail _ change ih => exact ih.change load reset step change

omit load reset in
theorem Handled.throughout {origin : Session} (put : ∀ e program, holds (Engine.load e program))
    (begun : Throughout holds origin) (handled : Handled origin s) : Throughout holds s := by
  induction handled with
  | start => exact begun
  | next _ operation ih => exact ih.changes (fun e _ _ _ => put e _) (fun _ => put _ _) step (changes_act operation _)
  | put _ program ih => exact ⟨put _ program, ih.2⟩
  | stepped _ stepped ih => exact ih.stepped stepped (step ih.1 stepped)

end

section
variable {related : Session → Session → Prop} (noted : ∀ r, Act.Through related (note r))

include noted

theorem through_applyRegister (name : RawText) {value : Int}
    (put : ∀ i : Nat,
      Act.Through related (modifyState fun s => { s with registers := s.registers.set i value })) :
    Act.Through related (applyRegister name value) := by
  refine Act.through_get.bind fun s => (Act.through_ofExcept _).bind fun number => ?_
  cases number with
  | none => exact noted _
  | some i =>
    simp only
    split
    · exact put i.toNat
    · exact noted _

theorem through_applyInitial {initial : InitialState}
    (start : Act.Through related (modifyState fun s => { s with pc := initial.pc }))
    (put : ∀ r ∈ initial.registers, ∀ i : Nat,
      Act.Through related (modifyState fun s => { s with registers := s.registers.set i r.2 }))
    (stored : Act.Through related (modifyState fun s => { s with memory := s.memory.update initial.memory })) :
    Act.Through related (applyInitial initial) := by
  have each : ∀ registers ⊆ initial.registers, Act.Through related (applyRegisters registers) := by
    intro registers within
    induction registers with
    | nil => exact Act.through_pure ()
    | cons r rest ih =>
      obtain ⟨first, others⟩ := List.cons_subset.1 within
      exact (through_applyRegister noted r.1 (put r first)).bind fun _ => ih others
  exact start.bind fun _ => (each _ (List.Subset.refl _)).bind fun _ => stored

end

/-- A change of the machine's state from outside that leaves its program, its stage, its step count and the
number of its registers alone. -/
structure Poked (s t : Session) : Prop where
  history : t.history = s.history
  listeners : t.listeners = s.listeners
  last : t.last = s.last
  program : t.engine.state.program = s.engine.state.program
  stage : t.engine.state.stage = s.engine.state.stage
  size : t.engine.state.registers.length = s.engine.state.registers.length
  stepCount : t.engine.stepCount = s.engine.stepCount

theorem poked_note (r : Remark) : Act.Through Poked (note r) :=
  Act.through_modify fun _ => ⟨rfl, rfl, rfl, rfl, rfl, rfl, rfl⟩

theorem poked_modifyState {change : State → State} (kept : ∀ s, (change s).program = s.program)
    (ready : ∀ s, (change s).stage = s.stage)
    (size : ∀ s, (change s).registers.length = s.registers.length) :
    Act.Through Poked (modifyState change) :=
  Act.through_modify fun s =>
    ⟨rfl, rfl, rfl, kept s.engine.state, ready s.engine.state, size s.engine.state, rfl⟩

theorem poked_applyInitial (initial : InitialState) : Act.Through Poked (applyInitial initial) := by
  refine through_applyInitial poked_note ?_ (fun _ _ i => ?_) ?_
  · exact poked_modifyState (fun _ => rfl) (fun _ => rfl) fun _ => rfl
  · exact poked_modifyState (fun _ => rfl) (fun _ => rfl) fun _ => List.length_set
  · exact poked_modifyState (fun _ => rfl) (fun _ => rfl) fun _ => rfl

theorem poked_trans {s t : Session} (changes : Relation.ReflTransGen Poked s t) : Poked s t := by
  induction changes with
  | refl => exact ⟨rfl, rfl, rfl, rfl, rfl, rfl, rfl⟩
  | tail _ change ih =>
    exact ⟨change.history.trans ih.history, change.listeners.trans ih.listeners,
      change.last.trans ih.last, change.program.trans ih.program, change.stage.trans ih.stage,
      change.size.trans ih.size, change.stepCount.trans ih.stepCount⟩

theorem poked_of_applyInitial {initial : InitialState} {s t : Session}
    (applied : applyInitial initial s = .ok () t) : Poked s t := by
  have changes := poked_applyInitial initial s
  rw [Act.after_of_ok applied] at changes
  exact poked_trans changes

theorem Loaded.poked {s t u : Session} (loaded : Loaded s t) (poked : Poked t u) : Loaded s u where
  assembled := by rw [poked.program]; exact loaded.assembled
  history := poked.history.trans loaded.history
  listeners := poked.listeners.trans loaded.listeners
  last := poked.last.trans loaded.last
  stage := poked.stage.trans loaded.stage
  eight := poked.size.trans loaded.eight
  stepCount := poked.stepCount.trans loaded.stepCount

theorem prepare_eq_ok {w : Workspace} {settings : Settings} {s t : Session}
    (done : prepare w settings s = .ok () t) :
    ∃ source u, load source s = .ok () u ∧ applyInitial settings.initial u = .ok () t := by
  unfold prepare at done
  generalize settings.program = named at done
  by_cases given : named.isGiven = true
  · rw [if_pos given] at done
    cases named with
    | text path =>
      obtain ⟨⟨⟩, u, read, applied⟩ := Act.bind_eq_ok.1 done
      obtain ⟨source, s', found, loaded⟩ := Act.bind_eq_ok.1 read
      obtain ⟨-, rfl⟩ := Act.ofExcept_eq_ok.1 found
      exact ⟨source, u, loaded, applied⟩
    | _ =>
      obtain ⟨⟨⟩, u, stopped, -⟩ := Act.bind_eq_ok.1 done
      cases stopped
  · rw [if_neg given] at done
    obtain ⟨⟨⟩, u, loaded, applied⟩ := Act.bind_eq_ok.1 done
    exact ⟨sampleProgram, u, loaded, applied⟩

theorem loaded_of_prepare {w : Workspace} {settings : Settings} {s t : Session}
    (done : prepare w settings s = .ok () t) : Loaded s t := by
  obtain ⟨source, u, loaded, applied⟩ := prepare_eq_ok done
  exact (loaded_of_load loaded).poked (poked_of_applyInitial applied)

theorem create_eq_ok {e : Engine} {interval limit : Option Int} {s : Session}
    (made : create e interval limit = .ok s) :
    s.engine = e ∧ s.last = none ∧ s.history.toList = [] ∧ s.listeners = [] ∧
      ∀ l ∈ limit, (s.history.limit : Int) = l := by
  unfold create at made
  obtain ⟨history, made, rfl⟩ := map_eq_ok.1 made
  unfold History.create at made
  simp only at made
  split at made
  · cases made
  · split at made
    · cases made
    · next positive =>
      cases made
      refine ⟨rfl, rfl, rfl, rfl, ?_⟩
      rintro l rfl
      exact Int.toNat_of_nonneg (Int.not_lt.1 positive)

theorem report_eq_ok {act : Act Session Unit} {s t : Session}
    (reported : (report act s).outcome = .ok t) :
    ∃ u, act s = .ok () u ∧ t = { u with journal := [] } := by
  unfold report at reported
  split at reported
  · next u done =>
    cases reported
    exact ⟨u, done, rfl⟩
  · cases reported

theorem build_eq_ok {h : Host} {settings : Settings} {s : Session}
    (built : (build h settings).outcome = .ok s) :
    ∃ e new t, Engine.create h.capacity settings.registerWidth = .ok e ∧
      create e settings.clockInterval settings.historyLimit = .ok new ∧
      prepare h.toWorkspace settings new = .ok () t ∧ s = { t with journal := [] } := by
  unfold build at built
  obtain ⟨e, engine, rest⟩ := Report.outcome_bind_eq_ok.1 built
  obtain ⟨new, made, reported⟩ := Report.outcome_bind_eq_ok.1 rest
  obtain ⟨t, done, cleared⟩ := report_eq_ok reported
  exact ⟨e, new, t, engine, made, done, cleared⟩

theorem eq_load_of_create {c : Capacity} {width : Option Int} {e : Engine} (made : Engine.create c width = .ok e) :
    e = e.load [] := by
  unfold Engine.create at made
  split at made
  · cases made
    rfl
  · split at made
    · cases made
      rfl
    · cases made

theorem state_of_create {c : Capacity} {width : Option Int} {e : Engine} (made : Engine.create c width = .ok e) :
    e.state = {} :=
  congrArg Engine.state (eq_load_of_create made)

theorem Started.toList_history {limit : Option Int} {s : Session} (started : Started limit s) :
    s.history.toList = [] := by
  cases started with
  | created engine session => exact (create_eq_ok session).2.2.1
  | built chosen session =>
    obtain ⟨_, _, t, -, -, done, rfl⟩ := build_eq_ok session
    show t.history.toList = []
    rw [(loaded_of_prepare done).history, History.toList_clear]

theorem Started.coherent {limit : Option Int} {s : Session} (started : Started limit s) :
    Coherent s.history.limit s ∧ s.listeners = [] ∧ ∀ l ∈ limit, (s.history.limit : Int) = l := by
  have path : ∃ origin, Engine.Path origin s.history.toList s.engine :=
    ⟨s.engine, by rw [started.toList_history]; exact .start⟩
  cases started with
  | created engine session =>
    obtain ⟨rfl, -, -, silent, bound⟩ := create_eq_ok session
    refine ⟨⟨rfl, path, ?_⟩, silent, bound⟩
    unfold Engine.Legible
    rw [state_of_create engine]
    simp
  | built chosen session =>
    subst chosen
    obtain ⟨e, new, t, engine, made, done, rfl⟩ := build_eq_ok session
    obtain ⟨rfl, -, -, silent, bound⟩ := create_eq_ok made
    have loaded := loaded_of_prepare done
    obtain ⟨source, assembled⟩ := loaded.assembled
    refine ⟨⟨rfl, path, Engine.legible_of_assemble assembled⟩, loaded.listeners.trans silent, ?_⟩
    simp only [loaded.history]
    exact bound

inductive Fresh : Session → Prop where
  | started {limit : Option Int} {s : Session} (started : Started limit s) : Fresh s
  | loaded {source : Text} {s t : Session} (loaded : load source s = .ok () t) : Fresh t
  | read {w : Workspace} {path : PathName} {s t : Session} (read : loadFile w path s = .ok () t) : Fresh t
  | heard {s : Session} (fresh : Fresh s) (l : Listener) : Fresh ((addListener l).after s)

theorem Fresh.ready {s : Session} (fresh : Fresh s) : s.last = none ∧ s.engine.state.stage = .fetch := by
  induction fresh with
  | started started =>
    cases started with
    | created engine session =>
      obtain ⟨rfl, last, -⟩ := create_eq_ok session
      exact ⟨last, by rw [state_of_create engine]⟩
    | built chosen session =>
      obtain ⟨e, new, t, -, -, done, rfl⟩ := build_eq_ok session
      exact ⟨(loaded_of_prepare done).last, (loaded_of_prepare done).stage⟩
  | loaded loaded => exact ⟨(loaded_of_load loaded).last, (loaded_of_load loaded).stage⟩
  | read read =>
    obtain ⟨source, u, -, loaded⟩ := Act.bind_eq_ok.1 read
    exact ⟨(loaded_of_load loaded).last, (loaded_of_load loaded).stage⟩
  | @heard s fresh l ih =>
    have kept : (addListener l).after s =
        if l ∈ s.listeners then s else { s with listeners := s.listeners ++ [l] } := rfl
    rw [kept]
    split
    · exact ih
    · exact ih

end Session
end StageMachine
