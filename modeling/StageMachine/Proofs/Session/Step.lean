import StageMachine.Proofs.Session.Move

/-! Steps among listeners that leave the machine alone: what is told does not disturb what was done. -/
namespace StageMachine

/-- A listener that at most pauses, or stops listening. -/
def Listener.Quiet (l : Listener) : Prop :=
  l.reaction = .record ∨ l.reaction = .pause ∨ l.reaction = .leave

/-- A listener that does nothing but stop listening. -/
def Listener.Calm (l : Listener) : Prop := l.reaction = .record ∨ l.reaction = .leave

theorem Listener.Calm.quiet {l : Listener} (calm : l.Calm) : l.Quiet := calm.imp_right .inr

/-- A listener that leaves the machine and its past alone: it neither steps the session nor takes a step
back, and neither resets nor loads it. -/
def Listener.Passive (l : Listener) : Prop :=
  match l.reaction with
  | .record | .pause | .leave | .addBreakpoint _ => True
  | .reset | .step | .stepBack | .load _ => False

def Listener.pausesAt (l : Listener) (m : Snapshot) : Bool := l.reaction == .pause && l.reactsTo m

def Listener.leavesAt (l : Listener) (m : Snapshot) : Bool := l.reaction == .leave && l.reactsTo m

def stillListening (listeners : List Listener) (m : Snapshot) : List Listener :=
  listeners.diff (listeners.filter (·.leavesAt m))

section
variable {listeners : List Listener}

theorem mem_of_stillListening {m : Snapshot} {l : Listener} (member : l ∈ stillListening listeners m) :
    l ∈ listeners :=
  List.diff_subset _ _ member

theorem stillListening_eq_self (staying : ∀ l ∈ listeners, l.reaction ≠ .leave) (m : Snapshot) :
    stillListening listeners m = listeners := by
  have none_leaves : listeners.filter (·.leavesAt m) = [] := by
    rw [List.filter_eq_nil_iff]
    intro l member
    simp [Listener.leavesAt, staying l member]
  rw [stillListening, none_leaves, List.diff_nil]

theorem any_pausesAt_stillListening (listeners : List Listener) (m n : Snapshot) :
    (stillListening listeners m).any (·.pausesAt n) = listeners.any (·.pausesAt n) := by
  rw [Bool.eq_iff_iff, List.any_eq_true, List.any_eq_true]
  constructor
  · rintro ⟨l, member, pauses⟩
    exact ⟨l, mem_of_stillListening member, pauses⟩
  · rintro ⟨l, member, pauses⟩
    have stays : l.leavesAt m = false := by
      have kind : l.reaction = .pause := by simp_all [Listener.pausesAt]
      simp [Listener.leavesAt, kind]
    refine ⟨l, List.mem_diff_of_mem member ?_, pauses⟩
    simp [stays]

theorem any_pausesAt_of_calm (calm : ∀ l ∈ listeners, l.Calm) (m : Snapshot) :
    listeners.any (·.pausesAt m) = false := by
  simp only [List.any_eq_false, Listener.pausesAt]
  intro l member
  rcases calm l member with kind | kind <;> simp [kind]

end

namespace Session
variable {s : Session} {m : Snapshot}

theorem tell_quiet {l : Listener} (quiet : l.Quiet) (step : Act Session Snapshot) (m : Snapshot)
    (s : Session) :
    tell step m l s = .ok () { s with
      deliveries := ⟨l.name, m⟩ :: s.deliveries
      running := s.running && !l.pausesAt m
      listeners := if l.leavesAt m then s.listeners.erase l else s.listeners } := by
  cases reacts : l.reactsTo m with
  | false => simp [tell, Act.bind_apply, Listener.pausesAt, Listener.leavesAt, reacts]
  | true =>
    rcases quiet with kind | kind | kind
    · simp [tell, Act.bind_apply, Listener.pausesAt, Listener.leavesAt, reacts, react, kind]
    · simp [tell, Act.bind_apply, Listener.pausesAt, Listener.leavesAt, reacts, react, kind, pause]
    · simp [tell, Act.bind_apply, Listener.pausesAt, Listener.leavesAt, reacts, react, kind, removeListener]

theorem tellAll_quiet {listeners : List Listener} (quiet : ∀ l ∈ listeners, l.Quiet)
    (step : Act Session Snapshot) (m : Snapshot) (s : Session) :
    tellAll step m listeners s = .ok () { s with
      deliveries := (listeners.map fun l => ⟨l.name, m⟩).reverse ++ s.deliveries
      running := s.running && !listeners.any (·.pausesAt m)
      listeners := s.listeners.diff (listeners.filter (·.leavesAt m)) } := by
  induction listeners generalizing s with
  | nil => simp [tellAll]
  | cons l rest ih =>
    have first := tell_quiet (quiet l (by simp)) step m s
    have others := ih fun x member => quiet x (by simp [member])
    cases leaves : l.leavesAt m with
    | true => simp [tellAll, Act.bind_apply, first, others, Bool.and_assoc, leaves, List.diff_cons]
    | false => simp [tellAll, Act.bind_apply, first, others, Bool.and_assoc, leaves]

def stepped (s : Session) (engine : Engine) (history : History) (m : Snapshot) : Session :=
  { s with
    engine
    history
    last := some m
    running := s.running && !s.listeners.any (·.pausesAt m)
    listeners := stillListening s.listeners m
    deliveries := (s.listeners.map fun l => ⟨l.name, m⟩).reverse ++ s.deliveries
    journal := s.engine.stepRemarks.reverse ++ s.journal }

theorem stepWithin_of_commit {engine : Engine} {history : History} (depth : Nat)
    (quiet : ∀ l ∈ s.listeners, l.Quiet)
    (committed : commit s = .ok m { s with
      engine, history, last := some m, journal := s.engine.stepRemarks.reverse ++ s.journal }) :
    stepWithin (depth + 1) s = .ok m (s.stepped engine history m) := by
  have told := tellAll_quiet quiet (stepWithin depth) m { s with
    engine, history, last := some m, journal := s.engine.stepRemarks.reverse ++ s.journal }
  simp [stepWithin, Act.bind_apply, Act.map_apply, committed, told, stepped, stillListening]

theorem step_running {e : Engine} (quiet : ∀ l ∈ s.listeners, l.Quiet)
    (commits : s.engine.Commits m e) :
    step s = .ok m (s.stepped e (s.history.push s.engine.moment) m) :=
  stepWithin_of_commit 489 quiet (commit_running commits)

theorem step_halted (quiet : ∀ l ∈ s.listeners, l.Quiet) (halted : s.engine.isHalted = true)
    (shown : s.engine.snapshotAt s.engine.state.stage true = .ok m) :
    step s = .ok m (s.stepped s.engine s.history m) :=
  stepWithin_of_commit 489 quiet (commit_halted halted shown)

theorem exists_commit_of_step {t : Session} (made : step s = .ok m t) :
    ∃ u, commit s = .ok m u ∧ tellAll (stepWithin 489) m u.listeners u = .ok () t := by
  obtain ⟨n, u, committed, rest⟩ := Act.bind_eq_ok.1 made
  obtain ⟨_, _, got, last⟩ := Act.bind_eq_ok.1 rest
  obtain ⟨_, _, told, back⟩ := Act.bind_eq_ok.1 last
  cases got
  cases back
  exact ⟨u, committed, told⟩

theorem step_of_error {fault : Fault} (stuck : s.engine.step = .error fault) : step s = .error fault s := by
  have stopped : commit s = .error fault s := by simp [commit, drive, Act.bind_apply, stuck]
  have nested (depth : Nat) : stepWithin (depth + 1) s = .error fault s := by
    simp [stepWithin, Act.bind_apply, stopped]
  exact nested 489

structure Heeded (s t : Session) : Prop where
  engine : t.engine = s.engine
  history : t.history = s.history
  last : t.last = s.last
  listeners : ∀ l ∈ t.listeners, l ∈ s.listeners

theorem Heeded.refl (s : Session) : Heeded s s := ⟨rfl, rfl, rfl, fun _ => id⟩

theorem Heeded.trans {t u : Session} (first : Heeded s t) (rest : Heeded t u) : Heeded s u :=
  ⟨rest.engine.trans first.engine, rest.history.trans first.history, rest.last.trans first.last,
    fun l member => first.listeners l (rest.listeners l member)⟩

theorem react_passive {l : Listener} (passive : l.Passive) (step : Act Session Snapshot) (s : Session) :
    ∃ t, react step l s = .ok () t ∧ Heeded s t := by
  unfold Listener.Passive at passive
  unfold react
  cases kind : l.reaction with
  | record => exact ⟨s, rfl, .refl s⟩
  | pause => exact ⟨_, rfl, rfl, rfl, rfl, fun _ => id⟩
  | leave => exact ⟨_, rfl, rfl, rfl, rfl, fun _ => List.mem_of_mem_erase⟩
  | addBreakpoint b =>
    refine ⟨_, rfl, ?_⟩
    dsimp only
    split <;> exact ⟨rfl, rfl, rfl, fun _ => id⟩
  | reset | step | stepBack | load source => simp [kind] at passive

theorem tell_passive {l : Listener} (passive : l.Passive) (step : Act Session Snapshot) (m : Snapshot)
    (s : Session) : ∃ t, tell step m l s = .ok () t ∧ Heeded s t := by
  simp only [tell, Act.bind_apply, Act.modify_apply]
  split
  · obtain ⟨t, reacted, heeded⟩ := react_passive passive step { s with
      deliveries := ⟨l.name, m⟩ :: s.deliveries }
    exact ⟨t, reacted, heeded.engine, heeded.history, heeded.last, heeded.listeners⟩
  · exact ⟨_, rfl, rfl, rfl, rfl, fun _ => id⟩

theorem tellAll_passive {listeners : List Listener} (passive : ∀ l ∈ listeners, l.Passive)
    (step : Act Session Snapshot) (m : Snapshot) (s : Session) :
    ∃ t, tellAll step m listeners s = .ok () t ∧ Heeded s t := by
  induction listeners generalizing s with
  | nil => exact ⟨s, rfl, .refl s⟩
  | cons l rest ih =>
    obtain ⟨t, first, heeded⟩ := tell_passive (passive l (by simp)) step m s
    obtain ⟨u, others, more⟩ := ih (fun x member => passive x (by simp [member])) t
    exact ⟨u, by simp [tellAll, Act.bind_apply, first, others], heeded.trans more⟩

theorem stepWithin_of_told {t u : Session} (depth : Nat) (committed : commit s = .ok m t)
    (told : tellAll (stepWithin depth) m t.listeners t = .ok () u) : stepWithin (depth + 1) s = .ok m u := by
  simp [stepWithin, Act.bind_apply, Act.map_apply, committed, told]

section
variable (passive : ∀ l ∈ s.listeners, l.Passive)

include passive

theorem step_of_commit {t : Session} (committed : commit s = .ok m t) :
    ∃ u, step s = .ok m u ∧ Heeded t u := by
  rw [← listeners_of_commit committed] at passive
  obtain ⟨u, told, heeded⟩ := tellAll_passive passive (stepWithin 489) m t
  exact ⟨u, stepWithin_of_told 489 committed told, heeded⟩

/-- Among passive listeners, a step that comes back leaves its moment as the latest one. -/
theorem commit_of_step {t : Session} (made : step s = .ok m t) : ∃ u, commit s = .ok m u ∧ Heeded u t := by
  obtain ⟨u, committed, -⟩ := exists_commit_of_step made
  obtain ⟨v, again, heeded⟩ := step_of_commit passive committed
  obtain ⟨-, rfl⟩ := EStateM.Result.ok.inj (made.symm.trans again)
  exact ⟨u, committed, heeded⟩

theorem commit_of_step_error {t : Session} {fault : Fault} (stopped : step s = .error fault t) :
    commit s = .error fault t := by
  rcases Act.bind_eq_error.1 (show (commit >>= _) s = _ from stopped) with first | ⟨m, u, committed, -⟩
  · exact first
  · obtain ⟨v, made, -⟩ := step_of_commit passive committed
    rw [stopped] at made
    cases made

end

/-- Among passive listeners no step nests in another, so that all that is done is moves. -/
theorem driven_passive :
    Driven (fun s t => (∀ l ∈ s.listeners, l.Passive) → Moves s t ∧ ∀ l ∈ t.listeners, l ∈ s.listeners)
      fun _ s t => (∀ l ∈ s.listeners, l.Passive) → Moves s t where
  refl _ _ := ⟨.refl, fun _ => id⟩
  still _ _ _ := .refl
  trans first rest passive := by
    obtain ⟨moves, fewer⟩ := first passive
    obtain ⟨more, left⟩ := rest fun l member => passive l (fewer l member)
    exact ⟨moves.trans more, fun l member => fewer l (left l member)⟩
  stop first rest passive := by
    obtain ⟨moves, fewer⟩ := first passive
    exact moves.trans (rest fun l member => passive l (fewer l member))
  quiet engine history last source fewer _ := ⟨.single (.quiet engine history last source), fewer⟩
  step := {
    ended := fun made _ =>
      ⟨traced_moves.nested.driven.step.ended made, nested_thinned.driven.step.ended made⟩
    stopped := fun stopped passive =>
      Act.after_of_error (commit_of_step_error passive stopped) ▸ through_commit _ }
  stepBack := {
    ended := fun back _ => ⟨traced_moves.stepBack.ended back, nested_thinned.stepBack.ended back⟩
    stopped := fun stopped _ => Act.after_of_error stopped ▸ through_stepBack _ }
  reset := {
    ended := fun done _ => ⟨traced_moves.reset.ended done, nested_thinned.reset.ended done⟩
    stopped := fun stopped _ => Act.after_of_error stopped ▸ through_reset _ }
  load source := {
    ended := fun done _ => ⟨(traced_moves.load source).ended done, (nested_thinned.load source).ended done⟩
    stopped := fun stopped _ => Act.after_of_error stopped ▸ through_load source _ }

end Session
end StageMachine
