import StageMachine.Proofs.Session.Reachable

/-! The present moment. Steps keep their moment for later; whoever asks for the present moment, also in the
middle of steps within steps and after faults, is shown the machine as it stands. Only where steps nested too
deep the machine may have gone on from it. -/
namespace StageMachine
namespace Session
variable {s t u : Session} {deep : Prop} {seen : Engine → Engine → Prop}

/-- What becomes of a session that is called, whether or not faults stop the calls. A step commits a stage
and tells those who listen, and they may call the session before the step is over: whatever they do, it
comes after the commit, and steps among it nest in the same way, too deep only where that is allowed for. -/
inductive Called (deep : Prop) : Session → Session → Prop where
  | idle (s : Session) : Called deep s s
  | operation {s t : Session} (before : Called deep s t) (operation : Operation)
      (fits : deep ∨ Shallow operation t) : Called deep s (operation.act.after t)
  | step {s t u : Session} (before : Called deep s t) (meanwhile : Called deep (commit.after t) u) :
      Called deep s u
  | overrun {s t : Session} (before : Called deep s t) (nested : deep) : Called deep s (overrun.after t)
  /-- A run marks the session; what was told and remarked on is written down. -/
  | noted {s t : Session} (before : Called deep s t) (running : Bool) (deliveries : List Delivery)
      (journal : List Remark) : Called deep s { t with running, deliveries, journal }

theorem Called.changes (called : Called deep s t) : Changes s t := by
  induction called with
  | idle => exact .refl
  | operation _ operation _ ih => exact ih.trans (changes_act operation _)
  | step _ _ before meanwhile => exact (before.trans (Moves.changes (through_commit _))).trans meanwhile
  | @overrun s t _ _ ih =>
    refine ih.trans ?_
    cases stopped : Session.overrun t with
    | ok m u => exact absurd stopped overrun_ne_ok
    | error fault u =>
      rw [Act.after_of_error stopped]
      exact (breaksOff_of_overrun stopped).changes
  | noted _ running deliveries journal ih => exact ih.tail (.move (.quiet rfl rfl rfl rfl))

theorem Called.moves (called : Called deep s t) (shallow : ¬ deep) : Moves s t := by
  induction called with
  | idle => exact .refl
  | operation _ operation fits ih => exact ih.trans (moves_act (fits.resolve_left shallow))
  | step _ _ before meanwhile => exact (before.trans (through_commit _)).trans meanwhile
  | overrun _ nested => exact absurd nested shallow
  | noted _ running deliveries journal ih => exact ih.tail (.quiet rfl rfl rfl rfl)

/-- The moment that is kept, if there is one, shows a machine from which that of the session is seen so. -/
def Keeps (seen : Engine → Engine → Prop) (s : Session) : Prop :=
  ∀ m ∈ s.last, ∃ e, seen e s.engine ∧ m.state = e.state ∧ m.stepCount = e.stepCount

theorem keeps_of_last_eq_none (none_kept : s.last = none) : s.Keeps seen := by
  simp [Keeps, none_kept]

theorem exists_seen (refl : ∀ e, seen e e) {e : Engine} {stage : Stage} {halted : Bool} {m : Snapshot}
    (shown : e.snapshotAt stage halted = .ok m) :
    ∃ f, seen f e ∧ m.state = f.state ∧ m.stepCount = f.stepCount := by
  obtain ⟨state, -, count⟩ := Engine.shown_of_snapshotAt shown
  exact ⟨e, refl e, state, count⟩

theorem Keeps.move (keeps : s.Keeps seen) (refl : ∀ e, seen e e) (legible : s.engine.Legible) (move : Move s t) :
    t.Keeps seen := by
  cases move with
  | quiet engine history last =>
    unfold Keeps
    rwa [engine, last]
  | read source => exact keeps
  | commit commits =>
    rintro m ⟨⟩
    exact exists_seen refl commits.shown
  | rest halted shown =>
    rintro m ⟨⟩
    exact exists_seen refl shown
  | slip running stepped unseen =>
    obtain ⟨m, commits⟩ := legible.commits running stepped
    rw [commits.shown] at unseen
    cases unseen
  | undo popped => exact keeps_of_last_eq_none rfl
  | load assembled => exact keeps_of_last_eq_none rfl
  | reset => exact keeps_of_last_eq_none rfl

theorem Keeps.moves {limit : Nat} (keeps : s.Keeps seen) (refl : ∀ e, seen e e) (c : Coherent limit s)
    (moves : Moves s t) : t.Keeps seen := by
  induction moves with
  | refl => exact keeps
  | tail moved move ih => exact ih.move refl (c.moves moved).legible move

/-- Where steps nest too deep, the machine goes on from the moment that is kept, one stage each time. -/
theorem Keeps.changes {limit : Nat} (keeps : s.Keeps seen) (refl : ∀ e, seen e e)
    (next : ∀ {e f g m}, seen e f → f.Commits m g → seen e g) (threaded : Threaded limit s)
    (changes : Changes s t) : t.Keeps seen := by
  induction changes with
  | refl => exact keeps
  | tail changed change ih =>
    have legible := (threaded.changes changed).legible
    cases change with
    | move move => exact ih.move refl legible move
    | overrun overrun =>
      obtain ⟨running, stepped⟩ := overrun
      obtain ⟨n, commits⟩ := legible.commits running stepped
      intro m kept
      obtain ⟨e, before, shown⟩ := ih m kept
      exact ⟨e, next before commits, shown⟩

theorem Keeps.snapshot_eq_ok (keeps : s.Keeps seen) (refl : ∀ e, seen e e) (legible : s.engine.Legible) :
    ∃ m e, s.snapshot = .ok m ∧ seen e s.engine ∧ m.state = e.state ∧ m.stepCount = e.stepCount := by
  unfold snapshot
  cases kept : s.last with
  | some m =>
    obtain ⟨e, shown⟩ := keeps m kept
    exact ⟨m, e, rfl, shown⟩
  | none =>
    obtain ⟨m, shown⟩ := legible.snapshotAt_eq_ok s.engine.state.stage s.engine.isHalted
    obtain ⟨e, same⟩ := exists_seen refl shown
    exact ⟨m, e, shown, same⟩

/-- However a session was called, also by those who listen to its steps and also where faults stopped the
calls, its present moment is that of the machine as it stands; where steps nested too deep, that of a machine that
went on to there. -/
theorem snapshot_current {limit : Option Int} {origin s : Session} (started : Started limit origin)
    (called : Called deep origin s) :
    ∃ m e trail, s.snapshot = .ok m ∧ m.state = e.state ∧ m.stepCount = e.stepCount ∧
      Engine.Path e trail s.engine ∧ (¬ deep → e = s.engine) := by
  have coherent := started.coherent.1
  have fresh := (Fresh.started started).ready.1
  by_cases nested : deep
  · have threaded := coherent.threaded.changes called.changes
    have behind : s.Keeps fun e f => ∃ trail, Engine.Path e trail f :=
      (keeps_of_last_eq_none fresh).changes (fun _ => ⟨[], .start⟩)
        (fun ⟨_, path⟩ commits => ⟨_, path.next commits⟩) coherent.threaded called.changes
    obtain ⟨m, e, shown, ⟨trail, path⟩, state, count⟩ :=
      behind.snapshot_eq_ok (fun _ => ⟨[], .start⟩) threaded.legible
    exact ⟨m, e, trail, shown, state, count, path, fun shallow => absurd nested shallow⟩
  · have current : s.Keeps Eq :=
      (keeps_of_last_eq_none fresh).moves (fun _ => rfl) coherent (called.moves nested)
    obtain ⟨m, _, shown, rfl, state, count⟩ :=
      current.snapshot_eq_ok (fun _ => rfl) (coherent.moves (called.moves nested)).legible
    exact ⟨m, s.engine, [], shown, state, count, .start, fun _ => rfl⟩

theorem snapshot_current_among_calls :
    ∃ (origin s : Session) (m : Snapshot), Started (some 4) origin ∧ Called False origin s ∧
      commit s = .error .tooManyPlaces s ∧ s.engine.stepCount = 2 ∧
      s.snapshot = .ok m ∧ m.state = s.engine.state ∧ m.stepCount = 2 := by
  let e : Engine := { width := some ⟨0x100000000000000000000, by decide, true⟩ }
  let origin : Session := { engine := e, history := { limit := 4 } }
  have engine : Engine.create ⟨fun _ => true, fun _ => true⟩ (some 0x100000000000000000000) = .ok e := rfl
  have session : create e (some 1000) (some 4) = .ok origin := rfl
  have started : Started (some 4) origin := .created engine session
  let loaded : Session := (Operation.load "LDI R1, 5".toList).act.after origin
  let heard : Session := (Operation.addListener { name := "told".toList }).act.after (commit.after loaded)
  let s : Session := commit.after (Operation.stepBack.act.after (commit.after heard))
  have shallow {t : Session} (silent : ∀ l ∈ t.listeners, l = { name := "told".toList }) (operation : Operation) :
      False ∨ Shallow operation t :=
    .inr (.inl fun l member => by simp [silent l member, Listener.Passive])
  -- While the first stage is told, the second is made, taken back and made again.
  have back : Called False (commit.after heard) (Operation.stepBack.act.after (commit.after heard)) :=
    .operation (.idle _) .stepBack (shallow (by decide +kernel) _)
  have listening : Called False (commit.after loaded) heard :=
    .operation (.idle _) (.addListener { name := "told".toList }) (shallow (by decide +kernel) _)
  have ready : Called False origin loaded := .operation (.idle _) (.load _) (shallow (by simp [origin]) _)
  have called : Called False origin s := .step ready (.step listening (.step back (.idle _)))
  -- The third one fails, as no result can be cut to the width.
  have stuck : s.engine.step = .error .tooManyPlaces := by decide +kernel
  have two : s.engine.stepCount = 2 := by decide +kernel
  have failed : commit s = .error .tooManyPlaces s := by simp [commit, drive, Act.bind_apply, stuck]
  have again : Called False origin (commit.after s) := .step called (.idle _)
  rw [Act.after_of_error failed] at again
  obtain ⟨m, _, _, shown, state, count, -, same⟩ := snapshot_current started again
  rw [same id] at state count
  exact ⟨origin, s, m, started, again, failed, two, shown, state, count.trans two⟩

/-- A listener who steps the session at every step of an endless program nests its steps too deep. The machine has then
gone on from the present moment. -/
theorem not_snapshot_current_of_nesting :
    ¬ ∀ (limit : Option Int) (origin s : Session), Started limit origin → Reaches origin s →
      ∃ m, s.snapshot = .ok m ∧ m.state = s.engine.state ∧ m.stepCount = s.engine.stepCount := by
  intro always
  let origin : Session := { history := { limit := 4 } }
  have engine : Engine.create (.upTo 0) none = .ok {} := rfl
  have session : create {} (some 1000) (some 4) = .ok origin := rfl
  let operations : List Operation :=
    [.load "JMP 0".toList, .addListener { name := "again".toList, reaction := .step }, .step]
  obtain ⟨s, reached, behind⟩ : ∃ s, Reaches origin s ∧
      s.last.any (fun m => m.stepCount + 1 == s.engine.stepCount) = true :=
    ⟨_, Reaches.start.foldl operations, by decide +kernel⟩
  obtain ⟨n, kept, behind⟩ := (Option.any_eq_true _ _).1 behind
  obtain ⟨m, shown, -, count⟩ := always (some 4) origin s (.created engine session) reached
  have same : s.snapshot = .ok n := by simp [snapshot, kept]
  obtain rfl := Except.ok.inj (same.symm.trans shown)
  simp [count] at behind

end Session
end StageMachine
