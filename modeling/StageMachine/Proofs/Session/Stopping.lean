import StageMachine.Proofs.Session.Reachable
import StageMachine.Proofs.Session.Turn

/-! Where a run stops. The stages that a run makes are those of the machine alone; it makes them up to the
first after which something stops it, and where nothing ever does it does not come back. -/
namespace StageMachine

def Listener.PausesOn (l : Listener) (count : Nat) : Prop :=
  l.reaction = .pause ∧ (l.trigger = none ∨ l.trigger = some (count : Int))

theorem Listener.pausesAt_iff (l : Listener) (m : Snapshot) :
    l.pausesAt m = true ↔ l.PausesOn m.stepCount := by
  unfold pausesAt PausesOn reactsTo
  cases l.trigger <;> simp

namespace Session
variable {s t u : Session} {maxSteps : Option Int} {interval : Int}

def StopsWithin (s : Session) (maxSteps : Option Int) (steps : Nat) (before after : Engine) : Prop :=
  (∃ b ∈ s.breakpoints, b.Met before.state.stage before.state after.state) ∨
    (∃ l ∈ s.listeners, l.PausesOn after.stepCount) ∨ maxSteps = some (steps : Int)

/-- Something stops a run of the session after so many stages: the program is at its end, a breakpoint
waits for the next instruction, or the last stage itself was stopped at. -/
def StopsAfter (s : Session) (maxSteps : Option Int) (steps : Nat) : Prop :=
  ∃ trail before m after, s.engine.Path trail before ∧ trail.length + 1 = steps ∧
    before.Commits m after ∧
    (after.isHalted = true ∨ (∃ b ∈ s.breakpoints, b.Awaits after.state) ∨
      s.StopsWithin maxSteps steps before after)

structure Along (s : Session) (trail : List Moment) (p : Progress) (t : Session) : Prop where
  path : s.engine.Path trail t.engine
  steps : p.steps = trail.length
  history : t.history.toList = (trail ++ s.history.toList).take s.history.limit
  limit : t.history.limit = s.history.limit
  listeners : ∀ l ∈ t.listeners, l ∈ s.listeners
  pausing : ∀ n, t.listeners.any (·.pausesAt n) = s.listeners.any (·.pausesAt n)
  breakpoints : t.breakpoints = s.breakpoints

theorem Along.start : Along s [] { snapshot := s.last } { s with running := true } := by
  refine ⟨.start, rfl, ?_, rfl, fun _ => id, fun _ => rfl, rfl⟩
  have few : s.history.toList.length ≤ s.history.limit := by
    rw [History.length_toList]
    exact s.history.depth_le_limit
  simp [List.take_of_length_le few]

theorem Along.next {trail : List Moment} {p q : Progress} {m : Snapshot} {e : Engine}
    (a : Along s trail p t) (commits : t.engine.Commits m e) (strode : Strode p t m e q u) :
    Along s (t.engine.moment :: trail) q u := by
  refine ⟨?_, ?_, ?_, ?_, fun l member => a.listeners l (strode.listeners l member),
    fun n => (strode.pausing n).trans (a.pausing n), strode.breakpoints.trans a.breakpoints⟩
  · rw [strode.engine]
    exact a.path.next commits
  · rw [strode.steps, a.steps, List.length_cons]
  · rw [strode.history, History.toList_push, a.history, a.limit, List.cons_append]
    cases s.history.limit with
    | zero => rfl
    | succ limit => simp [List.take_take]
  · rw [strode.history, History.limit_push, a.limit]

theorem stopsAfter_of_path {trail : List Moment} {e : Engine} (path : s.engine.Path trail e)
    (begun : trail ≠ []) (stops : e.isHalted = true ∨ ∃ b ∈ s.breakpoints, b.Awaits e.state) :
    StopsAfter s maxSteps trail.length := by
  cases path with
  | start => exact absurd rfl begun
  | next path commits => exact ⟨_, _, _, _, path, rfl, commits, stops.imp_right .inl⟩

theorem stopsAfter_of_limit {trail : List Moment} {e : Engine} (path : s.engine.Path trail e)
    {limit : Int} (low : 1 ≤ limit) (reached : limit ≤ trail.length) :
    StopsAfter s (some limit) limit.toNat := by
  obtain ⟨part, middle, upto, length⟩ := path.exists_prefix (show limit.toNat ≤ trail.length by omega)
  cases upto with
  | start =>
    simp only [List.length_nil] at length
    omega
  | next path commits =>
    refine ⟨_, _, _, _, path, length, commits, .inr (.inr (.inr (.inr ?_)))⟩
    rw [Int.toNat_of_nonneg (by omega)]

section
variable (quiet : ∀ l ∈ s.listeners, l.Quiet) (named : ∀ b ∈ s.breakpoints, b.Named)
  (short : interval < Numeral.beyondFloat) (wanted : ∀ limit ∈ maxSteps, 1 ≤ limit)

theorem stopsWithin_iff {trail : List Moment} {p : Progress} {m : Snapshot} {e : Engine}
    (a : Along s trail p t) (commits : t.engine.Commits m e)
    (going : ∀ limit ∈ maxSteps, (trail.length : Int) < limit) :
    s.StopsWithin maxSteps (trail.length + 1) t.engine e ↔
      t.Halts maxSteps p m ∨ t.listeners.any (·.pausesAt m) = true := by
  obtain ⟨state, stage, -, count⟩ := Engine.snapshotAt_running commits.shown
  have paused : t.listeners.any (·.pausesAt m) = true ↔ ∃ l ∈ s.listeners, l.PausesOn e.stepCount := by
    rw [a.pausing]
    simp [List.any_eq_true, Listener.pausesAt_iff, count]
  have spent : (∃ limit ∈ maxSteps, limit ≤ (p.steps + 1 : Nat)) ↔
      maxSteps = some ((trail.length + 1 : Nat) : Int) := by
    rw [a.steps]
    constructor
    · rintro ⟨limit, rfl, reached⟩
      have above := going limit rfl
      congr 1
      omega
    · intro same
      exact ⟨_, same, Int.le_refl _⟩
  unfold StopsWithin Halts
  rw [paused, spent, a.breakpoints, state, stage, ← or_assoc, or_right_comm]

theorem more_of_going {trail : List Moment} {e : Engine} (path : s.engine.Path trail e)
    (wanted : ∀ limit ∈ maxSteps, 1 ≤ limit)
    (going : ∀ steps ≤ trail.length, ¬ StopsAfter s maxSteps steps) :
    ∀ limit ∈ maxSteps, (trail.length : Int) < limit := by
  intro limit member
  by_contra reached
  have low := wanted limit member
  obtain rfl : maxSteps = some limit := member
  exact going limit.toNat (by omega) (stopsAfter_of_limit path low (by omega))

theorem free_of_going {trail : List Moment} {p : Progress} (a : Along s trail p t)
    (going : ∀ steps ≤ trail.length, ¬ StopsAfter s maxSteps steps) :
    p.steps ≠ 0 → ¬ ∃ b ∈ t.breakpoints, b.Awaits t.engine.state := by
  rw [a.steps, a.breakpoints]
  intro begun awaited
  refine going trail.length (Nat.le_refl _) (stopsAfter_of_path a.path ?_ (.inr awaited))
  rintro rfl
  exact begun rfl

theorem turns_of_go {p q : Progress} (running : t.running = true)
    (turned : turn interval maxSteps p t = .ok (q, .go) u) :
    turns interval maxSteps p t = turns interval maxSteps q u := by
  rw [turns.eq_1, if_pos running, turned]

theorem turns_of_stop {p q : Progress} (running : t.running = true)
    (turned : turn interval maxSteps p t = .ok (q, .stop) u) :
    turns interval maxSteps p t = some (.ok q u) := by
  rw [turns.eq_1, if_pos running, turned]

theorem turns_of_idle {p : Progress} (idle : t.running = false) :
    turns interval maxSteps p t = some (.ok p t) := by
  rw [turns.eq_1, if_neg (by simp [idle])]

theorem turns_due (interval : Int) (maxSteps : Option Int) {q : Progress}
    (quiet : ∀ l ∈ u.listeners, l.Quiet) (on : u.running = true) (begun : q.steps ≠ 0)
    (due : u.engine.isHalted = true ∨ ∃ b ∈ u.breakpoints, b.Awaits u.engine.state) :
    ∃ r v, turns interval maxSteps q u = some (.ok r v) ∧ r.steps = q.steps ∧ v.engine = u.engine ∧
      v.history = u.history ∧ (u.engine.isHalted = false → r.snapshot = q.snapshot) ∧
      (u.engine.isHalted = true →
        ∃ h, u.engine.snapshotAt u.engine.state.stage true = .ok h ∧ r.snapshot = some h) := by
  cases halted : u.engine.isHalted with
  | true =>
    obtain ⟨h, v, shown, last, engine, history⟩ := turn_halted interval maxSteps q quiet halted
    exact ⟨_, v, turns_of_stop on last, rfl, engine, history, by simp, fun _ => ⟨h, shown, rfl⟩⟩
  | false =>
    have awaited := due.resolve_left (by simp [halted])
    obtain ⟨journal, last⟩ := turn_awaited interval maxSteps halted begun awaited
    exact ⟨q, _, turns_of_stop on last, rfl, rfl, rfl, fun _ => rfl, by simp⟩

include quiet named short wanted in
theorem turn_made {trail : List Moment} {p : Progress} {m : Snapshot} {after : Engine}
    (a : Along s trail p t) (running : t.running = true) (commits : t.engine.Commits m after)
    (going : ∀ steps ≤ trail.length, ¬ StopsAfter s maxSteps steps) :
    ∃ q verdict u, turn interval maxSteps p t = .ok (q, verdict) u ∧
      Along s (t.engine.moment :: trail) q u ∧ u.engine = after ∧ q.snapshot = some m ∧
      (s.StopsWithin maxSteps (trail.length + 1) t.engine after ↔ verdict = .stop ∨ u.running = false) := by
  obtain ⟨q, verdict, u, turned, strode, stopped⟩ : ∃ q verdict u,
      stride interval maxSteps p t = .ok (q, verdict) u ∧ Strode p t m after q u ∧
        (verdict = .stop ↔ t.Halts maxSteps p m) :=
    stride_eq_ok (fun l member => quiet l (a.listeners l member)) (a.breakpoints.symm ▸ named) short commits
  rw [← turn_eq_stride commits.running (free_of_going a going)] at turned
  have awake : u.running = !t.listeners.any (·.pausesAt m) := by
    rw [strode.running, running, Bool.true_and]
  refine ⟨q, verdict, u, turned, a.next commits strode, strode.engine, strode.snapshot, ?_⟩
  rw [stopsWithin_iff a commits (more_of_going a.path wanted going), stopped, awake, Bool.not_eq_false']

include quiet named short wanted in
theorem turn_goes {trail : List Moment} {p : Progress} {m : Snapshot} {after : Engine}
    (a : Along s trail p t) (running : t.running = true) (commits : t.engine.Commits m after)
    (going : ∀ steps ≤ trail.length + 1, ¬ StopsAfter s maxSteps steps) :
    ∃ q u, turn interval maxSteps p t = .ok (q, .go) u ∧ Along s (t.engine.moment :: trail) q u ∧
      u.engine = after ∧ u.running = true := by
  obtain ⟨q, verdict, u, turned, further, engine, -, stopped⟩ :=
    turn_made quiet named short wanted a running commits fun steps within =>
      going steps (Nat.le_succ_of_le within)
  have on : ¬ (verdict = .stop ∨ u.running = false) := by
    rw [← stopped]
    intro stops
    have stopsAfter : StopsAfter s maxSteps (trail.length + 1) :=
      ⟨trail, _, _, _, a.path, rfl, commits, .inr (.inr stops)⟩
    exact going _ (Nat.le_refl _) stopsAfter
  cases verdict with
  | stop => exact absurd (.inl rfl) on
  | go => exact ⟨q, u, turned, further, engine, by simpa using on⟩

include quiet named short wanted in
/-- Up to the first stop, a run makes the stages of the machine. -/
theorem turns_along {trail : List Moment} {e : Engine}
    (path : s.engine.Path trail e) (going : ∀ steps ≤ trail.length, ¬ StopsAfter s maxSteps steps) :
    ∃ p t, turns interval maxSteps { snapshot := s.last } { s with running := true } =
        turns interval maxSteps p t ∧
      Along s trail p t ∧ t.engine = e ∧ t.running = true := by
  induction path with
  | start => exact ⟨_, _, rfl, .start, rfl, rfl⟩
  | @next trail before after m path commits ih =>
    obtain ⟨p, t, same, a, rfl, running⟩ := ih fun steps within =>
      going steps (Nat.le_succ_of_le within)
    obtain ⟨q, u, turned, further, engine, on⟩ : ∃ q u, turn interval maxSteps p t = .ok (q, .go) u ∧
        Along s (t.engine.moment :: trail) q u ∧ u.engine = after ∧ u.running = true :=
      turn_goes quiet named short wanted a running commits going
    exact ⟨q, u, same.trans (turns_of_go running turned), further, engine, on⟩

/-- The moment that a run comes back with, where it stopped after a stage. It is that of the stage, or
where nothing but the end of the program stopped it, that of the halted machine. -/
def ComesBack (s : Session) (maxSteps : Option Int) (steps : Nat) (before : Engine) (m : Snapshot)
    (after : Engine) (back : Option Snapshot) : Prop :=
  (s.StopsWithin maxSteps steps before after ∨ after.isHalted = false → back = some m) ∧
    (¬ s.StopsWithin maxSteps steps before after ∧ after.isHalted = true →
      ∃ h, after.snapshotAt after.state.stage true = .ok h ∧ back = some h)

include quiet named short wanted in
theorem turns_stop {trail : List Moment} {before after : Engine} {m : Snapshot}
    (path : s.engine.Path trail before) (commits : before.Commits m after)
    (going : ∀ steps ≤ trail.length, ¬ StopsAfter s maxSteps steps)
    (stops : after.isHalted = true ∨ (∃ b ∈ s.breakpoints, b.Awaits after.state) ∨
      s.StopsWithin maxSteps (trail.length + 1) before after) :
    ∃ p t, turns interval maxSteps { snapshot := s.last } { s with running := true } =
        some (.ok p t) ∧
      p.steps = trail.length + 1 ∧ t.engine = after ∧
      t.history.toList = (before.moment :: trail ++ s.history.toList).take s.history.limit ∧
      ComesBack s maxSteps (trail.length + 1) before m after p.snapshot := by
  obtain ⟨p, t, same, a, rfl, running⟩ := turns_along quiet named short wanted path going
  obtain ⟨q, verdict, u, turned, further, reached, shown, stopped⟩ :=
    turn_made quiet named short wanted a running commits going
  have counted : q.steps = trail.length + 1 := further.steps
  have stored : u.history.toList =
      (t.engine.moment :: trail ++ s.history.toList).take s.history.limit := further.history
  by_cases inside : s.StopsWithin maxSteps (trail.length + 1) t.engine after
  · have ended : turns interval maxSteps p t = some (.ok q u) := by
      cases verdict with
      | stop => exact turns_of_stop running turned
      | go =>
        have idle : u.running = false := by simpa using stopped.1 inside
        rw [turns_of_go running turned, turns_of_idle idle]
    exact ⟨q, u, same.trans ended, counted, reached, stored, fun _ => shown, fun h => absurd inside h.1⟩
  · obtain ⟨rfl, on⟩ : verdict = .go ∧ u.running = true := by
      have on := mt stopped.2 inside
      cases verdict with
      | stop => exact absurd (.inl rfl) on
      | go => exact ⟨rfl, by simpa using on⟩
    have due : u.engine.isHalted = true ∨ ∃ b ∈ u.breakpoints, b.Awaits u.engine.state := by
      rw [further.breakpoints, reached]
      rcases stops with halted | awaited | within
      · exact .inl halted
      · exact .inr awaited
      · exact absurd within inside
    obtain ⟨r, v, last, steps, engine, history, kept, closed⟩ :=
      turns_due interval maxSteps (fun l member => quiet l (further.listeners l member)) on (by omega : q.steps ≠ 0) due
    rw [reached] at engine kept closed
    refine ⟨r, v, (same.trans (turns_of_go running turned)).trans last, steps.trans counted, engine,
      history ▸ stored, ?_, ?_⟩
    · rintro (within | going)
      · exact absurd within inside
      · exact (kept going).trans shown
    · exact fun h => closed h.2

theorem commits_of_going {trail : List Moment} {e : Engine} (legible : s.engine.Legible)
    (running : s.engine.isHalted = false) (going : ∀ steps, ¬ StopsAfter s maxSteps steps)
    (path : s.engine.Path trail e) (unstuck : ∀ fault, e.step ≠ .error fault) :
    ∃ m after, e.Commits m after := by
  have on : e.isHalted = false := by
    rw [← Bool.not_eq_true]
    intro halted
    cases path with
    | start =>
      rw [running] at halted
      cases halted
    | next path commits => exact going _ ⟨_, _, _, _, path, rfl, commits, .inl halted⟩
  have shown : e.Legible := by
    unfold Engine.Legible
    rw [path.program_eq]
    exact legible
  cases stepped : e.step with
  | error fault => exact absurd stepped (unstuck fault)
  | ok after =>
    obtain ⟨m, commits⟩ := shown.commits on stepped
    exact ⟨m, after, commits⟩

theorem path_of_going (legible : s.engine.Legible) (running : s.engine.isHalted = false)
    (going : ∀ steps, ¬ StopsAfter s maxSteps steps)
    (unstuck : ∀ trail e, s.engine.Path trail e → ∀ fault, e.step ≠ .error fault) (steps : Nat) :
    ∃ trail e, s.engine.Path trail e ∧ trail.length = steps := by
  induction steps with
  | zero => exact ⟨[], _, .start, rfl⟩
  | succ steps ih =>
    obtain ⟨trail, e, path, rfl⟩ := ih
    obtain ⟨m, after, commits⟩ := commits_of_going legible running going path (unstuck trail e path)
    exact ⟨_, after, path.next commits, rfl⟩

include quiet named short wanted in
/-- Where nothing stops a run and the machine never fails, the turns have no end. -/
theorem turns_endless (legible : s.engine.Legible) (running : s.engine.isHalted = false)
    (going : ∀ steps, ¬ StopsAfter s maxSteps steps)
    (unstuck : ∀ trail e, s.engine.Path trail e → ∀ fault, e.step ≠ .error fault) :
    turns interval maxSteps { snapshot := s.last } { s with running := true } = none := by
  have another {trail : List Moment} {p : Progress} {t : Session} (a : Along s trail p t)
      (on : t.running = true) : ∃ q u, turn interval maxSteps p t = .ok (q, .go) u ∧
        Along s (t.engine.moment :: trail) q u ∧ u.running = true := by
    obtain ⟨m, after, commits⟩ := commits_of_going legible running going a.path (unstuck trail _ a.path)
    obtain ⟨q, u, turned, further, -, awake⟩ :=
      turn_goes quiet named short wanted a on commits fun steps _ => going steps
    exact ⟨q, u, turned, further, awake⟩
  cases ended : turns interval maxSteps { snapshot := s.last } { s with running := true } with
  | none => rfl
  | some r =>
    -- An outcome ends with some turn, but a turn on the way always goes on.
    refine absurd Along.start (turns_induction interval maxSteps
      (motive := fun p t _ => t.running = true → ∀ trail, ¬ Along s trail p t) ?_ ?_ ?_ ?_ ended rfl [])
    · intro p t idle on
      rw [idle] at on
      cases on
    · intro p t q u on turned _ trail a
      obtain ⟨_, _, other, -⟩ := another a on
      rw [turned] at other
      cases other
    · intro p t q u r on turned ih _ trail a
      obtain ⟨_, _, other, further, awake⟩ := another a on
      rw [turned] at other
      cases other
      exact ih awake _ further
    · intro p t fault u on turned _ trail a
      obtain ⟨_, _, other, -⟩ := another a on
      rw [turned] at other
      cases other

include quiet named short wanted in
theorem turns_stuck {trail : List Moment} {stuck : Engine} {fault : Fault}
    (path : s.engine.Path trail stuck) (going : ∀ steps, ¬ StopsAfter s maxSteps steps)
    (failed : stuck.step = .error fault) :
    ∃ t, turns interval maxSteps { snapshot := s.last } { s with running := true } =
      some (.error fault t) ∧ t.engine = stuck := by
  obtain ⟨p, t, same, a, rfl, running⟩ :=
    turns_along quiet named short wanted path fun steps _ => going steps
  have turned : turn interval maxSteps p t = .error fault t :=
    turn_of_error failed (free_of_going a fun steps _ => going steps)
  refine ⟨t, same.trans ?_, rfl⟩
  rw [turns.eq_1, if_pos running, turned]

theorem run_eq {asked : Option Int} (chosen : chosenInterval asked s.clockInterval = .ok interval)
    (low : 0 ≤ interval) :
    run asked maxSteps s =
      match turns interval maxSteps { snapshot := s.last } { s with running := true } with
      | some (.ok p t) => .ok p { t with running := false }
      | some (.error fault t) => .error fault t
      | none => .error .unfinished { s with running := true } := by
  simp only [run, Act.bind_apply, Act.get_apply, chosen, Act.ofExcept_ok]
  rw [if_neg (by omega)]
  simp only [Act.bind_apply, Act.modify_apply, loop]
  cases turns interval maxSteps { snapshot := s.last } { s with running := true } with
  | none => rfl
  | some outcome => cases outcome <;> rfl

theorem lt_beyondFloat (least : interval ≤ 10 ^ 15) : interval < Numeral.beyondFloat := by
  have far : (10 ^ 15 : Int) < Numeral.beyondFloat := by decide +kernel
  exact Int.lt_of_le_of_lt least far

include quiet named in
/-- A run stops at the first stage after which anything stops it. At the end of its program it makes no
stage, and where nothing stops it, it fails as the machine does or has no end. -/
theorem run_stops_first {limit asked : Option Int} {origin : Session} (started : Started limit origin)
    (reached : Reaches origin s) (chosen : chosenInterval asked s.clockInterval = .ok interval)
    (low : 0 ≤ interval) (high : interval ≤ 10 ^ 15) (wanted : ∀ most ∈ maxSteps, 1 ≤ most) :
    (s.engine.isHalted = true → ∃ p t h, run asked maxSteps s = .ok p t ∧ p.steps = 0 ∧
      p.snapshot = some h ∧ h.halted = true ∧ t.engine = s.engine ∧ t.history = s.history) ∧
    (s.engine.isHalted = false →
      (∀ k, IsLeast { steps | s.StopsAfter maxSteps steps } k →
        ∃ trail before m after p t, s.engine.Path trail before ∧ trail.length + 1 = k ∧
          before.Commits m after ∧ run asked maxSteps s = .ok p t ∧ p.steps = k ∧ t.engine = after ∧
          t.running = false ∧
          t.history.toList = (before.moment :: trail ++ s.history.toList).take s.history.limit ∧
          ComesBack s maxSteps k before m after p.snapshot) ∧
      ((∀ k, ¬ s.StopsAfter maxSteps k) →
        (∃ trail stuck fault t, s.engine.Path trail stuck ∧ stuck.step = .error fault ∧
          run asked maxSteps s = .error fault t ∧ t.engine = stuck) ∨
        (∀ steps, ∃ trail e, s.engine.Path trail e ∧ trail.length = steps) ∧
          ∃ t, run asked maxSteps s = .error .unfinished t)) := by
  have short := lt_beyondFloat high
  have legible : s.engine.Legible := (started.coherent.1.threaded.changes reached.changes).legible
  refine ⟨fun halted => ?_, fun running => ⟨fun k least => ?_, fun going => ?_⟩⟩
  · obtain ⟨h, t, shown, last, engine, history⟩ :=
      turn_halted (s := { s with running := true }) interval maxSteps { snapshot := s.last } quiet halted
    have ended := turns_of_stop rfl last
    refine ⟨{ snapshot := some h }, { t with running := false }, h, ?_, rfl, rfl, ?_, engine, history⟩
    · rw [run_eq chosen low, ended]
    · cases shown
      rfl
  · obtain ⟨⟨trail, before, m, after, path, rfl, commits, stops⟩, first⟩ := least
    have going : ∀ steps ≤ trail.length, ¬ StopsAfter s maxSteps steps := by
      intro steps within stopped
      have above := first stopped
      omega
    obtain ⟨p, t, ended, counted, engine, stored, back⟩ :=
      turns_stop quiet named short wanted path commits going stops
    refine ⟨trail, before, m, after, p, { t with running := false }, path, rfl, commits, ?_, counted,
      engine, rfl, stored, back⟩
    rw [run_eq chosen low, ended]
  · by_cases stuck : ∃ trail e, s.engine.Path trail e ∧ ∃ fault, e.step = .error fault
    · obtain ⟨trail, e, path, fault, failed⟩ := stuck
      obtain ⟨t, ended, engine⟩ := turns_stuck quiet named short wanted path going failed
      refine .inl ⟨trail, e, fault, t, path, failed, ?_, engine⟩
      rw [run_eq chosen low, ended]
    · have unstuck : ∀ trail e, s.engine.Path trail e → ∀ fault, e.step ≠ .error fault :=
        fun trail e path fault failed => stuck ⟨trail, e, path, fault, failed⟩
      have endless := turns_endless quiet named short wanted legible running going unstuck
      refine .inr ⟨path_of_going legible running going unstuck, { s with running := true }, ?_⟩
      rw [run_eq chosen low, endless]

theorem run_stops_first_within_limit :
    ∃ origin s p t, Started (some 4) origin ∧ Reaches origin s ∧ s.engine.isHalted = false ∧
      IsLeast { steps | s.StopsAfter (some 1) steps } 1 ∧ run (some 0) (some 1) s = .ok p t ∧
      p.steps = 1 := by
  let origin : Session := { history := { limit := 4 } }
  have engine : Engine.create (.upTo 0) none = .ok {} := rfl
  have session : create {} (some 1000) (some 4) = .ok origin := rfl
  have started : Started (some 4) origin := .created engine session
  let s : Session := (Operation.load "NOP".toList).act.after origin
  have reached : Reaches origin s := Reaches.start.next (.load "NOP".toList)
  have silent : s.listeners = [] := by decide +kernel
  have free : s.breakpoints = [] := by decide +kernel
  have running : s.engine.isHalted = false := by decide +kernel
  have least : IsLeast { steps | s.StopsAfter (some 1) steps } 1 := by
    have legible : s.engine.Legible := (started.coherent.1.threaded.changes reached.changes).legible
    obtain ⟨after, stepped⟩ : ∃ after, s.engine.step = .ok after := ⟨_, rfl⟩
    obtain ⟨m, commits⟩ := legible.commits running stepped
    refine ⟨⟨[], _, m, after, .start, rfl, commits, .inr (.inr (.inr (.inr rfl)))⟩, ?_⟩
    rintro steps ⟨trail, -, -, -, -, rfl, -⟩
    omega
  have chosen : chosenInterval (some 0) s.clockInterval = .ok 0 := rfl
  have wanted : ∀ most ∈ some (1 : Int), 1 ≤ most := by simp
  obtain ⟨-, onward⟩ := run_stops_first (by simp [silent]) (by simp [free]) started reached chosen
    (by decide) (by decide) wanted
  obtain ⟨-, -, -, -, p, t, -, -, -, done, counted, -⟩ := (onward running).1 1 least
  exact ⟨origin, s, p, t, started, reached, running, least, done, counted⟩

end
end Session
end StageMachine
