import StageMachine.Control.Clock
import StageMachine.Proofs.Session.Forward

/-! The clock against the run. A clock that is left to tick makes the stages that a run makes, shows each of
them as often as its stepper wants, and stops by itself at the end of the program. -/
namespace StageMachine

/-- How far the micro-steps of an instruction are ahead before a stage: four times those that were shown,
less thirteen for every stage that was made. -/
def Stage.surplus : Stage → Int
  | fetch => 0
  | decode => -1
  | execute => 2
  | writeBack => 1

theorem Stage.surplus_next (stage : Stage) :
    stage.next.surplus = stage.surplus + 4 * stage.microSteps - 13 := by
  cases stage <;> rfl

theorem Stage.microSteps_pos (stage : Stage) : 0 < stage.microSteps := by
  cases stage <;> decide

def times (enabled : Bool) (m : Snapshot) : Nat := if enabled then m.microSteps else 1

theorem times_eq {before after : Engine} {m : Snapshot} (commits : before.Commits m after)
    (enabled : Bool) : times enabled m = if enabled then before.state.stage.microSteps else 1 := by
  obtain ⟨disassembly, rfl⟩ := Engine.snapshotAt_eq_ok commits.shown
  rfl

theorem times_pos {before after : Engine} {m : Snapshot} (commits : before.Commits m after)
    (enabled : Bool) : 0 < times enabled m := by
  rw [times_eq commits]
  split
  · exact Stage.microSteps_pos _
  · decide

theorem times_le_four {before after : Engine} {m : Snapshot} (commits : before.Commits m after) (enabled : Bool) :
    times enabled m ≤ 4 := by
  rw [times_eq commits]
  cases enabled with
  | false => simp
  | true => cases before.state.stage <;> decide

/-- The moments that a display shows, oldest first, given stages newest first. -/
def views (enabled : Bool) (shown : List Snapshot) : List Snapshot :=
  shown.reverse.flatMap fun m => List.replicate (times enabled m) m

theorem views_concat (enabled : Bool) (shown : List Snapshot) (m : Snapshot) :
    views enabled (shown ++ [m]) = List.replicate (times enabled m) m ++ views enabled shown := by
  simp [views]

theorem views_cons (enabled : Bool) (m : Snapshot) (shown : List Snapshot) :
    views enabled (m :: shown) = views enabled shown ++ List.replicate (times enabled m) m := by
  simp [views]

theorem length_views_disabled (shown : List Snapshot) : (views false shown).length = shown.length := by
  induction shown with
  | nil => rfl
  | cons m shown ih => simp [views_cons, ih, times]

theorem Session.Told.length_views {s t : Session} {shown : List Snapshot} (told : s.Told shown t) :
    (4 * (views true shown).length : Int) + s.engine.state.stage.surplus =
      13 * shown.length + t.engine.state.stage.surplus := by
  induction told with
  | start alike =>
    rw [alike.engine]
    rfl
  | @next shown t u m e _ commits alike ih =>
    have ahead := t.engine.state.stage.surplus_next
    rw [← commits.stage_eq] at ahead
    have often : times true m = t.engine.state.stage.microSteps := times_eq commits true
    have reached : u.engine = e := alike.engine
    rw [views_cons, reached, List.length_append, List.length_cons, List.length_replicate, often]
    push_cast
    omega

/-- From a fetch to the end of the program, thirteen micro-steps are shown for every four stages. -/
theorem Session.Finished.length_views {s t : Session} {h : Snapshot} {shown : List Snapshot}
    (done : s.Finished (h :: shown) t) (ready : s.engine.state.stage = .fetch) :
    4 * (views true shown).length = 13 * shown.length := by
  cases done with
  | @report _ u _ _ told halted seen alike =>
    have ended : u.engine.state.stage = .fetch := by
      simp only [Engine.isHalted, State.isHalted, Bool.and_eq_true, beq_iff_eq] at halted
      exact halted.1
    have counted := told.length_views
    rw [ready, ended] at counted
    omega

theorem Act.on_of_ok {σ τ α : Type} {part : τ → σ} {put : τ → σ → τ} {act : Act σ α} {whole : τ}
    {value : α} {s : σ} (done : act (part whole) = .ok value s) :
    Act.on part put act whole = .ok value (put whole s) := by
  simp [Act.on, done]

namespace Display
variable {d : Display} {m : Snapshot}

def final (d : Display) (m : Snapshot) : Nat := times d.stepper.enabled m - 1

theorem isRevealed_iff (latest : d.session.last = some m) :
    d.isRevealed = true ↔ d.final m ≤ d.stepper.position := by
  unfold isRevealed final times
  cases d.stepper.enabled <;> simp [latest, lastPosition]

theorem advance_of_hidden (latest : d.session.last = some m) (hidden : d.isRevealed = false) :
    advance d =
      .ok m { d with stepper := { d.stepper with position := d.stepper.position + 1 } } := by
  simp only [advance, Act.bind_apply, Act.get_apply, latest, hidden, Bool.false_eq_true, if_false]
  rfl

theorem advance_of_revealed (revealed : d.isRevealed = true) : advance d = forward d := by
  simp only [advance, Act.bind_apply, Act.get_apply]
  cases d.session.last with
  | none => rfl
  | some m => simp only [revealed, if_true]

theorem forward_of_ok {s : Session} (stepped : Session.step d.session = .ok m s) :
    forward d = .ok m { session := s, stepper := { d.stepper with position := 0 } } := by
  simp only [forward, Act.bind_apply, setPosition, Act.modify_apply]
  exact Act.on_of_ok stepped

end Display

namespace Clock
variable {c d : Clock} {s : Session} {m h : Snapshot} {e last : Engine} {emissions : List Emission}
  {rest trail : List Moment} {asked : Option Int} {interval : Int}

/-- The clock ticks while it is running, and then is idle. -/
inductive Fires : Clock → List Emission → Clock → Prop where
  | idle {c : Clock} (idle : c.isRunning = false) : Fires c [] c
  | tick {c d e : Clock} {emission : Emission} {emissions : List Emission} (on : c.isRunning = true)
      (ticked : tick c = .ok emission d) (rest : Fires d emissions e) : Fires c (emission :: emissions) e

theorem Fires.unique {others : List Emission} {e : Clock} (fires : Fires c emissions d) (again : Fires c others e) :
    emissions = others ∧ d = e := by
  induction fires generalizing others with
  | idle idle =>
    cases again with
    | idle => exact ⟨rfl, rfl⟩
    | tick on =>
      rw [idle] at on
      cases on
  | tick on ticked _ ih =>
    cases again with
    | idle idle =>
      rw [idle] at on
      cases on
    | tick _ ticked' rest =>
      rw [ticked] at ticked'
      cases ticked'
      obtain ⟨rfl, rfl⟩ := ih rest
      exact ⟨rfl, rfl⟩

def positioned (c : Clock) (position : Nat) : Clock :=
  { c with display := { c.display with stepper := { c.display.stepper with position } } }

def showing (c : Clock) (session : Session) : Clock :=
  { c with display := { c.display with session } }

theorem start_eq (chosen : chosenInterval asked c.display.session.clockInterval = .ok interval)
    (low : 0 ≤ interval) : start asked c = .ok () { c with isRunning := true } := by
  simp only [start, Act.bind_apply, Act.get_apply, chosen, Act.ofExcept_ok]
  rw [if_neg (by omega)]
  rfl

theorem tick_of_ok {display : Display} (advanced : Display.advance c.display = .ok m display)
    (going : (c.display.session.engine.isHalted && c.display.isRevealed) = false) :
    tick c = .ok (.stepped m) { c with display } := by
  have on : onDisplay Display.advance c = .ok m { c with display } := Act.on_of_ok advanced
  simp only [tick, Act.bind_apply, Act.get_apply, going, Bool.false_eq_true, if_false, on]
  rfl

theorem tick_of_error {fault : Fault} (revealed : c.display.isRevealed = true)
    (stuck : c.display.session.engine.step = .error fault) : tick c = .error fault (c.positioned 0) := by
  have running := Engine.isHalted_of_error stuck
  have failed : Display.advance c.display =
      .error fault { c.display with stepper := { c.display.stepper with position := 0 } } := by
    rw [Display.advance_of_revealed revealed]
    simp [Display.forward, Act.bind_apply, Display.setPosition, Display.onSession, Act.on,
      Session.step_of_error stuck]
  simp [tick, Act.bind_apply, Act.map_apply, running, onDisplay, Act.on, failed]
  rfl

theorem tick_hidden (latest : c.display.session.last = some m)
    (hidden : c.display.stepper.position < c.display.final m) :
    tick c = .ok (.stepped m) (c.positioned (c.display.stepper.position + 1)) := by
  have covered : c.display.isRevealed = false := by
    rw [← Bool.not_eq_true, Display.isRevealed_iff latest]
    omega
  exact tick_of_ok (Display.advance_of_hidden latest covered) (by rw [covered, Bool.and_false])

theorem Fires.reveal (on : c.isRunning = true) (latest : c.display.session.last = some m)
    {left : Nat} (hidden : c.display.stepper.position + left = c.display.final m)
    (fires : Fires (c.positioned (c.display.final m)) emissions d) :
    Fires c (List.replicate left (.stepped m) ++ emissions) d := by
  induction left generalizing c with
  | zero =>
    rw [← hidden] at fires
    exact fires
  | succ left ih =>
    have ticked := tick_hidden latest (by omega)
    refine .tick on ticked (ih on latest ?_ fires)
    show c.display.stepper.position + 1 + left = c.display.final m
    omega

section
variable (quiet : ∀ l ∈ c.display.session.listeners, l.Quiet) (revealed : c.display.isRevealed = true)

include quiet revealed in
theorem tick_commits (commits : c.display.session.engine.Commits m e) :
    tick c = .ok (.stepped m) ((c.showing (c.display.session.committed m e)).positioned 0) := by
  have advanced := Display.forward_of_ok (Session.step_running quiet commits)
  rw [← Display.advance_of_revealed revealed] at advanced
  exact tick_of_ok advanced (by rw [commits.running, Bool.false_and])

include quiet revealed in
theorem tick_reports (halted : c.display.session.engine.isHalted = true)
    (seen : c.display.session.engine.snapshotAt c.display.session.engine.state.stage true = .ok h) :
    tick c = .ok .halted { c.showing (c.display.session.reported h) with isRunning := false } := by
  have one := Session.step_halted quiet halted seen
  have stepped : onDisplay (Display.onSession Session.step) { c with isRunning := false } =
      .ok h { c.showing (c.display.session.reported h) with isRunning := false } :=
    Act.on_of_ok (Act.on_of_ok one)
  have ended : (c.display.session.engine.isHalted && c.display.isRevealed) = true := by
    rw [halted, revealed]
    rfl
  simp only [tick, Act.bind_apply, Act.get_apply, ended, if_true, pause, Act.modify_apply]
  have dropped : discard (onDisplay (Display.onSession Session.step)) { c with isRunning := false } =
      .ok ⟨⟩ { c.showing (c.display.session.reported h) with isRunning := false } := by
    show (Function.const _ PUnit.unit <$> onDisplay (Display.onSession Session.step)) _ = _
    rw [Act.map_apply, stepped]
  rw [dropped]
  rfl

end

/-- On a path to the end of the program, the clock fires until the halted machine was told. -/
theorem fires_onward (quiet : ∀ l ∈ c.display.session.listeners, l.Quiet)
    (on : c.isRunning = true) (revealed : c.display.isRevealed = true)
    (path : c.display.session.engine.Path rest last) (halted : last.isHalted = true) :
    ∃ h shown d, Fires c ((views c.display.stepper.enabled shown).map .stepped ++ [.halted]) d ∧
      c.display.session.Finished (h :: shown) d.display.session ∧ d.isRunning = false := by
  -- Between two stages the clock is like one that was just started, with a shorter path.
  obtain ⟨left, length⟩ : ∃ left, rest.length = left := ⟨_, rfl⟩
  induction left generalizing c rest with
  | zero =>
    obtain rfl := List.eq_nil_of_length_eq_zero length
    cases path with
    | start =>
      obtain ⟨h, seen⟩ : ∃ h, c.display.session.engine.snapshotAt
        c.display.session.engine.state.stage true = .ok h := ⟨_, rfl⟩
      have ticked := tick_reports quiet revealed halted seen
      exact ⟨h, [], _, .tick on ticked (.idle rfl), .report (.start (.refl _)) halted seen (.refl _), rfl⟩
  | succ left ih =>
    obtain ⟨rest, m, after, rfl, commits, path⟩ := path.first length
    have ticked := tick_commits quiet revealed commits
    let made := (c.showing (c.display.session.committed m after)).positioned 0
    let spent := made.positioned (made.display.final m)
    have latest : spent.display.session.last = some m := rfl
    have revealed : spent.display.isRevealed = true :=
      (Display.isRevealed_iff latest).2 (Nat.le_refl _)
    obtain ⟨h, shown, d, fires, done, idle⟩ :=
      ih (c := spent) (fun l member => quiet l (mem_of_stillListening member)) on revealed path
        (by simpa using length)
    have whole := Fires.tick on ticked (Fires.reveal (c := made) on latest (Nat.zero_add _) fires)
    have told : c.display.session.Told [m] (c.display.session.committed m after) :=
      .next (.start (.refl _)) commits (.refl _)
    refine ⟨h, shown ++ [m], d, ?_, .trans told done, idle⟩
    have often : times c.display.stepper.enabled m = made.display.final m + 1 :=
      (Nat.sub_add_cancel (times_pos commits _)).symm
    have unchanged : spent.display.stepper.enabled = c.display.stepper.enabled := rfl
    rw [views_concat, often]
    simpa [List.replicate_succ, unchanged] using whole

/-- Left to fire, a clock that was started on a fresh session tells and makes what a run does, and stops by
itself after it has told of the end once. A display in micro-steps takes thirteen ticks for four stages. -/
theorem fires_as_run (enabled : Bool) (fresh : s.Fresh) (free : s.breakpoints = [])
    (calm : ∀ l ∈ s.listeners, l.Calm) (path : s.engine.Path trail last)
    (halted : last.isHalted = true) (chosen : chosenInterval asked s.clockInterval = .ok interval)
    (low : 0 ≤ interval) :
    ∃ h shown p t started stepped c,
      s.run (some 0) none = .ok p t ∧ t.engine = last ∧ Session.Complete last trail.length h shown ∧
      t.deliveries = s.notices (h :: shown) ++ s.deliveries ∧
      start asked { display := { session := s, stepper := { enabled } } } = .ok () started ∧
      Fires started (stepped.map .stepped ++ [.halted]) c ∧ c.isRunning = false ∧
      c.display.session.engine = t.engine ∧ c.display.session.history = t.history ∧
      c.display.session.deliveries = t.deliveries ∧ stepped = views enabled shown ∧
      (enabled = false → stepped.length = trail.length) ∧
      (enabled = true → 4 * stepped.length = 13 * trail.length) := by
  obtain ⟨latest, ready⟩ := fresh.ready
  have at_once : chosenInterval (some 0) s.clockInterval = .ok 0 := rfl
  obtain ⟨h, shown, p, t, ran, -, done⟩ :=
    Session.run_finishes calm free at_once (by decide) (by decide) path halted
  let started : Clock := { display := { session := s, stepper := { enabled } }, isRunning := true }
  have revealed : started.display.isRevealed = true := by
    simp [started, Display.isRevealed, latest, lastPosition]
  have quiet : ∀ l ∈ s.listeners, l.Quiet := fun l member => (calm l member).quiet
  obtain ⟨_, _, c, fires, again, idle⟩ := fires_onward (c := started) quiet rfl revealed path halted
  obtain ⟨moments, alike⟩ := done.unique again
  cases moments
  obtain ⟨_, _, split, complete, reached, told⟩ := done.complete path halted
  cases split
  refine ⟨h, shown, p, t, started, _, c, ran, reached, complete, told, start_eq chosen low, fires, idle,
    alike.engine, alike.history, alike.deliveries, rfl, ?_, ?_⟩
  · rintro rfl
    rw [length_views_disabled, complete.length]
  · rintro rfl
    rw [done.length_views ready, complete.length]

theorem fires_as_run_nop :
    ∃ (s : Session) (started c : Clock) (stepped : List Snapshot),
      s.Fresh ∧ s.breakpoints = [] ∧ s.listeners ≠ [] ∧
      start (some 20) { display := { session := s, stepper := { enabled := true } } } = .ok () started ∧
      Fires started (stepped.map .stepped ++ [.halted]) c ∧ stepped.length = 13 ∧
      c.isRunning = false := by
  let program := [Assembly.instruction "NOP".toList "NOP".toList 1 0 (some .nop) {}]
  have made : (Assembly.assemble "NOP".toList).outcome = .ok program := by rfl
  let origin : Session := {
    history := { limit := 4 }
    listeners := [{ name := "told".toList }, { name := "gone".toList, reaction := .leave, trigger := some 2 }] }
  obtain ⟨s, loaded, engine, heard, free⟩ : ∃ s, Session.load "NOP".toList origin = .ok () s ∧
      s.engine = origin.engine.load program ∧ s.listeners = origin.listeners ∧ s.breakpoints = [] :=
    ⟨_, Session.load_of_ok made, rfl, rfl, rfl⟩
  have calm : ∀ l ∈ s.listeners, l.Calm := by simp [heard, origin, Listener.Calm]
  obtain ⟨trail, last, path, four, halted⟩ := Engine.path_halted (e := origin.engine.load program) made rfl
    rfl (by decide) rfl (by decide) (by simp [Engine.load, origin]) (by decide)
  rw [← engine] at path
  have chosen : chosenInterval (some 20) s.clockInterval = .ok 20 := rfl
  obtain ⟨_, _, _, _, started, stepped, c, -, -, -, -, begun, fires, idle, -, -, -, -, -, often⟩ :=
    fires_as_run true (.loaded loaded) free calm path halted chosen (by decide)
  have count := often rfl
  rw [four] at count
  exact ⟨s, started, c, stepped, .loaded loaded, free, by simp [heard, origin], begun, fires, by omega, idle⟩

theorem run_paused (quiet : ∀ l ∈ s.listeners, l.Quiet) (free : s.breakpoints = [])
    (commits : s.engine.Commits m e) (pauses : s.listeners.any (·.pausesAt m) = true) :
    ∃ p t, s.run (some 0) none = .ok p t ∧
      t.deliveries = (s.listeners.map fun l => ⟨l.name, m⟩).reverse ++ s.deliveries := by
  let begun : Session := { s with running := true }
  have short : (0 : Int) < Numeral.beyondFloat := Session.lt_beyondFloat (by decide)
  obtain ⟨verdict, sleeps, journal, made, stops⟩ : ∃ verdict sleeps journal,
      begun.stride 0 none { snapshot := s.last } =
        .ok ({ snapshot := some m, steps := 1, sleeps }, verdict)
          { begun.stepped e (s.history.push s.engine.moment) m with journal } ∧
      (verdict = .stop ↔ begun.Halts none { snapshot := s.last } m) :=
    Session.stride_stepped (s := begun) quiet (by simp [begun, free]) short commits
  have free : begun.breakpoints = [] := free
  have unawaited : ¬ ∃ b ∈ begun.breakpoints, b.Awaits begun.engine.state := by simp [free]
  have turned := (Session.turn_eq_stride (s := begun) commits.running fun _ => unawaited).trans made
  have goes : verdict = .go := by
    cases verdict with
    | go => rfl
    | stop =>
      have halts := stops.1 rfl
      simp [Session.Halts, free] at halts
  subst goes
  let told : Session := { begun.stepped e (s.history.push s.engine.moment) m with journal }
  have idle : told.running = false := by simp [told, begun, Session.stepped, pauses]
  have ended := (Session.turns_of_go rfl turned).trans (Session.turns_of_idle idle)
  exact ⟨_, _, by rw [Session.run_eq rfl (Int.le_refl 0), ended], rfl⟩

/-- Clock and run come to one end for every program with an end in sessions of the kind. -/
def FiresAsRun (kind : Session → Prop) : Prop :=
  ∀ (s : Session) (trail : List Moment) (last : Engine), s.Fresh → s.breakpoints = [] → kind s →
    s.engine.Path trail last → last.isHalted = true →
    ∃ p t started emissions c, s.run (some 0) none = .ok p t ∧
      start (some 0) { display := { session := s } } = .ok () started ∧ Fires started emissions c ∧
      c.display.session.deliveries = t.deliveries

theorem not_firesAsRun_of_pausing : ¬ FiresAsRun fun s => ∀ l ∈ s.listeners, l.reaction = .pause := by
  intro every
  let l : Listener := { name := "pause".toList, reaction := .pause }
  let origin : Session := { history := { limit := 4 }, listeners := [l] }
  let program := [Assembly.instruction "NOP".toList "NOP".toList 1 0 (some .nop) {}]
  have made : (Assembly.assemble "NOP".toList).outcome = .ok program := by rfl
  obtain ⟨s, loaded, engine, alone, free, silent⟩ : ∃ s, Session.load "NOP".toList origin = .ok () s ∧
      s.engine = origin.engine.load program ∧ s.listeners = [l] ∧ s.breakpoints = [] ∧ s.deliveries = [] :=
    ⟨_, Session.load_of_ok made, rfl, rfl, rfl, rfl⟩
  have quiet : ∀ l ∈ s.listeners, l.Quiet := by simp [alone, l, Listener.Quiet]
  obtain ⟨trail, last, path, four, halted⟩ := Engine.path_halted (e := origin.engine.load program) made rfl
    rfl (by decide) rfl (by decide) (by simp [Engine.load, origin]) (by decide)
  rw [← engine] at path
  obtain ⟨p, t, started, emissions, c, ran, begun, fires, same⟩ :=
    every s trail last (.loaded loaded) free (by simp [alone, l]) path halted
  -- The run tells the first stage, and the clock all of them and the end.
  obtain ⟨rest, m, after, -, commits, -⟩ := path.first four
  have pauses : s.listeners.any (·.pausesAt m) = true := by
    simp [alone, l, Listener.pausesAt, Listener.reactsTo]
  obtain ⟨_, _, again, once⟩ := run_paused quiet free commits pauses
  obtain ⟨-, rfl⟩ := EStateM.Result.ok.inj (ran.symm.trans again)
  rw [start_eq rfl (Int.le_refl 0)] at begun
  cases begun
  obtain ⟨h, shown, d, others, done, -⟩ := fires_onward
    (c := { display := { session := s }, isRunning := true }) quiet rfl rfl path halted
  obtain ⟨-, rfl⟩ := fires.unique others
  obtain ⟨_, _, split, complete, -, told⟩ := done.complete path halted
  cases split
  have often := congrArg List.length (told.symm.trans (same.trans once))
  rw [List.length_append, Session.length_notices (by simp [alone, l]), silent, alone, List.length_cons,
    complete.length, four] at often
  simp at often

theorem not_firesAsRun_of_stepping : ¬ FiresAsRun fun s => ∀ l ∈ s.listeners, l.reaction = .step := by
  intro every
  let l : Listener := { name := "again".toList, reaction := .step }
  let origin : Session := { history := { limit := 4 }, listeners := [l] }
  have made : (Assembly.assemble []).outcome = .ok [] := rfl
  obtain ⟨s, loaded, engine, alone, free⟩ : ∃ s, Session.load [] origin = .ok () s ∧ s.engine = {} ∧
      s.listeners = [l] ∧ s.breakpoints = [] := ⟨_, Session.load_of_ok made, rfl, rfl, rfl⟩
  have halted : s.engine.isHalted = true := by rw [engine]; rfl
  obtain ⟨_, _, _, _, _, ran, -⟩ :=
    every s [] s.engine (.loaded loaded) free (by simp [alone, l]) .start halted
  obtain ⟨_, failed⟩ := Session.run_nests rfl rfl halted alone
  rw [ran] at failed
  cases failed

/-- A listener who pauses the session ends a run, but does not stop the clock. And one who steps the session nests its
steps too deep. -/
theorem not_fires_as_run_of_any :
    ¬ FiresAsRun (fun s => ∀ l ∈ s.listeners, l.reaction = .pause) ∧
      ¬ FiresAsRun (fun s => ∀ l ∈ s.listeners, l.reaction = .step) :=
  ⟨not_firesAsRun_of_pausing, not_firesAsRun_of_stepping⟩

end Clock
end StageMachine
