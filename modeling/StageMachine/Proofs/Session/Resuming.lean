import StageMachine.Proofs.Machine.Cycle
import StageMachine.Proofs.Session.Stopping
import StageMachine.Proofs.Session.Telling

/-! Runs that are resumed. A breakpoint or a limit stops a run between two stages and changes nothing else,
so that runs one after the other tell what a single run tells. -/
namespace StageMachine.Session
variable {s t : Session} {m : Snapshot} {e last : Engine} {p : Progress} {interval : Int}
  {maxSteps asked : Option Int} {shown : List Snapshot} {rest trail : List Moment}

/-- Runs without waits, one after the other with a limit each, up to the first that comes back with the
halted machine. -/
def runs : List (Option Int) → Act Session (List Progress)
  | [] => return []
  | limit :: limits => do
    let p ← run (some 0) limit
    if p.snapshot.any (·.halted) then return [p] else return p :: (← runs limits)

structure Underway (s : Session) (shown : List Snapshot) (p : Progress) (t : Session) : Prop where
  told : Told s shown t
  steps : p.steps = shown.length
  snapshot : ∀ m ∈ shown.head?, p.snapshot = some m
  breakpoints : t.breakpoints = s.breakpoints
  running : t.running = true

/-- What a run of `s` comes back with: it was stopped after a stage, which takes a breakpoint or a limit,
or it told the program to its end. -/
inductive Came (s : Session) (maxSteps : Option Int) : Progress → Session → Prop where
  | stopped {q : Progress} {u : Session} {m : Snapshot} {shown : List Snapshot}
      (told : Told s (m :: shown) u) (back : q.snapshot = some m)
      (cause : s.breakpoints ≠ [] ∨ maxSteps ≠ none) : Came s maxSteps q u
  | finished {q : Progress} {u : Session} {h : Snapshot} {shown : List Snapshot}
      (done : Finished s (h :: shown) u) (back : q.snapshot = some h) : Came s maxSteps q u

theorem Came.alike {u : Session} (came : Came s maxSteps p t) (same : Alike t u) : Came s maxSteps p u := by
  cases came with
  | stopped told back cause => exact .stopped (told.alike same) back cause
  | finished done back => exact .finished (done.alike same) back

section
variable (calm : ∀ l ∈ s.listeners, l.Calm) (named : ∀ b ∈ s.breakpoints, b.Named)
  (short : interval < Numeral.beyondFloat)

include calm named short in
theorem turn_underway (underway : Underway s shown p t) (commits : t.engine.Commits m e) :
    (∃ q u, turn interval maxSteps p t = .ok (q, .go) u ∧ Underway s (m :: shown) q u ∧ u.engine = e) ∨
      ∃ q u, turn interval maxSteps p t = .ok (q, .stop) u ∧ Came s maxSteps q u ∧
        u.breakpoints = s.breakpoints := by
  obtain ⟨told, steps, snapshot, breakpoints, running⟩ := underway
  have silent := any_pausesAt_of_calm (told.calm calm) m
  have quiet : ∀ l ∈ t.listeners, l.Quiet := fun l member => (told.calm calm l member).quiet
  -- A waiting breakpoint holds no first turn, so that a run comes back with a stage of its own.
  by_cases waits : p.steps ≠ 0 ∧ ∃ b ∈ t.breakpoints, b.Awaits t.engine.state
  · obtain ⟨journal, turned⟩ := turn_awaited interval maxSteps commits.running waits.1 waits.2
    have cause : s.breakpoints ≠ [] := by
      obtain ⟨b, member, -⟩ := waits.2
      rw [breakpoints] at member
      exact List.ne_nil_of_mem member
    cases shown with
    | nil => exact absurd steps waits.1
    | cons m shown =>
      have same : Alike t { t with journal } := ⟨rfl, rfl, rfl, rfl, rfl⟩
      exact .inr ⟨p, _, turned, .stopped (told.alike same) (snapshot m rfl) (.inl cause), breakpoints⟩
  · obtain ⟨verdict, sleeps, journal, made, stops⟩ :
        ∃ verdict sleeps journal, stride interval maxSteps p t =
          .ok ({ p with snapshot := some m, steps := p.steps + 1, sleeps }, verdict)
            { t.committed m e with journal } ∧
          (verdict = .stop ↔ t.Halts maxSteps p m) :=
      stride_stepped quiet (breakpoints.symm ▸ named) short commits
    rw [← turn_eq_stride commits.running fun begun awaited => waits ⟨begun, awaited⟩] at made
    have further : Told s (m :: shown) { t.committed m e with journal } :=
      told.next commits ⟨rfl, rfl, rfl, rfl, rfl⟩
    cases verdict with
    | go =>
      refine .inl ⟨_, _, made, ⟨further, congrArg (· + 1) steps, ?_, breakpoints, ?_⟩, rfl⟩
      · rintro _ ⟨⟩
        rfl
      · show (t.running && !t.listeners.any (·.pausesAt m)) = true
        rw [running, silent]
        rfl
    | stop =>
      refine .inr ⟨_, _, made, .stopped further rfl ?_, breakpoints⟩
      rcases stops.1 rfl with ⟨b, member, -⟩ | ⟨limit, given, -⟩
      · rw [breakpoints] at member
        exact .inl (List.ne_nil_of_mem member)
      · refine .inr ?_
        rintro rfl
        cases given

include calm named short in
theorem turns_onward (halted : last.isHalted = true) (underway : Underway s shown p t)
    (path : t.engine.Path rest last) :
    ∃ q u, turns interval maxSteps p t = some (.ok q u) ∧ Came s maxSteps q u ∧
      u.breakpoints = s.breakpoints := by
  -- Every turn that goes on leaves a shorter path.
  obtain ⟨left, length⟩ : ∃ left, rest.length = left := ⟨_, rfl⟩
  induction left generalizing shown p t rest with
  | zero =>
    obtain rfl := List.eq_nil_of_length_eq_zero length
    cases path with
    | start =>
      have quiet : ∀ l ∈ t.listeners, l.Quiet := fun l member => (underway.told.calm calm l member).quiet
      obtain ⟨h, seen⟩ : ∃ h, t.engine.snapshotAt t.engine.state.stage true = .ok h := ⟨_, rfl⟩
      obtain ⟨journal, turned⟩ : ∃ journal, turn interval maxSteps p t =
          .ok ({ p with snapshot := some h }, .stop) { t.reported h with journal } :=
        turn_reported quiet halted seen
      have done : Finished s (h :: shown) { t.reported h with journal } :=
        .report underway.told halted seen ⟨rfl, rfl, rfl, rfl, rfl⟩
      exact ⟨_, _, turns_of_stop underway.running turned, .finished done rfl, underway.breakpoints⟩
  | succ left ih =>
    obtain ⟨rest, m, after, rfl, commits, path⟩ := path.first length
    have turned : (∃ q u, turn interval maxSteps p t = .ok (q, .go) u ∧ Underway s (m :: shown) q u ∧
        u.engine = after) ∨
        ∃ q u, turn interval maxSteps p t = .ok (q, .stop) u ∧ Came s maxSteps q u ∧
          u.breakpoints = s.breakpoints := turn_underway calm named short underway commits
    rcases turned with ⟨q, u, turned, further, rfl⟩ | ⟨q, u, turned, came, breakpoints⟩
    · rw [turns_of_go underway.running turned]
      exact ih further path (by simpa using length)
    · exact ⟨q, u, turns_of_stop underway.running turned, came, breakpoints⟩

include calm named in
/-- A run comes back wherever there is a path to the end of the program. -/
theorem run_comes (chosen : chosenInterval asked s.clockInterval = .ok interval) (low : 0 ≤ interval)
    (high : interval ≤ 10 ^ 15) (maxSteps : Option Int) (path : s.engine.Path trail last)
    (halted : last.isHalted = true) :
    ∃ p t, run asked maxSteps s = .ok p t ∧ Came s maxSteps p t ∧ t.breakpoints = s.breakpoints := by
  have begun : Underway s [] { snapshot := s.last } { s with running := true } :=
    ⟨.start ⟨rfl, rfl, rfl, rfl, rfl⟩, rfl, by simp, rfl, rfl⟩
  obtain ⟨p, t, ended, came, breakpoints⟩ : ∃ p t,
      turns interval maxSteps { snapshot := s.last } { s with running := true } = some (.ok p t) ∧
        Came s maxSteps p t ∧ t.breakpoints = s.breakpoints :=
    turns_onward calm named (lt_beyondFloat high) halted begun path
  refine ⟨p, { t with running := false }, ?_, came.alike ⟨rfl, rfl, rfl, rfl, rfl⟩, breakpoints⟩
  rw [run_eq chosen low, ended]

include calm in
theorem run_finishes (free : s.breakpoints = [])
    (chosen : chosenInterval asked s.clockInterval = .ok interval) (low : 0 ≤ interval)
    (high : interval ≤ 10 ^ 15) (path : s.engine.Path trail last) (halted : last.isHalted = true) :
    ∃ h shown p t, run asked none s = .ok p t ∧ p.snapshot = some h ∧ Finished s (h :: shown) t := by
  obtain ⟨p, t, ended, came, -⟩ :=
    run_comes calm (by simp [free]) chosen low high none path halted
  cases came with
  | stopped told back cause =>
    rcases cause with some_breakpoint | some_limit
    · exact absurd free some_breakpoint
    · exact absurd rfl some_limit
  | finished done back => exact ⟨_, _, p, t, ended, back, done⟩

include calm named in
theorem runs_finish (path : s.engine.Path trail last) (halted : last.isHalted = true)
    {limits : List (Option Int)} (enough : trail.length < limits.length) :
    ∃ h shown ps t, runs limits s = .ok ps t ∧ ps.length ≤ trail.length + 1 ∧
      (∃ p, ps.getLast? = some p ∧ p.snapshot = some h) ∧ Finished s (h :: shown) t := by
  induction limits generalizing s trail with
  | nil => simp at enough
  | cons limit limits ih =>
    have chosen : chosenInterval (some 0) s.clockInterval = .ok 0 := rfl
    obtain ⟨p, t, ran, came, breakpoints⟩ :=
      run_comes calm named chosen (by decide) (by decide) limit path halted
    cases came with
    | @finished h shown done back =>
      obtain ⟨_, _, same, complete, -⟩ := done.complete path halted
      cases same
      refine ⟨h, shown, [p], t, ?_, by simp, ⟨p, rfl, back⟩, done⟩
      simp [runs, Act.bind_apply, ran, back, complete.halted]
    | @stopped m shown told back =>
      have going : m.halted = false := told.halted_of_mem List.mem_cons_self
      obtain ⟨part, begun, length⟩ := told.path
      -- The stages of this run are off the path for the runs that are left.
      obtain ⟨rest, onward, total⟩ := path.onward halted begun
      rw [List.length_cons] at length
      have known : ∀ b ∈ t.breakpoints, b.Named := breakpoints.symm ▸ named
      obtain ⟨h, more, ps, u, others, few, final, done⟩ := ih (told.calm calm) known onward (by
        rw [List.length_cons] at enough
        omega)
      obtain ⟨q, latest, report⟩ := final
      refine ⟨h, more ++ m :: shown, p :: ps, u, ?_, ?_, ⟨q, ?_, report⟩, .trans told done⟩
      · simp [runs, Act.bind_apply, Act.map_apply, ran, back, going, others]
      · rw [List.length_cons]
        omega
      · rw [List.getLast?_cons, latest]
        rfl

include calm named in
/-- Breakpoints and limits are transparent. Where a program takes so many stages to its end, a run without
them tells each stage and then the halted machine; runs with them, resumed whatever stopped them, tell
just the same and end with the same machine, after one run more than there are stages at the latest. -/
theorem runs_tell_the_same (path : s.engine.Path trail last) (halted : last.isHalted = true)
    (chosen : chosenInterval asked s.clockInterval = .ok interval) (low : 0 ≤ interval)
    (high : interval ≤ 10 ^ 15) :
    ∃ h shown p u, run asked none { s with breakpoints := [] } = .ok p u ∧ p.snapshot = some h ∧
      Complete last trail.length h shown ∧ u.engine = last ∧
      u.deliveries = s.notices (h :: shown) ++ s.deliveries ∧
      ∀ limits : List (Option Int), trail.length < limits.length →
        ∃ ps q t, runs limits s = .ok ps t ∧ ps.length ≤ trail.length + 1 ∧ ps.getLast? = some q ∧
          q.snapshot = some h ∧ t.engine = u.engine ∧ t.deliveries = u.deliveries := by
  have same : Alike s { s with breakpoints := [] } := ⟨rfl, rfl, rfl, rfl, rfl⟩
  obtain ⟨h, shown, p, u, ran, back, free⟩ :=
    run_finishes (s := { s with breakpoints := [] }) calm rfl chosen low high path halted
  have single : Finished s (h :: shown) u := by simpa using Finished.trans (.start same) free
  obtain ⟨_, _, split, complete, reached, told⟩ := single.complete path halted
  cases split
  refine ⟨h, shown, p, u, ran, back, complete, reached, told, fun limits enough => ?_⟩
  obtain ⟨report, more, ps, t, resumed, few, ⟨q, latest, seen⟩, done⟩ :=
    runs_finish calm named path halted enough
  obtain ⟨moments, alike⟩ := single.unique done
  cases moments
  exact ⟨ps, q, t, resumed, few, latest, seen, alike.engine, alike.deliveries⟩

end

theorem runs_tell_the_same_nop :
    ∃ (s : Session) (ps : List Progress) (q : Progress) (t : Session),
      (∀ l ∈ s.listeners, l.Calm) ∧ (∀ b ∈ s.breakpoints, b.Named) ∧
      s.listeners ≠ [] ∧ s.breakpoints ≠ [] ∧
      runs [some 3, none, some (-1), none, none] s = .ok ps t ∧ ps.length ≤ 5 ∧
      ps.getLast? = some q ∧ q.snapshot.any (·.halted) = true := by
  let program := [Assembly.instruction "NOP".toList "NOP".toList 1 0 (some .nop) {}]
  have made : (Assembly.assemble "NOP".toList).outcome = .ok program := by rfl
  let s : Session := {
    engine := { state := { program } }
    history := { limit := 4 }
    breakpoints := [{ kind := .registerValue, value := some 0, register := some "R1".toList }]
    listeners := [{ name := "told".toList }, { name := "gone".toList, reaction := .leave }] }
  have calm : ∀ l ∈ s.listeners, l.Calm := by simp [s, Listener.Calm]
  have named : ∀ b ∈ s.breakpoints, b.Named := by
    have found : registerNumber? (some "R1".toList) = .ok (some 1) := rfl
    simp only [s, List.mem_singleton, forall_eq]
    exact ⟨_, found⟩
  obtain ⟨trail, last, path, four, halted⟩ :=
    Engine.path_halted (e := s.engine) made rfl rfl (by decide) rfl (by decide) (by simp [s]) (by decide)
  have chosen : chosenInterval none s.clockInterval = .ok 1000 := rfl
  obtain ⟨h, _, _, _, -, -, complete, -, -, resumed⟩ :=
    runs_tell_the_same calm named path halted chosen (by decide) (by decide)
  obtain ⟨ps, q, t, ran, few, latest, seen, -⟩ :=
    resumed [some 3, none, some (-1), none, none] (by rw [four]; decide)
  rw [four] at few
  refine ⟨s, ps, q, t, calm, named, by simp [s], by simp [s], ran, few, latest, ?_⟩
  simp [seen, complete.halted]

end StageMachine.Session
