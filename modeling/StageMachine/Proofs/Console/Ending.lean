import StageMachine.Proofs.Console.Turn
import StageMachine.Proofs.Machine.Duration

/-! How the console ends. It makes the stages to the end of the program, but no more than its limit, and
closes with a verdict; where a stage fails before, it fails the same way. -/
namespace StageMachine

def Engine.Writable (e : Engine) (stages : Nat) : Prop :=
  ∀ trail before m after, e.Path trail before → trail.length < stages → before.Commits m after →
    m.Writable

theorem Engine.Writable.mono {e : Engine} {few many : Nat} (writable : e.Writable many) (less : few ≤ many) :
    e.Writable few :=
  fun trail before m after path within => writable trail before m after path (Nat.lt_of_lt_of_le within less)

theorem Engine.Commits.fetched {e after : Engine} {m : Snapshot} (commits : e.Commits m after)
    (ready : e.state.stage = .fetch) : after.state = e.state.fetched := by
  obtain ⟨state, moved, rfl⟩ := commits.after_eq
  rw [State.advance_fetch ready] at moved
  exact (Except.ok.inj moved).symm

/-- What is shown of a fetch is its count and the program counter. -/
theorem Engine.writable_fetch {e : Engine} (ready : e.state.stage = .fetch) (pc : Assembly.IsShort e.state.pc)
    (count : Assembly.IsShort (e.stepCount + 1 : Nat)) : e.Writable 1 := by
  intro trail before m after path within commits
  obtain rfl : trail = [] := List.length_eq_zero_iff.1 (Nat.lt_one_iff.1 within)
  cases path with
  | start =>
    obtain ⟨state, stage, -, counted⟩ := Engine.snapshotAt_running commits.shown
    refine ⟨?_, ?_, fun executing => ?_⟩
    · rwa [counted, commits.stepCount_eq]
    · rwa [state, commits.fetched ready]
    · rw [stage, ready] at executing
      cases executing

namespace Console

theorem stepBound_eq (limit : Int) : (stepBound limit : Int) = max limit 1 :=
  Int.toNat_of_nonneg (by omega)

/-- What the console says at the end: that its limit stopped it, or that the program ended before. -/
noncomputable def verdict (e : Engine) (limit : Int) : Text :=
  if (stepBound limit : ℕ∞) ≤ e.stagesToEnd then limitLine (stepBound limit) else endLine

namespace Terminal
variable {c : Terminal} {limit : Int} {e : Engine} {trail : List Moment}

theorem plays_stages (waits : c.Waits limit) (path : c.engine.Path trail e)
    (below : (e.stepCount : Int) < max limit 1)
    (writable : c.quiet = false → c.engine.Writable trail.length) :
    ∃ lines d, Plays c d ∧ d.Waits limit ∧ d.engine = e ∧ d.quiet = c.quiet ∧
      d.shown = lines ++ c.shown ∧ IsTrace c.quiet lines := by
  -- Step counts only grow: below the limit at the end of the path is below it on the way.
  induction path with
  | start => exact ⟨[], c, .stay, waits, rfl, rfl, rfl, .nil _⟩
  | @next trail before after m path commits ih =>
    have count := commits.stepCount_eq
    obtain ⟨lines, d, plays, ready, reached, same, shown, trace⟩ :=
      ih (by omega) fun still => (writable still).mono (by simp)
    subst reached
    have seen (still : d.quiet = false) : m.Writable :=
      writable (same ▸ still) trail d.engine m after path (by simp) commits
    obtain ⟨newer, more, traced⟩ := plays_made ready commits seen
    have counted : m.stepCount = after.stepCount := (Engine.snapshotAt_running commits.shown).2.2.2
    rw [limited, if_neg (by omega)] at more
    refine ⟨newer ++ lines, _, plays.trans more, ready.made commits newer, rfl, same, ?_, ?_⟩
    · show newer ++ d.shown = newer ++ lines ++ c.shown
      rw [shown, List.append_assoc]
    · exact (same ▸ traced).append trace

theorem plays_to_limit {m : Snapshot} (waits : c.Waits limit) (commits : c.engine.Commits m e)
    (reached : limit ≤ e.stepCount) (writable : c.quiet = false → m.Writable) :
    ∃ lines d, Plays c d ∧ d.closed = true ∧ d.engine = e ∧
      d.shown = limitLine e.stepCount :: (lines ++ c.shown) ∧ IsTrace c.quiet lines := by
  obtain ⟨lines, plays, trace⟩ := plays_made waits commits writable
  have counted : m.stepCount = e.stepCount := (Engine.snapshotAt_running commits.shown).2.2.2
  rw [counted, limited, if_pos reached] at plays
  exact ⟨lines, _, plays, rfl, rfl, rfl, trace⟩

theorem plays_to_end (waits : c.Waits limit) (halted : c.engine.isHalted = true) :
    ∃ d, Plays c d ∧ d.closed = true ∧ d.engine = c.engine ∧ d.shown = endLine :: c.shown := by
  obtain ⟨h, seen⟩ : ∃ h, c.engine.snapshotAt c.engine.state.stage true = .ok h := ⟨_, rfl⟩
  have ticked := Clock.tick_reports waits.quiet waits.revealed halted seen
  exact ⟨_, .turn waits.awake (turn_of_halted waits.on ticked) .stay, rfl, rfl, rfl⟩

structure Stalls (c : Terminal) (limit : Int) : Prop where
  awake : c.closed = false
  on : c.clock.isRunning = true
  set : c.maxSteps = some limit
  stuck : ∃ fault, c.engine.step = .error fault
  short : ∀ m ∈ c.clock.display.session.last, (m.stepCount : Int) < limit

theorem Waits.stalls {fault : Fault} (waits : c.Waits limit) (below : (c.engine.stepCount : Int) < max limit 1)
    (stuck : c.engine.step = .error fault) : c.Stalls limit where
  awake := waits.awake
  on := waits.on
  set := waits.set
  stuck := ⟨fault, stuck⟩
  short m latest := by
    obtain ⟨some, counted⟩ := waits.latest m latest
    omega

theorem turn_stalls (stalls : c.Stalls limit) :
    ∃ d : Terminal, d.Stalls limit ∧ (turn c = .ok () d ∨ ∃ fault, turn c = .error fault d) := by
  obtain ⟨awake, on, set, ⟨fault, stuck⟩, short⟩ := stalls
  -- A failing tick puts the position back to zero: the latest stage is shown again before the next failure.
  cases revealed : c.clock.display.isRevealed with
  | true =>
    have failed := turn_of_error on (Clock.tick_of_error revealed stuck)
    exact ⟨c.positioned 0, ⟨awake, on, set, ⟨fault, stuck⟩, short⟩, .inr ⟨fault, failed⟩⟩
  | false =>
    obtain ⟨m, latest⟩ : ∃ m, c.clock.display.session.last = some m := by
      cases latest : c.clock.display.session.last with
      | some m => exact ⟨m, rfl⟩
      | none => simp [Display.isRevealed, latest, lastPosition] at revealed
    have hidden : c.clock.display.stepper.position < c.clock.display.final m := by
      rwa [← Bool.not_eq_true, Display.isRevealed_iff latest, Nat.not_le] at revealed
    let onward := c.positioned (c.clock.display.stepper.position + 1)
    have turned : turn c = onStepped m onward := turn_of_stepped on (Clock.tick_hidden latest hidden)
    cases shown : onward.momentLines m with
    | error other =>
      have failed := turned.trans (onStepped_of_error shown)
      exact ⟨onward, ⟨awake, on, set, ⟨fault, stuck⟩, short⟩, .inr ⟨other, failed⟩⟩
    | ok lines =>
      have open_still : (onward.showing lines).limited limit m.stepCount = onward.showing lines :=
        if_neg (not_le.2 (short m latest))
      have stepped := onStepped_apply (c := onward) set shown
      rw [open_still, ite_self] at stepped
      exact ⟨onward.showing lines, ⟨awake, on, set, ⟨fault, stuck⟩, short⟩, .inl (turned.trans stepped)⟩

theorem turns_stalled (stalls : c.Stalls limit) : turns true c = none := by
  have endless : ∀ (c : Terminal) outcome, turns true c = some outcome → c.Stalls limit → False := by
    intro c outcome ended
    refine turns.partial_correctness true (fun c _ => c.Stalls limit → False) ?_ c outcome ended
    intro again ih c outcome ended stalls
    obtain ⟨d, after, turned⟩ := turn_stalls stalls
    rw [if_neg (by simp [stalls.awake])] at ended
    rcases turned with turned | ⟨fault, turned⟩ <;> rw [turned] at ended <;> exact ih d outcome ended after
  cases ended : turns true c with
  | none => rfl
  | some outcome => exact (endless c outcome ended stalls).elim

section
variable (waits : c.Waits limit) (fresh : c.engine.stepCount = 0) (path : c.engine.Path trail e)
  (writable : c.quiet = false → c.engine.Writable trail.length) (outlives : Bool)

include waits fresh path writable in
theorem turns_to_limit (all : trail.length = stepBound limit) :
    ∃ lines d, turns outlives c = some (.ok () d) ∧ d.engine = e ∧ IsTrace c.quiet lines ∧
      d.shown = limitLine (stepBound limit) :: (lines ++ c.shown) := by
  have bound := stepBound_eq limit
  have count := path.stepCount_eq
  cases path with
  | start =>
    rw [List.length_nil] at all
    omega
  | @next trail before _ m path commits =>
    rw [List.length_cons] at all count
    have before_count := path.stepCount_eq
    obtain ⟨lines, d, plays, ready, reached, same, shown, trace⟩ :=
      plays_stages waits path (by omega) fun still => (writable still).mono (by simp)
    subst reached
    have seen (still : d.quiet = false) : m.Writable :=
      writable (same ▸ still) trail d.engine m e path (by simp) commits
    obtain ⟨newer, last, more, closed, made, told, traced⟩ := plays_to_limit ready commits (by omega) seen
    refine ⟨newer ++ lines, last, (plays.trans more).turns_eq.trans (turns_of_closed closed), made,
      (same ▸ traced).append trace, ?_⟩
    rw [told, shown, List.append_assoc, show e.stepCount = stepBound limit by omega]

include waits fresh path writable in
theorem turns_to_end (within : trail.length < stepBound limit) (halted : e.isHalted = true) :
    ∃ lines d, turns outlives c = some (.ok () d) ∧ d.engine = e ∧ IsTrace c.quiet lines ∧
      d.shown = endLine :: (lines ++ c.shown) := by
  have bound := stepBound_eq limit
  have count := path.stepCount_eq
  obtain ⟨lines, d, plays, ready, reached, same, shown, trace⟩ :=
    plays_stages waits path (by omega) writable
  obtain ⟨last, one, closed, made, told⟩ := plays_to_end ready (reached.symm ▸ halted)
  exact ⟨lines, last, (plays.trans one).turns_eq.trans (turns_of_closed closed), made.trans reached, trace,
    by rw [told, shown]⟩

include waits fresh path writable in
/-- The console closes with its verdict after the stages to the end of the program, or to its limit. -/
theorem turns_finish (all : (trail.length : ℕ∞) = min c.engine.stagesToEnd (stepBound limit)) :
    ∃ lines d, turns outlives c = some (.ok () d) ∧ d.engine = e ∧ IsTrace c.quiet lines ∧
      d.shown = verdict c.engine limit :: (lines ++ c.shown) := by
  unfold verdict
  by_cases limited : (stepBound limit : ℕ∞) ≤ c.engine.stagesToEnd
  · rw [min_eq_right limited, Nat.cast_inj] at all
    rw [if_pos limited]
    exact turns_to_limit waits fresh path writable outlives all
  · have ends := not_le.1 limited
    rw [min_eq_left (le_of_lt ends)] at all
    rw [if_neg limited]
    rw [← all] at ends
    exact turns_to_end waits fresh path writable outlives (Nat.cast_lt.1 ends) (path.isHalted_of_length all)

include waits fresh path writable in
/-- A stage that fails before ends the turns, unless the loop outlives it: then they never end. -/
theorem turns_stuck {fault : Fault}
    (before : (trail.length : ℕ∞) < min c.engine.stagesToEnd (stepBound limit))
    (stuck : e.step = .error fault) :
    (∃ d, turns false c = some (.error fault d)) ∧ turns true c = none := by
  have within : trail.length < stepBound limit := Nat.cast_lt.1 (lt_of_lt_of_le before (min_le_right _ _))
  have count := path.stepCount_eq
  have bound := stepBound_eq limit
  have below : (e.stepCount : Int) < max limit 1 := by omega
  obtain ⟨lines, d, plays, ready, rfl, -⟩ := plays_stages waits path below writable
  constructor
  · have failed := turn_of_error ready.on (Clock.tick_of_error ready.revealed stuck)
    refine ⟨d.positioned 0, ?_⟩
    rw [plays.turns_eq, turns_of_error ready.awake failed]
    rfl
  · exact plays.turns_eq.trans (turns_stalled (ready.stalls below stuck))

end

end Terminal
end Console
end StageMachine
