import StageMachine.Console.Run
import StageMachine.Proofs.Console.Display
import StageMachine.Proofs.Control.Clock

/-! The turns of the console. A stage takes as many turns as it has positions on the display, and only
after the last of them is the limit looked at; so what the console does with a stage does not depend on
the display but for the lines before the verdict. -/
namespace StageMachine.Console

/-- The steps after which a limit stops the console: it makes one before it looks. -/
def stepBound (limit : Int) : Nat := (max limit 1).toNat

def limitLine (count : Nat) : Text :=
  "Stopped after ".toList ++ Nat.toDigits 10 count ++ " stage steps (limit reached).".toList

def endLine : Text := "Program complete.".toList

/-- Lines that may stand before the verdict: one begins with a bracket, and a quiet console has none. -/
structure IsTrace (quiet : Bool) (lines : List Text) : Prop where
  silent : quiet = true → lines = []
  bracketed : ∀ line ∈ lines, line.head? = some '['

theorem IsTrace.nil (quiet : Bool) : IsTrace quiet [] := ⟨fun _ => rfl, by simp⟩

theorem IsTrace.append {quiet : Bool} {newer older : List Text} (first : IsTrace quiet newer)
    (second : IsTrace quiet older) : IsTrace quiet (newer ++ older) where
  silent still := by rw [first.silent still, second.silent still]; rfl
  bracketed line member := (List.mem_append.1 member).elim (first.bracketed line) (second.bracketed line)

theorem IsTrace.reverse {quiet : Bool} {lines : List Text} (trace : IsTrace quiet lines) :
    IsTrace quiet lines.reverse where
  silent still := by rw [trace.silent still]; rfl
  bracketed line member := trace.bracketed line (List.mem_reverse.1 member)

namespace Terminal
variable {c d e : Terminal} {limit : Int} {m : Snapshot} {added : List Text}

def engine (c : Terminal) : Engine := c.clock.display.session.engine

def withClock (c : Terminal) (clock : Clock) : Terminal := { c with clock }

def showing (c : Terminal) (lines : List Text) : Terminal := { c with shown := lines ++ c.shown }

def stopped (c : Terminal) (count : Nat) : Terminal :=
  { c with
    clock := { c.clock with isRunning := false }
    shown := limitLine count :: c.shown
    closed := true }

def limited (c : Terminal) (limit : Int) (count : Nat) : Terminal :=
  if limit ≤ count then c.stopped count else c

inductive Plays : Terminal → Terminal → Prop where
  | stay {c : Terminal} : Plays c c
  | turn {c d e : Terminal} (awake : c.closed = false) (turned : turn c = .ok () d) (rest : Plays d e) : Plays c e

theorem Plays.trans (first : Plays c d) (second : Plays d e) : Plays c e := by
  induction first with
  | stay => exact second
  | turn awake turned _ ih => exact .turn awake turned (ih second)

section
variable {outlives : Bool}

theorem turns_of_ok (awake : c.closed = false) (turned : turn c = .ok () d) :
    turns outlives c = turns outlives d := by
  rw [turns.eq_1, if_neg (by simp [awake]), turned]

theorem turns_of_error {fault : Fault} (awake : c.closed = false) (failed : turn c = .error fault d) :
    turns outlives c = if outlives then turns outlives d else some (.error fault d) := by
  rw [turns.eq_1, if_neg (by simp [awake]), failed]

theorem turns_of_closed (closed : c.closed = true) : turns outlives c = some (.ok () c) := by
  rw [turns.eq_1, if_pos closed]

theorem Plays.turns_eq (plays : Plays c d) : turns outlives c = turns outlives d := by
  induction plays with
  | stay => rfl
  | turn awake turned _ ih => exact (turns_of_ok awake turned).trans ih

end

def microStep (c : Terminal) : Option Nat :=
  if c.clock.display.stepper.enabled then some c.clock.display.stepper.position else none

def momentLines (c : Terminal) (m : Snapshot) : Except Fault (List Text) :=
  if c.quiet then .ok [] else (momentLine m c.microStep).map fun line => [line]

theorem momentLines_eq_ok (writable : c.quiet = false → m.Writable)
    (few : c.clock.display.stepper.position < 10) :
    ∃ lines, c.momentLines m = .ok lines ∧ IsTrace c.quiet lines := by
  unfold momentLines
  cases still : c.quiet with
  | true => exact ⟨[], rfl, .nil true⟩
  | false =>
    have small : ∀ p ∈ c.microStep, p < 10 := by
      unfold microStep
      rintro p chosen
      split at chosen <;> cases chosen
      exact few
    obtain ⟨line, shown⟩ := momentLine_eq_ok (writable still) small
    exact ⟨['[' :: line], by rw [shown]; rfl, by simp, by simp⟩

theorem onStepped_apply (set : c.maxSteps = some limit) (shown : c.momentLines m = .ok added) :
    onStepped m c = .ok () (if c.clock.display.isRevealed then
      (c.showing added).limited limit m.stepCount else c.showing added) := by
  have limit_eq : stepLimit c = .ok limit := by simp [stepLimit, set]
  have closing : ((do
      if limit ≤ m.stepCount && c.clock.display.isRevealed then
        onClock Clock.pause
        showLine (limitLine m.stepCount)
        close : Act Terminal Unit)) (c.showing added) = .ok () (if c.clock.display.isRevealed then
      (c.showing added).limited limit m.stepCount else c.showing added) := by
    unfold limited
    cases c.clock.display.isRevealed with
    | false => simp
    | true =>
      by_cases reached : limit ≤ m.stepCount
      · simp only [reached]
        rfl
      · simp [reached]
  rw [← closing]
  unfold momentLines at shown
  cases still : c.quiet with
  | true =>
    rw [still] at shown
    cases shown
    simp only [onStepped, Act.bind_apply, Act.get_apply, still, limit_eq]
    rfl
  | false =>
    rw [still] at shown
    obtain ⟨line, written, rfl⟩ := map_eq_ok.1 shown
    unfold microStep at written
    simp only [onStepped, Act.bind_apply, Act.get_apply, still, limit_eq, written]
    rfl

theorem onStepped_of_error {fault : Fault} (failed : c.momentLines m = .error fault) :
    onStepped m c = .error fault c := by
  unfold momentLines at failed
  cases still : c.quiet with
  | true =>
    rw [still] at failed
    cases failed
  | false =>
    rw [still] at failed
    have unwritten : momentLine m c.microStep = .error fault := by
      cases written : momentLine m c.microStep with
      | ok line => simp [written, Except.map] at failed
      | error other => simpa [written, Except.map] using failed
    unfold microStep at unwritten
    simp only [onStepped, Act.bind_apply, Act.get_apply, still, unwritten]
    rfl

theorem onStepped_eq_ok (set : c.maxSteps = some limit) (writable : c.quiet = false → m.Writable)
    (few : c.clock.display.stepper.position < 10) :
    ∃ lines, onStepped m c = .ok () (if c.clock.display.isRevealed then
      (c.showing lines).limited limit m.stepCount else c.showing lines) ∧ IsTrace c.quiet lines := by
  obtain ⟨lines, shown, trace⟩ := momentLines_eq_ok writable few
  exact ⟨lines, onStepped_apply set shown, trace⟩

section
variable {clock : Clock} (on : c.clock.isRunning = true)

include on in
theorem onClock_tickIfRunning {emission : Emission} (ticked : Clock.tick c.clock = .ok emission clock) :
    onClock Clock.tickIfRunning c = .ok (some emission) (c.withClock clock) := by
  apply Act.on_of_ok
  simp [Clock.tickIfRunning, Act.bind_apply, Act.map_apply, on, ticked]

include on in
theorem turn_of_stepped (ticked : Clock.tick c.clock = .ok (.stepped m) clock) :
    turn c = onStepped m (c.withClock clock) := by
  simp only [turn, Act.bind_apply, onClock_tickIfRunning on ticked]

include on in
theorem turn_of_halted (ticked : Clock.tick c.clock = .ok .halted clock) :
    turn c = .ok () { c with clock, shown := endLine :: c.shown, closed := true } := by
  simp only [turn, Act.bind_apply, onClock_tickIfRunning on ticked]
  rfl

include on in
theorem turn_of_error {fault : Fault} (failed : Clock.tick c.clock = .error fault clock) :
    turn c = .error fault (c.withClock clock) := by
  have whole : onClock Clock.tickIfRunning c = .error fault (c.withClock clock) := by
    have inner : Clock.tickIfRunning c.clock = .error fault clock := by
      simp [Clock.tickIfRunning, Act.bind_apply, Act.map_apply, on, failed]
    simp [onClock, Act.on, inner, withClock]
  simp only [turn, Act.bind_apply, whole]

end

def positioned (c : Terminal) (position : Nat) : Terminal := c.withClock (c.clock.positioned position)

theorem plays_reveal (awake : c.closed = false) (on : c.clock.isRunning = true)
    (latest : c.clock.display.session.last = some m) (set : c.maxSteps = some limit)
    (writable : c.quiet = false → m.Writable) (few : c.clock.display.final m < 10) {left : Nat}
    (hidden : c.clock.display.stepper.position + left = c.clock.display.final m) :
    ∃ lines d, onStepped m c = .ok () d ∧
      Plays d (((c.positioned (c.clock.display.final m)).showing lines).limited limit m.stepCount) ∧
      IsTrace c.quiet lines := by
  -- The limit is looked at in every position, but counts in the last one only.
  induction left generalizing c with
  | zero =>
    have position : c.clock.display.stepper.position = c.clock.display.final m := hidden
    have revealed : c.clock.display.isRevealed = true :=
      (Display.isRevealed_iff latest).2 (Nat.le_of_eq position.symm)
    obtain ⟨lines, stepped, trace⟩ := onStepped_eq_ok set writable (by omega)
    rw [revealed, if_pos rfl] at stepped
    refine ⟨lines, _, stepped, ?_, trace⟩
    rw [← position]
    exact .stay
  | succ left ih =>
    have covered : c.clock.display.isRevealed = false := by
      rw [← Bool.not_eq_true, Display.isRevealed_iff latest]
      omega
    obtain ⟨lines, stepped, trace⟩ := onStepped_eq_ok set writable (by omega)
    rw [covered, if_neg (by simp)] at stepped
    have ticked := Clock.tick_hidden latest (by omega)
    obtain ⟨newer, d, told, plays, traced⟩ :=
      ih (c := (c.showing lines).positioned (c.clock.display.stepper.position + 1)) awake on latest set
        writable few (by
          show c.clock.display.stepper.position + 1 + left = c.clock.display.final m
          omega)
    have turned : turn (c.showing lines) = .ok () d :=
      (turn_of_stepped (c := c.showing lines) on ticked).trans told
    refine ⟨newer ++ lines, _, stepped, .turn awake turned ?_, traced.append trace⟩
    have joined : (c.positioned (c.clock.display.final m)).showing (newer ++ lines) =
        (((c.showing lines).positioned (c.clock.display.stepper.position + 1)).positioned
          (c.clock.display.final m)).showing newer := by
      simp only [showing, positioned, withClock, List.append_assoc]
      rfl
    rw [joined]
    exact plays

/-- The terminal stands between two stages, with no listeners to its session. -/
structure Waits (c : Terminal) (limit : Int) : Prop where
  awake : c.closed = false
  on : c.clock.isRunning = true
  revealed : c.clock.display.isRevealed = true
  alone : c.clock.display.session.listeners = []
  latest : ∀ m ∈ c.clock.display.session.last, 0 < m.stepCount ∧ m.stepCount = c.engine.stepCount
  set : c.maxSteps = some limit

theorem Waits.quiet (waits : c.Waits limit) : ∀ l ∈ c.clock.display.session.listeners, l.Quiet := by
  simp [waits.alone]

theorem Waits.committed_alone (waits : c.Waits limit) (m : Snapshot) (e : Engine) :
    (c.clock.display.session.committed m e).listeners = [] := by
  show stillListening c.clock.display.session.listeners m = []
  simp [stillListening, waits.alone]

def made (c : Terminal) (m : Snapshot) (e : Engine) : Terminal :=
  let after := c.withClock (c.clock.showing (c.clock.display.session.committed m e))
  after.positioned (c.clock.display.final m)

theorem Waits.made {e : Engine} (waits : c.Waits limit) (commits : c.engine.Commits m e) (lines : List Text) :
    ((c.made m e).showing lines).Waits limit where
  awake := waits.awake
  on := waits.on
  revealed := (Display.isRevealed_iff rfl).2 (Nat.le_refl _)
  alone := waits.committed_alone m e
  latest := by
    have counted : m.stepCount = e.stepCount := (Engine.snapshotAt_running commits.shown).2.2.2
    have more := commits.stepCount_eq
    rintro m ⟨⟩
    exact ⟨by omega, counted⟩
  set := waits.set

theorem plays_made {e : Engine} (waits : c.Waits limit) (commits : c.engine.Commits m e)
    (writable : c.quiet = false → m.Writable) :
    ∃ lines, Plays c (((c.made m e).showing lines).limited limit m.stepCount) ∧
      IsTrace c.quiet lines := by
  have few := times_le_four commits c.clock.display.stepper.enabled
  have some := times_pos commits c.clock.display.stepper.enabled
  let begun := (c.withClock (c.clock.showing (c.clock.display.session.committed m e))).positioned 0
  have ticked := Clock.tick_commits waits.quiet waits.revealed commits
  have last : c.clock.display.final m + 1 = times c.clock.display.stepper.enabled m :=
    Nat.sub_add_cancel some
  have small : begun.clock.display.final m < 10 := by
    show c.clock.display.final m < 10
    omega
  have first : begun.clock.display.stepper.position + begun.clock.display.final m =
      begun.clock.display.final m := Nat.zero_add _
  obtain ⟨lines, d, told, plays, trace⟩ :=
    plays_reveal (c := begun) waits.awake waits.on rfl waits.set writable small first
  exact ⟨lines, .turn waits.awake ((turn_of_stepped waits.on ticked).trans told) plays, trace⟩

end Terminal
end StageMachine.Console
