import StageMachine.Proofs.Control.Revealing

/-! Where a display stands. The stepper goes back to the first position whenever it makes a step itself. What
is done to the session behind it, by others and by the clock at the end of the program, leaves its position as
it was, which the latest stage may not have. -/
namespace StageMachine

namespace Session
variable {s t : Session}

def AtMostFour (s : Session) : Prop := ∀ m ∈ s.last, m.microSteps ≤ 4

theorem atMostFour_of_last_eq_none (latest : s.last = none) : s.AtMostFour := by
  simp [AtMostFour, latest]

theorem AtMostFour.move (few : s.AtMostFour) (move : Move s t) : t.AtMostFour := by
  cases move with
  | quiet _ _ last =>
    unfold AtMostFour
    rwa [last]
  | read | slip => exact few
  | commit commits =>
    have four := times_le_four commits true
    simp only [times, if_true] at four
    rintro m ⟨⟩
    exact four
  | rest _ shown =>
    cases shown
    rintro m ⟨⟩
    exact Nat.zero_le _
  | undo | load | reset => exact atMostFour_of_last_eq_none rfl

theorem AtMostFour.changes (few : s.AtMostFour) (changes : Changes s t) : t.AtMostFour := by
  induction changes with
  | refl => exact few
  | tail _ change ih =>
    cases change with
    | move move => exact ih.move move
    | overrun overrun =>
      cases overrun
      exact ih

theorem changes_step (s : Session) : Changes s (step.after s) := Act.after_discard step s ▸ changes_act .step s

theorem AtMostFour.steps (few : s.AtMostFour) (steps : Nat) : (step.after^[steps] s).AtMostFour := by
  induction steps with
  | zero => exact few
  | succ steps ih =>
    rw [Function.iterate_succ_apply']
    exact ih.changes (changes_step _)

end Session

namespace Display
variable {d e : Display}

/-- The position that is displayed is the first one, or one that the latest stage has. -/
def OnStage (d : Display) : Prop :=
  d.stepper.position = 0 ∨ ∃ m ∈ d.session.last, d.stepper.position < m.microSteps

structure Bounded (d : Display) : Prop where
  stages : d.session.AtMostFour
  position : d.stepper.position ≤ 3
  disabled : d.stepper.enabled = false → d.stepper.position = 0

theorem after_call (call : Call) (d : Display) :
    (call.act.after d).stepper.position = 0 ∨
      (call.act.after d).session = d.session ∧ (call.act.after d).stepper.enabled = true ∧
        ∃ m ∈ d.session.last, (call.act.after d).stepper.position < m.microSteps := by
  cases call with
  | advance =>
    rw [after_act_advance, after_advance]
    cases revealed : d.isRevealed with
    | true => exact .inl rfl
    | false =>
      simp only [isRevealed, Bool.or_eq_false_iff, Bool.not_eq_false', decide_eq_false_iff_not] at revealed
      obtain ⟨enabled, left⟩ := revealed
      cases latest : d.session.last with
      | none => simp [latest, lastPosition] at left
      | some m =>
        rw [latest, lastPosition] at left
        refine .inr ⟨rfl, enabled, m, rfl, ?_⟩
        show d.stepper.position + 1 < m.microSteps
        omega
  | setEnabled | rewind => exact .inl rfl

theorem onStage_after (call : Call) (d : Display) : (call.act.after d).OnStage := by
  rcases after_call call d with first | ⟨kept, -, m, latest, place⟩
  · exact .inl first
  · exact .inr ⟨m, kept ▸ latest, place⟩

theorem Bounded.after (bounded : d.Bounded) (call : Call) : (call.act.after d).Bounded := by
  have few : (call.act.after d).session.AtMostFour := by
    rw [session_after]
    exact bounded.stages.steps _
  rcases after_call call d with first | ⟨kept, enabled, m, latest, place⟩
  · exact ⟨few, by omega, fun _ => first⟩
  · have four := bounded.stages m latest
    exact ⟨few, by omega, fun off => by simp [enabled] at off⟩

end Display

namespace Clock
variable {origin c : Clock}

inductive Call where
  | stepper (call : Display.Call)
  | start (interval : Option Int)
  | pause
  | tick
  | session (operation : Session.Operation)

def Call.act : Call → Act Clock Unit
  | .stepper call => onDisplay call.act
  | .start interval => Clock.start interval
  | .pause => Clock.pause
  | .tick => discard tickIfRunning
  | .session operation => onDisplay (Display.onSession operation.act)

inductive Reaches (origin : Clock) : Clock → Prop where
  | start : Reaches origin origin
  | next {c : Clock} (reached : Reaches origin c) (call : Call) : Reaches origin (call.act.after c)

theorem Reaches.foldl {origin c : Clock} (reached : Reaches origin c) (calls : List Call) :
    Reaches origin (calls.foldl (fun c call => call.act.after c) c) := by
  induction calls generalizing c with
  | nil => exact reached
  | cons call rest ih => exact ih (reached.next call)

/-- What a call asks of the stepper. Operations of the session go past it, and so does the tick that reports the
end of the program. -/
def Call.asked? (c : Clock) : Call → Option Display.Call
  | .stepper call => some call
  | .tick =>
    if c.isRunning && !(c.display.session.engine.isHalted && c.display.isRevealed) then some .advance else none
  | .start _ | .pause | .session _ => none

/-- The call goes past a stepper that is not at the first position, and changes the machine or its latest
moment. -/
def Call.Disturbs (c : Clock) (call : Call) : Prop :=
  call.asked? c = none ∧ c.display.stepper.position ≠ 0 ∧
    ¬((call.act.after c).display.session.engine = c.display.session.engine ∧
      (call.act.after c).display.session.last = c.display.session.last)

/-- The clocks that calls lead to which do not disturb the stepper. -/
inductive Attended (origin : Clock) : Clock → Prop where
  | start : Attended origin origin
  | next {c : Clock} (attended : Attended origin c) (call : Call) (spared : ¬call.Disturbs c) :
      Attended origin (call.act.after c)

theorem display_start (asked : Option Int) (c : Clock) : ((start asked).after c).display = c.display := by
  rw [start, Act.after_get_bind]
  cases chosen : chosenInterval asked c.display.session.clockInterval with
  | error fault => rfl
  | ok interval =>
    simp only [Act.after, Act.bind_apply, Act.ofExcept_ok]
    by_cases low : interval < 0
    · rw [if_pos low]
      cases Numeral.decimal interval <;> rfl
    · rw [if_neg low]
      rfl

theorem after_tick (c : Clock) :
    tickIfRunning.after c =
      if c.isRunning then
        if c.display.session.engine.isHalted && c.display.isRevealed then
          { display := { c.display with session := Session.step.after c.display.session } }
        else { c with display := Display.advance.after c.display }
      else c := by
  unfold tickIfRunning
  cases on : c.isRunning with
  | false => simp [Act.after, Act.left, Act.bind_apply, on]
  | true =>
    simp only [Act.after_get_bind, on, if_true, Act.after_map]
    unfold tick
    rw [Act.after_get_bind]
    split
    · rw [pause, Act.after_modify_bind, Act.after_bind_pure, Act.after_discard, onDisplay, Act.after_on,
        Display.onSession, Act.after_on]
    · show (Emission.stepped <$> onDisplay Display.advance).after c = _
      rw [Act.after_map, onDisplay, Act.after_on, on]

section
variable {call : Call} {asked : Display.Call}

theorem display_of_asked (asks : call.asked? c = some asked) :
    (call.act.after c).display = asked.act.after c.display := by
  cases call with
  | stepper call =>
    cases asks
    rw [Call.act, onDisplay, Act.after_on]
  | tick =>
    rw [Call.asked?] at asks
    split at asks
    · next going =>
      cases asks
      simp only [Bool.and_eq_true, Bool.not_eq_true'] at going
      rw [Call.act, Act.after_discard, after_tick, if_pos going.1, if_neg (by simp [going.2]),
        Display.after_act_advance]
    · cases asks
  | start | pause | session => cases asks

theorem display_of_not_asked (past : call.asked? c = none) :
    (call.act.after c).display.stepper = c.display.stepper ∧
      Session.Changes c.display.session (call.act.after c).display.session := by
  cases call with
  | stepper => cases past
  | start interval =>
    rw [Call.act, display_start]
    exact ⟨rfl, .refl⟩
  | pause => exact ⟨rfl, .refl⟩
  | tick =>
    rw [Call.act, Act.after_discard, after_tick]
    split
    · next on =>
      split
      · exact ⟨rfl, Session.changes_step _⟩
      · next going => simp [Call.asked?, on, going] at past
    · exact ⟨rfl, .refl⟩
  | session operation =>
    rw [Call.act, onDisplay, Act.after_on, Display.onSession, Act.after_on]
    exact ⟨rfl, Session.changes_act operation _⟩

theorem onStage_of_asked (asks : call.asked? c ≠ none) :
    (call.act.after c).display.OnStage ∧
      ((call.act.after c).display.session ≠ c.display.session →
        (call.act.after c).display.stepper.position = 0) := by
  obtain ⟨asked, asks⟩ := Option.ne_none_iff_exists'.1 asks
  rw [display_of_asked asks]
  refine ⟨Display.onStage_after asked _, fun changed => ?_⟩
  rcases Display.after_call asked c.display with first | ⟨kept, -⟩
  · exact first
  · exact absurd kept changed

theorem onStage_of_spared (onStage : c.display.OnStage) (spared : ¬call.Disturbs c) :
    (call.act.after c).display.OnStage ∧
      ((call.act.after c).display.session.engine ≠ c.display.session.engine →
        (call.act.after c).display.stepper.position = 0) := by
  by_cases past : call.asked? c = none
  · obtain ⟨stepper, -⟩ := display_of_not_asked past
    by_cases first : c.display.stepper.position = 0
    · rw [Display.OnStage, stepper]
      exact ⟨.inl first, fun _ => first⟩
    · obtain ⟨engine, last⟩ : (call.act.after c).display.session.engine = c.display.session.engine ∧
          (call.act.after c).display.session.last = c.display.session.last := by
        by_contra apart
        exact spared ⟨past, first, apart⟩
      rw [Display.OnStage, stepper, last]
      exact ⟨onStage, fun changed => absurd engine changed⟩
  · obtain ⟨still, first⟩ := onStage_of_asked past
    exact ⟨still, fun changed => first fun same => changed (by rw [same])⟩

end

theorem Reaches.bounded (begun : origin.display.Bounded) (reached : Reaches origin c) : c.display.Bounded := by
  induction reached with
  | start => exact begun
  | @next c _ call ih =>
    cases asks : call.asked? c with
    | some asked =>
      rw [display_of_asked asks]
      exact ih.after asked
    | none =>
      obtain ⟨stepper, changes⟩ := display_of_not_asked asks
      exact ⟨ih.stages.changes changes, stepper ▸ ih.position, stepper ▸ ih.disabled⟩

theorem Attended.onStage (begun : origin.display.OnStage) (attended : Attended origin c) :
    c.display.OnStage := by
  induction attended with
  | start => exact begun
  | next _ call spared ih => exact (onStage_of_spared ih spared).1

/-- Where a display stands, however a clock, its stepper and the session below are called. No position is
beyond the fourth, and without micro-steps it is the first. The stepper is on the latest stage after every call
that goes to it, and at the first position if that call changed the session; a call past it leaves it as it was.
So while no call disturbs it, the position that is displayed exists, and it is the first after every stage that
is made. -/
theorem position_of_calls {limit : Option Int} {s : Session} (started : Session.Started limit s)
    (enabled : Bool) :
    let origin : Clock := { display := { session := s, stepper := { enabled } } }
    (∀ c, Reaches origin c →
      c.display.stepper.position ≤ 3 ∧
      (c.display.stepper.enabled = false → c.display.stepper.position = 0) ∧
      ∀ call : Call,
        (call.asked? c = none → (call.act.after c).display.stepper = c.display.stepper) ∧
        (call.asked? c ≠ none → (call.act.after c).display.OnStage ∧
          ((call.act.after c).display.session ≠ c.display.session →
            (call.act.after c).display.stepper.position = 0))) ∧
    ∀ c, Attended origin c → c.display.OnStage ∧ ∀ call : Call, ¬call.Disturbs c →
      (call.act.after c).display.session.engine ≠ c.display.session.engine →
        (call.act.after c).display.stepper.position = 0 := by
  intro origin
  have latest : s.last = none := (Session.Fresh.started started).ready.1
  have begun : origin.display.Bounded :=
    ⟨Session.atMostFour_of_last_eq_none latest, Nat.zero_le _, fun _ => rfl⟩
  refine ⟨fun c reached => ?_, fun c attended => ?_⟩
  · obtain ⟨-, position, disabled⟩ := reached.bounded begun
    exact ⟨position, disabled, fun call => ⟨fun past => (display_of_not_asked past).1, onStage_of_asked⟩⟩
  · have onStage := attended.onStage (.inl rfl)
    exact ⟨onStage, fun call spared => (onStage_of_spared onStage spared).2⟩

theorem position_of_calls_after_rewind :
    ∃ (s : Session) (c d : Clock), Session.Started (some 8) s ∧
      Attended { display := { session := s, stepper := { enabled := true } } } c ∧
      (Call.session .step).asked? c = none ∧ (Call.session .step).act.after c = d ∧ c.display.OnStage ∧
      d.display.session.engine ≠ c.display.session.engine ∧ d.display.stepper.position = 0 := by
  let s : Session := { history := { limit := 8 } }
  have engine : Engine.create (.upTo 0) none = .ok {} := rfl
  have session : Session.create {} (some 1000) (some 8) = .ok s := rfl
  have started : Session.Started (some 8) s := .created engine session
  let origin : Clock := { display := { session := s, stepper := { enabled := true } } }
  let loaded := (Call.session (.load "NOP".toList)).act.after origin
  let shown := (Call.stepper .advance).act.after ((Call.stepper .advance).act.after loaded)
  let c := (Call.stepper .rewind).act.after shown
  have attended : Attended origin c :=
    (((Attended.start.next (.session (.load "NOP".toList)) fun disturbs => disturbs.2.1 rfl).next
      (.stepper .advance) fun disturbs => nomatch disturbs.1).next
      (.stepper .advance) fun disturbs => nomatch disturbs.1).next
      (.stepper .rewind) fun disturbs => nomatch disturbs.1
  obtain ⟨onStage, first⟩ := (position_of_calls started true).2 c attended
  have moved : ((Call.session .step).act.after c).display.session.engine ≠ c.display.session.engine := by
    decide +kernel
  have spared : ¬(Call.session .step).Disturbs c := fun disturbs => disturbs.2.1 (by decide +kernel)
  exact ⟨s, c, _, started, attended, rfl, rfl, onStage, moved, first _ spared moved⟩

/-- The tick that reports the end leaves the position of the last stage, and a step of the session leaves that
of the stage before. -/
theorem not_on_every_stage :
    (¬∀ (limit : Option Int) (s : Session) (enabled : Bool) (c : Clock), Session.Started limit s →
      Reaches { display := { session := s, stepper := { enabled } } } c → c.display.OnStage) ∧
    ¬∀ (limit : Option Int) (s : Session) (enabled : Bool) (c : Clock) (call : Call), Session.Started limit s →
      Reaches { display := { session := s, stepper := { enabled } } } c →
        (call.act.after c).display.session.engine.stepCount = c.display.session.engine.stepCount + 1 →
          (call.act.after c).display.stepper.position = 0 := by
  let s : Session := { history := { limit := 8 } }
  have engine : Engine.create (.upTo 0) none = .ok {} := rfl
  have session : Session.create {} (some 1000) (some 8) = .ok s := rfl
  have started : Session.Started (some 8) s := .created engine session
  let origin : Clock := { display := { session := s, stepper := { enabled := true } } }
  let loaded := (Call.session (.load "NOP".toList)).act.after origin
  have begun : Reaches origin loaded := Reaches.start.next (.session (.load "NOP".toList))
  constructor
  · intro every
    -- Thirteen ticks show the four stages, and the next one reports the end.
    let calls := .start (some 0) :: List.replicate 14 Call.tick
    let c := calls.foldl (fun c call => call.act.after c) loaded
    have reached : Reaches origin c := begun.foldl calls
    have position : c.display.stepper.position = 2 := by decide +kernel
    have ended : c.display.session.last.any (fun m => m.microSteps == 0) = true := by decide +kernel
    rcases every (some 8) s true c started reached with first | ⟨m, latest, place⟩
    · omega
    · rw [show c.display.session.last = some m from latest, Option.any_some, beq_iff_eq] at ended
      omega
  · intro every
    -- The second position of the first stage is shown when the session is stepped.
    let c := (List.replicate 2 (Call.stepper .advance)).foldl (fun c call => call.act.after c) loaded
    have reached : Reaches origin c := begun.foldl _
    have first := every (some 8) s true c (.session .step) started reached (by decide +kernel)
    have position : ((Call.session .step).act.after c).display.stepper.position = 1 := by decide +kernel
    omega

end Clock
end StageMachine
