import StageMachine.Proofs.Control.Clock
import StageMachine.Proofs.Session.Undo

/-! Micro-steps against plain steps. A display that is advanced shows every stage in its positions, one after
the other, and the session below goes through plain steps: one for every advance that is made while the
latest stage is revealed, however the stepper is switched and rewound meanwhile. -/
namespace StageMachine

/-- What a display in micro-steps shows of a step: the stage in all its positions, or the end once. -/
def Snapshot.positions (m : Snapshot) : List (Snapshot × Nat) :=
  if m.halted then [(m, 0)] else (List.range m.microSteps).map fun position => (m, position)

theorem Snapshot.positions_eq_cons {m : Snapshot} (ended : m.halted = true → m.microSteps = 0)
    (going : m.halted = false → 0 < m.microSteps) :
    m.positions = (m, 0) :: (List.range' 1 (m.microSteps - 1)).map fun position => (m, position) := by
  unfold positions
  cases halted : m.halted with
  | true => simp [ended halted]
  | false =>
    obtain ⟨more, some⟩ := Nat.exists_eq_add_of_lt (going halted)
    simp [some, List.range_eq_range', List.range'_succ]

namespace Session
variable {s t : Session} {m : Snapshot}

theorem microSteps_of_commit (committed : commit s = .ok m t) :
    (m.halted = true → m.microSteps = 0) ∧ (m.halted = false → 0 < m.microSteps) ∧ t.last = some m := by
  rcases commit_eq_ok committed with ⟨e, commits, rfl⟩ | ⟨-, shown, rfl⟩
  · obtain ⟨_, rfl⟩ := Engine.snapshotAt_eq_ok commits.shown
    exact ⟨nofun, fun _ => Stage.microSteps_pos _, rfl⟩
  · cases shown
    exact ⟨fun _ => rfl, nofun, rfl⟩

theorem last_of_step (passive : ∀ l ∈ s.listeners, l.Passive) (made : step s = .ok m t) :
    t.last = some m ∧ m.positions =
        (m, 0) :: ((List.range' 1 (m.microSteps - 1)).map fun position => (m, position)) ∧
      ∀ l ∈ t.listeners, l.Passive := by
  obtain ⟨u, committed, heeded⟩ := commit_of_step passive made
  obtain ⟨ended, going, latest⟩ := microSteps_of_commit committed
  refine ⟨heeded.last.trans latest, Snapshot.positions_eq_cons ended going, fun l member => passive l ?_⟩
  rw [← listeners_of_commit committed]
  exact heeded.listeners l member

end Session

namespace Display
variable {d e : Display} {m : Snapshot} {t : Session} {fault : Fault} {shown : List (Snapshot × Nat)}
  {moments : List Snapshot}

inductive Call where
  | advance
  | setEnabled (enabled : Bool)
  | rewind

def Call.act : Call → Act Display Unit
  | .advance => discard Display.advance
  | .setEnabled enabled => Display.setEnabled enabled
  | .rewind => setPosition 0

def called : List Call → Display → Display
  | [], d => d
  | call :: rest, d => called rest (call.act.after d)

/-- How many steps a call is to make: one where it advances a display whose latest stage is revealed. -/
def Call.steps (d : Display) : Call → Nat
  | .advance => if d.isRevealed then 1 else 0
  | .setEnabled _ | .rewind => 0

def stepsAmong : List Call → Display → Nat
  | [], _ => 0
  | call :: rest, d => call.steps d + stepsAmong rest (call.act.after d)

def view : Act Display (Snapshot × Nat) := do
  let m ← advance
  return (m, (← get).stepper.position)

theorem forward_of_error (failed : Session.step d.session = .error fault t) :
    forward d = .error fault { session := t, stepper := { d.stepper with position := 0 } } := by
  simp [forward, Act.bind_apply, setPosition, onSession, Act.on, failed]

theorem after_advance (d : Display) :
    advance.after d =
      if d.isRevealed then
        { session := Session.step.after d.session, stepper := { d.stepper with position := 0 } }
      else { d with stepper := { d.stepper with position := d.stepper.position + 1 } } := by
  cases revealed : d.isRevealed with
  | true =>
    rw [if_pos rfl]
    cases made : Session.step d.session with
    | ok m t =>
      rw [Act.after_of_ok ((advance_of_revealed revealed).trans (forward_of_ok made)), Act.after_of_ok made]
    | error fault t =>
      rw [Act.after_of_error ((advance_of_revealed revealed).trans (forward_of_error made)),
        Act.after_of_error made]
  | false =>
    rw [if_neg (by simp)]
    cases latest : d.session.last with
    | none => simp [isRevealed, latest, lastPosition] at revealed
    | some m => rw [Act.after_of_ok (advance_of_hidden latest revealed)]

theorem after_act_advance (d : Display) : Call.advance.act.after d = advance.after d :=
  Act.after_discard advance d

theorem session_after (call : Call) (d : Display) :
    (call.act.after d).session = Session.step.after^[call.steps d] d.session := by
  cases call with
  | advance =>
    rw [after_act_advance, after_advance, Call.steps]
    cases d.isRevealed <;> rfl
  | setEnabled | rewind => rfl

theorem session_called (calls : List Call) (d : Display) :
    (called calls d).session = Session.step.after^[stepsAmong calls d] d.session := by
  induction calls generalizing d with
  | nil => rfl
  | cons call rest ih =>
    rw [called, ih, session_after, stepsAmong, ← Function.iterate_add_apply, Nat.add_comm]

theorem view_of_ok (advanced : advance d = .ok m e) : view d = .ok (m, e.stepper.position) e := by
  simp [view, Act.bind_apply, Act.map_apply, advanced]

theorem view_eq_ok {place : Nat} (viewed : view d = .ok (m, place) e) :
    place = 0 ∧ Session.step d.session = .ok m e.session ∨ place ≠ 0 ∧ e.session = d.session := by
  obtain ⟨n, f, advanced, rest⟩ := Act.bind_eq_ok.1 viewed
  cases rest
  cases revealed : d.isRevealed with
  | true =>
    rw [advance_of_revealed revealed] at advanced
    cases made : Session.step d.session with
    | ok n t =>
      rw [forward_of_ok made] at advanced
      cases advanced
      exact .inl ⟨rfl, rfl⟩
    | error fault t =>
      rw [forward_of_error made] at advanced
      cases advanced
  | false =>
    have kept := after_advance d
    rw [Act.after_of_ok advanced, if_neg (by simp [revealed])] at kept
    rw [kept]
    exact .inr ⟨Nat.succ_ne_zero _, rfl⟩

theorem steps_of_views {count : Nat} (viewed : Workbench.repeated view count d = .ok shown e) :
    ∃ moments, Workbench.repeated Session.step (shown.countP (·.2 == 0)) d.session =
      .ok moments e.session := by
  induction count generalizing d shown with
  | zero =>
    cases viewed
    exact ⟨[], rfl⟩
  | succ count ih =>
    obtain ⟨⟨m, place⟩, f, rest, one, others, rfl⟩ := Workbench.repeated_succ_eq_ok viewed
    obtain ⟨moments, plain⟩ := ih others
    rcases view_eq_ok one with ⟨rfl, made⟩ | ⟨later, kept⟩
    · rw [List.countP_cons_of_pos (by simp)]
      exact ⟨m :: moments, Workbench.repeated_succ made plain⟩
    · rw [List.countP_cons_of_neg (by simpa using later), ← kept]
      exact ⟨moments, plain⟩

theorem views_hidden (enabled : d.stepper.enabled = true) (latest : d.session.last = some m) {left : Nat}
    (hidden : d.stepper.position + left = m.microSteps - 1) :
    Workbench.repeated view left d =
      .ok ((List.range' (d.stepper.position + 1) left).map fun position => (m, position))
        { d with stepper := { d.stepper with position := m.microSteps - 1 } } := by
  induction left generalizing d with
  | zero =>
    rw [← hidden]
    rfl
  | succ left ih =>
    have covered : d.isRevealed = false := by
      rw [← Bool.not_eq_true, isRevealed_iff latest]
      simp only [final, times, enabled, if_true]
      omega
    have one := view_of_ok (advance_of_hidden latest covered)
    rw [List.range'_succ]
    refine Workbench.repeated_succ one (ih enabled latest ?_)
    show d.stepper.position + 1 + left = m.microSteps - 1
    omega

/-- A display in micro-steps that has shown all that was done to a session. -/
structure ShownUpTo (d : Display) (s : Session) : Prop where
  session : d.session = s
  enabled : d.stepper.enabled = true
  revealed : d.isRevealed = true

section
variable {s : Session} (passive : ∀ l ∈ s.listeners, l.Passive) (upTo : d.ShownUpTo s)

include passive upTo

theorem views_of_step (made : Session.step s = .ok m t) :
    ∃ e, Workbench.repeated view m.positions.length d = .ok m.positions e ∧ e.ShownUpTo t ∧
      0 < m.positions.length ∧ ∀ l ∈ t.listeners, l.Passive := by
  obtain ⟨rfl, enabled, revealed⟩ := upTo
  obtain ⟨latest, places, others⟩ := Session.last_of_step passive made
  let f : Display := { session := t, stepper := { d.stepper with position := 0 } }
  have one : view d = .ok (m, 0) f := view_of_ok ((advance_of_revealed revealed).trans (forward_of_ok made))
  have rest := views_hidden (d := f) enabled latest (Nat.zero_add _)
  let g : Display := { session := t, stepper := { d.stepper with position := m.microSteps - 1 } }
  have last : g.final m = g.stepper.position := by simp only [final, times, g, enabled, if_true]
  refine ⟨g, ?_, ⟨rfl, enabled, (isRevealed_iff latest).2 last.le⟩, by simp [places], others⟩
  rw [places, List.length_cons, List.length_map, List.length_range']
  exact Workbench.repeated_succ one rest

theorem views_of_steps {steps : Nat} (plain : Workbench.repeated Session.step steps s = .ok moments t) :
    steps ≤ (moments.flatMap (·.positions)).length ∧
      ∃ e, Workbench.repeated view (moments.flatMap (·.positions)).length d =
        .ok (moments.flatMap (·.positions)) e ∧ e.ShownUpTo t := by
  induction steps generalizing d s moments with
  | zero =>
    cases plain
    exact ⟨Nat.le_refl _, d, rfl, upTo⟩
  | succ steps ih =>
    obtain ⟨m, u, rest, one, others, rfl⟩ := Workbench.repeated_succ_eq_ok plain
    -- The positions of the first step, and after them those of the others.
    obtain ⟨f, seen, upTo, some, passive⟩ := views_of_step passive upTo one
    obtain ⟨many, e, more, upTo⟩ := ih passive upTo others
    rw [List.flatMap_cons, List.length_append]
    exact ⟨by omega, e, Workbench.repeated_append seen more, upTo⟩

end

/-- Micro-steps are a stuttering view of plain steps. However the stepper of a fresh session is called, the
session is that after one step for every advance of a revealed stage. Where it is only advanced, among
passive listeners, the moments of the plain steps are seen one after the other, each in all its positions,
and the session is always that after as many plain steps as first positions were seen. Where a plain step
fails, the advance that is to make it fails alike. -/
theorem advance_stutters {s : Session} (fresh : s.Fresh) :
    (∀ (stepper : MicroStepper) (calls : List Call),
      (called calls { session := s, stepper }).session =
        Session.step.after^[stepsAmong calls { session := s, stepper }] s) ∧
    ((∀ l ∈ s.listeners, l.Passive) → ∀ (position steps : Nat) (moments : List Snapshot) (t : Session),
      Workbench.repeated Session.step steps s = .ok moments t →
      let d : Display := { session := s, stepper := { enabled := true, position } }
      let entries := moments.flatMap (·.positions)
      steps ≤ entries.length ∧
      (∀ count ≤ entries.length, ∃ e plain,
        Workbench.repeated view count d = .ok (entries.take count) e ∧
        Workbench.repeated Session.step ((entries.take count).countP (·.2 == 0)) s =
          .ok plain e.session) ∧
      ∀ fault u, Session.step t = .error fault u → ∃ e,
        Workbench.repeated view entries.length d = .ok entries e ∧
        view e = .error fault { session := u, stepper := { enabled := true } }) := by
  refine ⟨fun stepper calls => session_called calls _, fun passive position steps moments t plain => ?_⟩
  intro d entries
  have upTo : d.ShownUpTo s := ⟨rfl, rfl, by simp [d, isRevealed, fresh.ready.1, lastPosition]⟩
  obtain ⟨many, e, viewed, rfl, enabled, revealed⟩ := views_of_steps passive upTo plain
  refine ⟨many, fun count within => ?_, fun fault u failed => ⟨e, viewed, ?_⟩⟩
  · obtain ⟨f, seen⟩ := Workbench.repeated_take viewed within
    obtain ⟨plain, same⟩ := steps_of_views seen
    exact ⟨f, plain, seen, same⟩
  · have stopped := (advance_of_revealed revealed).trans (forward_of_error failed)
    simp [view, Act.bind_apply, stopped, enabled]

theorem advance_stutters_to_the_end :
    ∃ (s t : Session) (moments plain : List Snapshot) (e : Display), s.Fresh ∧ s.listeners ≠ [] ∧
      Workbench.repeated Session.step 5 s = .ok moments t ∧ t.engine.isHalted = true ∧
      Workbench.repeated view 14 { session := s, stepper := { enabled := true } } =
        .ok (moments.flatMap (·.positions)) e ∧
      Workbench.repeated Session.step 5 s = .ok plain e.session ∧
      (called (.setEnabled false :: List.replicate 3 .advance)
        { session := s, stepper := { enabled := true } }).session = Session.step.after^[3] s := by
  let program := [Assembly.instruction "NOP".toList "NOP".toList 1 0 (some .nop) {}]
  have made : (Assembly.assemble "NOP".toList).outcome = .ok program := by rfl
  let heard : Listener := { name := "told".toList, reaction := .pause }
  let origin : Session := { history := { limit := 4 }, listeners := [heard] }
  have loaded := Session.load_of_ok (s := origin) made
  let s : Session := { origin.restart (origin.engine.load program) with
    source := "NOP".toList, journal := [.loaded 1] }
  have fresh : s.Fresh := .loaded loaded
  have passive : ∀ l ∈ s.listeners, l.Passive := by
    simp [s, origin, heard, Session.restart, Listener.Passive]
  have ran : ((Workbench.repeated Session.step 5).result? s).any (fun done =>
      done.2.engine.isHalted && (done.1.flatMap (·.positions)).length == 14 &&
        (done.1.flatMap (·.positions)).countP (·.2 == 0) == 5) = true := by
    decide +kernel
  obtain ⟨⟨moments, t⟩, stepped, ran⟩ := (Option.any_eq_true _ _).1 ran
  have stepped := Act.result?_eq_some.1 stepped
  simp only [Bool.and_eq_true, beq_iff_eq] at ran
  obtain ⟨⟨halted, fourteen⟩, five⟩ := ran
  obtain ⟨switched, seen⟩ := advance_stutters fresh
  obtain ⟨-, each, -⟩ := seen passive 0 5 moments t stepped
  obtain ⟨e, plain, viewed, same⟩ := each 14 fourteen.ge
  rw [List.take_of_length_le fourteen.le] at viewed same
  rw [five] at same
  let calls : List Call := .setEnabled false :: List.replicate 3 .advance
  have three : stepsAmong calls { session := s, stepper := { enabled := true } } = 3 := by decide +kernel
  have kept := switched { enabled := true } calls
  rw [three] at kept
  have someone : s.listeners ≠ [] := by simp [s, origin, Session.restart]
  exact ⟨s, t, moments, plain, e, fresh, someone, stepped, halted, viewed, same, kept⟩

end Display
end StageMachine
