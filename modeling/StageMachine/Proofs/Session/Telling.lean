import StageMachine.Proofs.Session.Turn

/-! What listeners are told on the way to the end of a program. Whoever makes the steps, the stages that
were told lead to one session, up to what the machine and its listeners do not see. -/
namespace StageMachine.Session
variable {s t u : Session} {m h : Snapshot} {e last : Engine} {shown later moments : List Snapshot}

structure Alike (s t : Session) : Prop where
  engine : t.engine = s.engine
  history : t.history = s.history
  last : t.last = s.last
  listeners : t.listeners = s.listeners
  deliveries : t.deliveries = s.deliveries

namespace Alike

theorem refl (s : Session) : Alike s s := ⟨rfl, rfl, rfl, rfl, rfl⟩

theorem symm (alike : Alike s t) : Alike t s :=
  ⟨alike.engine.symm, alike.history.symm, alike.last.symm, alike.listeners.symm, alike.deliveries.symm⟩

theorem trans (alike : Alike s t) (more : Alike t u) : Alike s u :=
  ⟨more.engine.trans alike.engine, more.history.trans alike.history, more.last.trans alike.last,
    more.listeners.trans alike.listeners, more.deliveries.trans alike.deliveries⟩

end Alike

def committed (s : Session) (m : Snapshot) (e : Engine) : Session :=
  s.stepped e (s.history.push s.engine.moment) m

def reported (s : Session) (h : Snapshot) : Session := s.stepped s.engine s.history h

theorem Alike.committed (alike : Alike s t) (m : Snapshot) (e : Engine) :
    Alike (s.committed m e) (t.committed m e) := by
  obtain ⟨engine, history, -, listeners, deliveries⟩ := alike
  constructor <;> simp [Session.committed, stepped, engine, history, listeners, deliveries]

theorem Alike.reported (alike : Alike s t) (h : Snapshot) : Alike (s.reported h) (t.reported h) := by
  obtain ⟨engine, history, -, listeners, deliveries⟩ := alike
  constructor <;> simp [Session.reported, stepped, engine, history, listeners, deliveries]

/-- From `s`, stages were committed one after the other and told to everyone; their moments, newest
first. -/
inductive Told (s : Session) : List Snapshot → Session → Prop where
  | start {t : Session} (alike : Alike s t) : Told s [] t
  | next {shown : List Snapshot} {t u : Session} {m : Snapshot} {e : Engine} (told : Told s shown t)
      (commits : t.engine.Commits m e) (alike : Alike (t.committed m e) u) : Told s (m :: shown) u

/-- From `s`, a program was told to its end: its stages, and last the halted machine. -/
inductive Finished (s : Session) : List Snapshot → Session → Prop where
  | report {shown : List Snapshot} {t u : Session} {h : Snapshot} (told : Told s shown t)
      (halted : t.engine.isHalted = true)
      (seen : t.engine.snapshotAt t.engine.state.stage true = .ok h) (alike : Alike (t.reported h) u) :
      Finished s (h :: shown) u

def listening (listeners : List Listener) : List Snapshot → List Listener
  | [] => listeners
  | m :: earlier => stillListening (listening listeners earlier) m

/-- What the listeners are told of some moments, given newest first; the deliveries are latest first. -/
def notices (s : Session) : List Snapshot → List Delivery
  | [] => []
  | m :: earlier => ((listening s.listeners earlier).map fun l => ⟨l.name, m⟩).reverse ++ notices s earlier

theorem mem_of_listening {listeners : List Listener} {l : Listener} (member : l ∈ listening listeners shown) :
    l ∈ listeners := by
  induction shown with
  | nil => exact member
  | cons m earlier ih => exact ih (mem_of_stillListening member)

theorem length_notices (staying : ∀ l ∈ s.listeners, l.reaction ≠ .leave) (shown : List Snapshot) :
    (s.notices shown).length = shown.length * s.listeners.length := by
  have all (shown : List Snapshot) : listening s.listeners shown = s.listeners := by
    induction shown with
    | nil => rfl
    | cons m earlier ih => rw [listening, ih, stillListening_eq_self staying]
  induction shown with
  | nil => simp [notices]
  | cons m earlier ih =>
    rw [notices, List.length_append, ih, all, List.length_reverse, List.length_map, List.length_cons]
    ring

namespace Told

theorem alike (told : Told s shown t) (same : Alike t u) : Told s shown u := by
  cases told with
  | start alike => exact .start (alike.trans same)
  | next told commits alike => exact told.next commits (alike.trans same)

theorem trans (told : Told s shown t) (more : Told t later u) : Told s (later ++ shown) u := by
  induction more with
  | start alike => exact told.alike alike
  | next _ commits alike ih => exact ih.next commits alike

theorem path (told : Told s shown t) :
    ∃ trail, s.engine.Path trail t.engine ∧ trail.length = shown.length := by
  induction told with
  | start alike => exact ⟨[], by rw [alike.engine]; exact .start, rfl⟩
  | @next _ t _ _ _ _ commits alike ih =>
    obtain ⟨trail, path, length⟩ := ih
    refine ⟨t.engine.moment :: trail, ?_, by rw [List.length_cons, List.length_cons, length]⟩
    rw [alike.engine]
    exact path.next commits

theorem listeners (told : Told s shown t) : t.listeners = listening s.listeners shown := by
  induction told with
  | start alike => exact alike.listeners
  | @next _ _ _ m _ _ _ alike ih => exact alike.listeners.trans (congrArg (stillListening · m) ih)

theorem calm (told : Told s shown t) (calm : ∀ l ∈ s.listeners, l.Calm) : ∀ l ∈ t.listeners, l.Calm := by
  rw [told.listeners]
  exact fun l member => calm l (mem_of_listening member)

theorem deliveries (told : Told s shown t) : t.deliveries = s.notices shown ++ s.deliveries := by
  induction told with
  | start alike => exact alike.deliveries
  | next told _ alike ih =>
    rw [alike.deliveries]
    simp [committed, stepped, notices, told.listeners, ih]

theorem stepCount_getElem? (told : Told s shown t) {place : Nat} (found : shown[place]? = some m) :
    m.halted = false ∧ m.stepCount + place = t.engine.stepCount := by
  induction told generalizing place with
  | start => simp at found
  | next _ commits alike ih =>
    rw [alike.engine]
    cases place with
    | zero =>
      obtain rfl : _ = m := by simpa using found
      obtain ⟨-, -, halted, count⟩ := Engine.snapshotAt_running commits.shown
      exact ⟨halted, count⟩
    | succ place =>
      obtain ⟨halted, count⟩ := ih (by simpa using found)
      refine ⟨halted, ?_⟩
      show m.stepCount + (place + 1) = _
      rw [← Nat.add_assoc, count]
      exact commits.stepCount_eq.symm

theorem halted_of_mem (told : Told s shown t) (member : m ∈ shown) : m.halted = false := by
  obtain ⟨place, found⟩ := List.mem_iff_getElem?.1 member
  exact (told.stepCount_getElem? found).1

theorem unique {others : List Snapshot} (told : Told s shown t) (again : Told s others u)
    (same : shown.length = others.length) : shown = others ∧ Alike t u := by
  induction told generalizing others u with
  | start alike =>
    cases again with
    | start other => exact ⟨rfl, alike.symm.trans other⟩
    | next => simp at same
  | next _ commits alike ih =>
    cases again with
    | start => simp at same
    | next told' commits' alike' =>
      obtain ⟨rfl, before⟩ := ih told' (by simpa using same)
      rw [before.engine] at commits'
      obtain ⟨rfl, rfl⟩ := commits.unique commits'
      exact ⟨rfl, alike.symm.trans ((before.committed _ _).trans alike')⟩

end Told

/-- The moments of `steps` stages with consecutive step counts up to the last engine, newest first, and
one of the halted machine after them. -/
structure Complete (last : Engine) (steps : Nat) (h : Snapshot) (shown : List Snapshot) : Prop where
  halted : h.halted = true
  count : h.stepCount = last.stepCount
  length : shown.length = steps
  consecutive : ∀ place m, shown[place]? = some m → m.halted = false ∧ m.stepCount + place = last.stepCount

namespace Finished

theorem alike (done : Finished s moments t) (same : Alike t u) : Finished s moments u := by
  cases done with
  | report told halted seen alike => exact .report told halted seen (alike.trans same)

theorem trans (told : Told s shown t) (done : Finished t moments u) : Finished s (moments ++ shown) u := by
  cases done with
  | report more halted seen alike => exact .report (told.trans more) halted seen alike

theorem unique {others : List Snapshot} (done : Finished s moments t) (again : Finished s others u) :
    moments = others ∧ Alike t u := by
  cases done with
  | report told halted seen alike =>
    cases again with
    | report told' halted' seen' alike' =>
      obtain ⟨trail, path, length⟩ := told.path
      obtain ⟨trace, other, length'⟩ := told'.path
      have least := path.length_le_of_isHalted halted other
      have most := other.length_le_of_isHalted halted' path
      obtain ⟨rfl, before⟩ := told.unique told' (by omega)
      rw [before.engine] at seen'
      obtain rfl := Except.ok.inj (seen.symm.trans seen')
      exact ⟨rfl, alike.symm.trans ((before.reported _).trans alike')⟩

/-- What was told of a program, by the path to its end. -/
theorem complete {trail : List Moment} (done : Finished s moments t) (path : s.engine.Path trail last)
    (halted : last.isHalted = true) :
    ∃ h shown, moments = h :: shown ∧ Complete last trail.length h shown ∧ t.engine = last ∧
      t.deliveries = s.notices moments ++ s.deliveries := by
  cases done with
  | @report shown u _ h told ended seen alike =>
    obtain ⟨trace, other, length⟩ := told.path
    have least := path.length_le_of_isHalted halted other
    have most := other.length_le_of_isHalted ended path
    obtain ⟨rfl, rfl⟩ := path.unique other (by omega)
    have report : h.halted = true ∧ h.stepCount = u.engine.stepCount := by
      cases seen
      exact ⟨rfl, rfl⟩
    refine ⟨h, shown, rfl, ⟨report.1, report.2, length.symm, fun place m => told.stepCount_getElem?⟩,
      alike.engine, ?_⟩
    rw [alike.deliveries]
    simp [reported, stepped, notices, told.listeners, told.deliveries]

end Finished
end StageMachine.Session
