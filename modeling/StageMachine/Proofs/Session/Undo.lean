import StageMachine.Proofs.Session.Reachable
import StageMachine.Workbench.Execute

/-! Going back. Steps back return along the path that the history stores, and as many steps forward
restore the machine and the history that was left. -/
namespace StageMachine

theorem History.pop?_of_toList {h : History} {m : Moment} {older : List Moment}
    (shown : h.toList = m :: older) :
    ∃ rest, h.pop? = some (m, rest) ∧ rest.toList = older ∧ rest.limit = h.limit := by
  have some : h.pop? ≠ none := by
    have long : h.depth = older.length + 1 := by rw [← h.length_toList, shown, List.length_cons]
    have stored := h.depth_le_stored
    unfold pop?
    split
    · simp
    · next apart =>
      cases kept : h.stored with
      | nil =>
        rw [kept, List.length_nil] at stored
        omega
      | cons first others => exact absurd kept (apart _ _ _ long)
  obtain ⟨⟨n, rest⟩, popped⟩ := Option.ne_none_iff_exists'.1 some
  obtain ⟨whole, limit⟩ := History.pop?_eq_some popped
  rw [shown] at whole
  cases whole
  exact ⟨rest, popped, rfl, limit⟩

namespace Workbench
variable {σ α : Type} {act : Act σ α} {s t u : σ} {values : List α} {times : Nat}

theorem repeated_succ {first : α} {rest : List α} (one : act s = .ok first t)
    (others : repeated act times t = .ok rest u) : repeated act (times + 1) s = .ok (first :: rest) u := by
  simp [repeated, Act.bind_apply, Act.map_apply, one, others]

theorem repeated_succ_eq_ok (done : repeated act (times + 1) s = .ok values u) :
    ∃ first t rest, act s = .ok first t ∧ repeated act times t = .ok rest u ∧ values = first :: rest := by
  obtain ⟨first, t, one, more⟩ := Act.bind_eq_ok.1 done
  obtain ⟨rest, _, others, whole⟩ := Act.bind_eq_ok.1 more
  cases whole
  exact ⟨first, t, rest, one, others, rfl⟩

theorem repeated_append {first rest : List α} {more : Nat} (before : repeated act times s = .ok first t)
    (after : repeated act more t = .ok rest u) :
    repeated act (times + more) s = .ok (first ++ rest) u := by
  induction times generalizing s first with
  | zero =>
    cases before
    rwa [Nat.zero_add]
  | succ times ih =>
    obtain ⟨value, v, others, one, tail, rfl⟩ := repeated_succ_eq_ok before
    rw [Nat.add_right_comm]
    exact repeated_succ one (ih tail)

theorem repeated_take {count : Nat} (done : repeated act times s = .ok values u) (within : count ≤ times) :
    ∃ t, repeated act count s = .ok (values.take count) t := by
  induction count generalizing s times values with
  | zero => exact ⟨s, rfl⟩
  | succ count ih =>
    obtain ⟨times, rfl⟩ := Nat.exists_eq_add_of_le' within
    rw [← Nat.add_assoc] at done
    obtain ⟨first, t, rest, one, others, rfl⟩ := repeated_succ_eq_ok done
    obtain ⟨v, tail⟩ := ih others (Nat.le_add_left _ _)
    exact ⟨v, repeated_succ one tail⟩

end Workbench

namespace Session
variable {s : Session}

structure Back (s : Session) (steps : Nat) (t : Session) : Prop where
  listeners : t.listeners = s.listeners
  limit : t.history.limit = s.history.limit
  history : t.history.toList = s.history.toList.drop steps
  path : Engine.Path t.engine (s.history.toList.take steps) s.engine
  coherent : Coherent s.history.limit t

theorem Back.succ {t u : Session} {steps : Nat} (first : Back s 1 t) (rest : Back t steps u) :
    Back s (steps + 1) u := by
  refine ⟨rest.listeners.trans first.listeners, rest.limit.trans first.limit, ?_, ?_, ?_⟩
  · rw [rest.history, first.history, List.drop_drop, Nat.add_comm]
  · have path := rest.path.trans first.path
    rw [first.history] at path
    rw [Nat.add_comm, List.take_add]
    exact path
  · exact first.limit ▸ rest.coherent

theorem Threaded.exists_back {limit : Nat} (threaded : Threaded limit s) {before : Moment} {older : List Moment}
    (shown : s.history.toList = before :: older) :
    ∃ b history, stepBack s =
        .ok (some b) { s with engine := s.engine.atMoment before, history, last := none } ∧
      s.history.pop? = some (before, history) ∧ history.toList = older ∧ history.limit = s.history.limit ∧
      (s.engine.atMoment before).snapshotAt before.state.stage false = .ok b := by
  obtain ⟨history, popped, tail, kept⟩ := History.pop?_of_toList shown
  obtain ⟨-, -, n, after, -, -, commits, -⟩ := threaded.newest shown
  have moved := threaded.change (.move (.undo popped))
  obtain ⟨b, seen⟩ := moved.legible.snapshotAt_eq_ok before.state.stage false
  have present : (s.engine.atMoment before).snapshot = .ok b := by
    rw [Engine.snapshot, commits.running]
    exact seen
  exact ⟨b, history, stepBack_eq_ok popped present, popped, tail, kept, seen⟩

theorem Coherent.one_back {limit : Nat} (c : Coherent limit s) {m : Moment} {older : List Moment}
    (shown : s.history.toList = m :: older) :
    ∃ moment t, stepBack s = .ok (some moment) t ∧ Back s 1 t := by
  obtain ⟨moment, history, back, popped, tail, kept, -⟩ := c.threaded.exists_back shown
  obtain ⟨origin, path⟩ := c.path
  rw [shown] at path
  obtain ⟨-, _, commits⟩ := path.back
  refine ⟨moment, _, back, rfl, kept, by rw [shown]; exact tail, ?_, c.limit_eq ▸ c.move (.undo popped)⟩
  rw [shown]
  exact .next .start commits

theorem Coherent.steps_back {limit : Nat} (c : Coherent limit s) (steps : Nat)
    (within : steps ≤ s.history.toList.length) :
    ∃ gone t, Workbench.repeated stepBack steps s = .ok gone t ∧ Back s steps t := by
  induction steps generalizing s limit with
  | zero =>
    refine ⟨[], s, rfl, rfl, rfl, by simp, by simpa using .start, ?_⟩
    exact c.limit_eq ▸ c
  | succ steps ih =>
    cases shown : s.history.toList with
    | nil => simp [shown] at within
    | cons m older =>
      obtain ⟨moment, t, back, first⟩ := c.one_back shown
      have tail : t.history.toList = older := by rw [first.history, shown]; rfl
      have left : steps ≤ t.history.toList.length := by
        rw [tail]
        simpa [shown] using within
      obtain ⟨gone, u, more, rest⟩ := ih first.coherent left
      exact ⟨_, u, Workbench.repeated_succ back more, first.succ rest⟩

theorem repeated_step (quiet : ∀ l ∈ s.listeners, l.Quiet) {trail : List Moment} {last : Engine}
    {steps : Nat} (path : Engine.Path s.engine trail last) (length : trail.length = steps) :
    ∃ shown t, Workbench.repeated step steps s = .ok shown t ∧ t.engine = last ∧
      t.history.toList = (trail ++ s.history.toList).take s.history.limit := by
  induction steps generalizing s trail with
  | zero =>
    obtain rfl := List.eq_nil_of_length_eq_zero length
    cases path
    refine ⟨[], s, rfl, rfl, ?_⟩
    rw [List.nil_append, List.take_of_length_le]
    rw [History.length_toList]
    exact s.history.depth_le_limit
  | succ steps ih =>
    obtain ⟨rest, m, after, rfl, commits, more⟩ := path.first length
    have one := step_running quiet commits
    obtain ⟨shown, t, others, reached, stored⟩ := ih
      (s := s.stepped after (s.history.push s.engine.moment) m)
      (fun l member => quiet l (mem_of_stillListening member)) more (by simpa using length)
    refine ⟨_, t, Workbench.repeated_succ one others, reached, ?_⟩
    rw [stored]
    show (rest ++ (s.history.push s.engine.moment).toList).take s.history.limit = _
    rw [History.toList_push, List.append_assoc, List.singleton_append, List.take_append,
      List.take_append, List.take_take, Nat.min_eq_left (Nat.sub_le _ _)]

/-- The history of a session is bounded by its limit, and its moments lie on the way of the machine to where it
is. Unless steps nested too deep they are its latest states, each a step before the next. Steps back and as many
steps forward, among listeners that at most pause or stop listening, restore the machine and the history. -/
theorem stepBack_step {limit : Int} {origin s : Session} (started : Started (some limit) origin)
    (reached : Reaches origin s) :
    (s.history.toList.length : Int) ≤ limit ∧
    (∃ first trail, Engine.Path first trail s.engine ∧ s.history.toList.Sublist trail) ∧
    (Contained origin s →
      (∀ place m, s.history.toList[place]? = some m → m.stepCount + (place + 1) = s.engine.stepCount) ∧
      List.IsChain
        (fun later earlier => ∃ shown, (s.engine.atMoment earlier).Commits shown (s.engine.atMoment later))
        (s.engine.moment :: s.history.toList) ∧
      ((∀ l ∈ s.listeners, l.Quiet) → ∀ steps ≤ s.history.toList.length, ∃ gone t shown u,
        Workbench.repeated stepBack steps s = .ok gone t ∧ Workbench.repeated step steps t = .ok shown u ∧
          u.engine = s.engine ∧ u.history.toList = s.history.toList)) := by
  obtain ⟨begun, -, bound⟩ := started.coherent
  have threaded := begun.threaded.changes reached.changes
  have few : s.history.toList.length ≤ s.history.limit := by
    rw [History.length_toList]
    exact s.history.depth_le_limit
  refine ⟨?_, threaded.path, fun contained => ?_⟩
  · rw [← bound limit rfl, ← threaded.limit_eq]
    exact_mod_cast few
  · have c := begun.moves contained.moves
    obtain ⟨past, path⟩ := c.path
    refine ⟨fun place m found => path.stepCount_getElem? found, path.isChain rfl, fun quiet steps within => ?_⟩
    obtain ⟨gone, t, back, b⟩ := c.steps_back steps within
    have length : (s.history.toList.take steps).length = steps := by simpa using within
    obtain ⟨shown, u, forth, restored, stored⟩ :=
      repeated_step (b.listeners.symm ▸ quiet) b.path length
    refine ⟨gone, t, shown, u, back, forth, restored, ?_⟩
    rw [stored, b.history, b.limit, List.take_append_drop, List.take_of_length_le few]

theorem stepBack_step_twice :
    ∃ origin s : Session, Started (some 1) origin ∧ Contained origin s ∧ s.engine.stepCount = 2 ∧
      (s.history.toList.length : Int) ≤ 1 ∧ ∃ gone t shown u,
        Workbench.repeated stepBack 1 s = .ok gone t ∧ Workbench.repeated step 1 t = .ok shown u ∧
          u.engine = s.engine ∧ u.history.toList = s.history.toList := by
  let origin : Session := { history := { limit := 1 } }
  have engine : Engine.create (.upTo 0) none = .ok {} := rfl
  have session : create {} (some 1000) (some 1) = .ok origin := rfl
  have started : Started (some 1) origin := .created engine session
  let loaded := (Operation.load "NOP".toList).act.after origin
  let once := Operation.step.act.after loaded
  let s := Operation.step.act.after once
  have alone {t : Session} (silent : t.listeners = []) (operation : Operation) : Shallow operation t :=
    .inl (by simp [silent])
  have ready : Contained origin loaded := Contained.start.next _ (alone rfl _)
  have begun : Contained origin once := ready.next .step (alone (by decide +kernel) _)
  have contained : Contained origin s := begun.next .step (alone (by decide +kernel) _)
  have silent : s.listeners = [] := by decide +kernel
  have deep : 1 ≤ s.history.toList.length := by decide +kernel
  obtain ⟨few, -, onward⟩ := stepBack_step started contained.reaches
  obtain ⟨-, -, again⟩ := onward contained
  exact ⟨origin, s, started, contained, by decide +kernel, few, again (by simp [silent]) 1 deep⟩

end Session
end StageMachine
