import StageMachine.Proofs.Instruction.Refusal
import StageMachine.Proofs.Session.Reachable

/-! Loads that fail. A file that cannot be read leaves the session as it was. A source that is refused
leaves the machine, its past and the latest moment alone too, but has taken the place of the old one. -/
namespace StageMachine.Session
variable {s t : Session} {source : Text} {fault : Fault}

/-- All is as it was but the source, the remarks and the mark of a run, which is cleared. -/
structure Spared (s t : Session) : Prop where
  engine : t.engine = s.engine
  history : t.history = s.history
  last : t.last = s.last
  breakpoints : t.breakpoints = s.breakpoints
  listeners : t.listeners = s.listeners
  clockInterval : t.clockInterval = s.clockInterval
  deliveries : t.deliveries = s.deliveries
  running : t.running = false

theorem load_eq_error (failed : load source s = .error fault t) :
    (Assembly.assemble source).outcome = .error fault ∧ Spared s t ∧ t.source = source := by
  cases assembled : (Assembly.assemble source).outcome with
  | ok program =>
    rw [load_of_ok assembled] at failed
    cases failed
  | error other =>
    rw [load_of_error assembled] at failed
    cases failed
    exact ⟨rfl, ⟨rfl, rfl, rfl, rfl, rfl, rfl, rfl, rfl⟩, rfl⟩

theorem loadFile_eq_error {w : Workspace} {path : PathName} (failed : loadFile w path s = .error fault t) :
    w.readText path = .error fault ∧ t = s ∨
      ∃ source, w.readText path = .ok source ∧ load source s = .error fault t := by
  cases read : w.readText path with
  | ok source =>
    simp only [loadFile, Act.bind_apply, read, Act.ofExcept_ok] at failed
    exact .inr ⟨source, rfl, failed⟩
  | error other =>
    simp only [loadFile, Act.bind_apply, read, Act.ofExcept_error] at failed
    cases failed
    exact .inl ⟨rfl, rfl⟩

/-- A load that fails spares the session but for its source: where the text could be read, it is in place
although it was refused. -/
theorem failed_load_spares (s : Session) :
    (∀ source fault t, load source s = .error fault t →
      (Assembly.assemble source).outcome = .error fault ∧ Spared s t ∧ t.source = source) ∧
    (∀ w path fault t, loadFile w path s = .error fault t →
      w.readText path = .error fault ∧ t = s ∨
        ∃ source, w.readText path = .ok source ∧
          (Assembly.assemble source).outcome = .error fault ∧ Spared s t ∧ t.source = source) := by
  refine ⟨fun source fault t failed => load_eq_error failed, fun w path fault t failed => ?_⟩
  rcases loadFile_eq_error failed with unread | ⟨source, read, refused⟩
  · exact .inl unread
  · exact .inr ⟨source, read, load_eq_error refused⟩

theorem failed_load_spares_overlong :
    ∃ (s t : Session) (fault : Fault), s.running = true ∧ s.source = "NOP".toList ∧
      load (Assembly.numberLine Numeral.ceiling) s = .error fault t ∧ Spared s t ∧
      t.source = Assembly.numberLine Numeral.ceiling := by
  let s : Session := { history := { limit := 4 }, running := true, source := "NOP".toList }
  have long : ¬ Assembly.IsShort Numeral.ceiling := Assembly.not_isShort_of_le (Nat.le_refl _)
  have refused := load_of_error (s := s) (Assembly.assemble_of_long long)
  obtain ⟨-, spared, replaced⟩ := (failed_load_spares s).1 _ _ _ refused
  exact ⟨s, _, _, rfl, rfl, refused, spared, replaced⟩

theorem not_source_spared_by_failed_load :
    ¬ ∀ (limit : Option Int) (origin s t : Session) (source : Text) (fault : Fault),
      Started limit origin → Reaches origin s → load source s = .error fault t →
        t.source = s.source := by
  intro kept
  let origin : Session := { history := { limit := 4 } }
  have engine : Engine.create (.upTo 0) none = .ok {} := rfl
  have session : create {} (some 1000) (some 4) = .ok origin := rfl
  have long : ¬ Assembly.IsShort Numeral.ceiling := Assembly.not_isShort_of_le (Nat.le_refl _)
  have refused := load_of_error (s := origin) (Assembly.assemble_of_long long)
  have same := kept (some 4) origin origin _ _ _ (.created engine session) .start refused
  exact Assembly.numberLine_ne_nil _ same

end StageMachine.Session
