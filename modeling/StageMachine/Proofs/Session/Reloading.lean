import StageMachine.Proofs.Session.Completed
import StageMachine.Proofs.Session.Range

/-! Starting over. While no operation fails, the program in the machine is the one that the source stands for,
now and at every moment that can be gone back to. So a reset comes to the same as loading the source again,
and a load to the same as loading into a new session. -/
namespace StageMachine

namespace Engine

theorem create_bits (e : Engine) {c : Capacity} (same : ∀ w ∈ e.width, c.mask w.bits = w.roomy) :
    create c (e.bits.map Int.ofNat) = .ok { width := e.width } := by
  obtain ⟨width, _, _⟩ := e
  cases width with
  | none => rfl
  | some w =>
    have room : c.mask w.bits = w.roomy := same w rfl
    have positive := w.positive
    simp [create, bits, room, positive]

theorem load_congr {e f : Engine} (same : e.width = f.width) (program : List Instruction) :
    e.load program = f.load program := by
  cases e
  cases f
  cases same
  rfl

end Engine

namespace Session
variable {limit : Option Int} {origin s t u : Session} {source : Text}

inductive Worked (origin : Session) : Session → Prop where
  | start : Worked origin origin
  | next {s t : Session} (worked : Worked origin s) (operation : Operation)
      (done : operation.act s = .ok () t) : Worked origin t

theorem Worked.moves (worked : Worked origin s) : Moves origin s := by
  induction worked with
  | start => exact .refl
  | next _ operation done ih => exact ih.trans ((leads_act traced_moves operation).ended done)

/-- The program is the one that the source stands for, now and at every moment that can be gone back to. -/
def Sourced (s : Session) : Prop :=
  Throughout (fun e => (Assembly.assemble s.source).outcome = .ok e.state.program) s

theorem source_of_stepBack {m : Option Snapshot} (back : stepBack s = .ok m t) : t.source = s.source := by
  rw [← Act.after_of_ok back]
  cases popped : s.history.pop? with
  | none => rw [Act.after_of_ok (stepBack_none popped)]
  | some _ => rw [stepBack_eq popped]

theorem sourced_of_load (done : load source s = .ok () t) : Sourced t := by
  cases assembled : (Assembly.assemble source).outcome with
  | error fault =>
    rw [load_of_error assembled] at done
    cases done
  | ok program =>
    rw [load_of_ok assembled] at done
    cases done
    exact ⟨assembled, by simp [restart]⟩

theorem traced_sourced : Traced (fun s t => Sourced s → Sourced t) fun _ _ _ => True where
  refl _ := id
  still _ _ := trivial
  trans first rest := rest ∘ first
  stop _ _ := trivial
  quiet engine history _ source sourced := by
    unfold Sourced
    rw [source]
    exact Throughout.congr sourced engine history
  commit := Act.leads_of_ended fun committed sourced => by
    rcases commit_eq_ok committed with ⟨e, commits, rfl⟩ | ⟨-, -, rfl⟩
    · refine (Throughout.commit sourced commits ?_).congr rfl rfl
      rw [commits.program_eq]
      exact sourced.1
    · exact Throughout.congr sourced rfl rfl
  overrun := leads_overrun fun _ => trivial
  stepBack := Act.leads_of_ended fun back sourced => by
    unfold Sourced
    rw [source_of_stepBack back]
    exact Throughout.stepBack sourced back
  reset := Act.leads_of_ended fun done sourced => by
    cases done
    exact throughout_restart sourced.1
  load _ := Act.leads_of_ended fun done _ => sourced_of_load done

theorem source_of_applyInitial {initial : InitialState} (applied : applyInitial initial s = .ok () t) :
    t.source = s.source := by
  have noted (r : Remark) : Act.Through (fun s t : Session => t.source = s.source) (note r) :=
    Act.through_modify fun _ => rfl
  have put (change : State → State) :
      Act.Through (fun s t : Session => t.source = s.source) (modifyState change) :=
    Act.through_modify fun _ => rfl
  have through : Act.Through (fun s t : Session => t.source = s.source) (applyInitial initial) :=
    through_applyInitial noted (put _) (fun _ _ _ => put _) (put _)
  have kept := through.kept s
  rwa [Act.after_of_ok applied] at kept

theorem Started.sourced (started : Started limit s) : Sourced s := by
  have none_past (holds : Engine → Prop) (now : holds s.engine) : Throughout holds s :=
    ⟨now, by simp [started.toList_history]⟩
  refine none_past _ ?_
  cases started with
  | created engine session =>
    have fresh := state_of_create engine
    unfold create at session
    obtain ⟨_, -, rfl⟩ := map_eq_ok.1 session
    show _ = Except.ok _
    rw [fresh]
    rfl
  | built chosen session =>
    obtain ⟨e, new, t, -, -, done, rfl⟩ := build_eq_ok session
    obtain ⟨source, u, loaded, applied⟩ := prepare_eq_ok done
    have kept : t.source = u.source := source_of_applyInitial applied
    show (Assembly.assemble t.source).outcome = .ok t.engine.state.program
    rw [kept, (poked_of_applyInitial applied).program]
    exact (sourced_of_load loaded).1

theorem Worked.sourced (started : Started limit origin) (worked : Worked origin s) : Sourced s := by
  induction worked with
  | start => exact started.sourced
  | next _ operation done ih => exact (leads_act traced_sourced operation).ended done ih

theorem create_alike {e : Engine} {interval : Option Int} (made : create e interval limit = .ok s) (f : Engine)
    (other : Option Int) :
    ∃ new, create f other limit = .ok new ∧ new.engine = f ∧ new.history.limit = s.history.limit := by
  unfold create at made
  obtain ⟨history, room, rfl⟩ := map_eq_ok.1 made
  have again : create f other limit = .ok { engine := f, history, clockInterval := other } := by
    rw [create, room]
    rfl
  exact ⟨_, again, rfl, rfl⟩

theorem Started.create_alike (started : Started limit s) (e : Engine) (interval : Option Int) :
    ∃ new, create e interval limit = .ok new ∧ new.engine = e ∧ new.history.limit = s.history.limit := by
  cases started with
  | created engine session => exact Session.create_alike session e interval
  | built chosen session =>
    subst chosen
    obtain ⟨_, first, t, -, made, done, rfl⟩ := build_eq_ok session
    obtain ⟨new, again, engine, room⟩ := Session.create_alike made e interval
    have kept : t.history.limit = first.history.limit := by
      rw [(loaded_of_prepare done).history]
      rfl
    exact ⟨new, again, engine, room.trans kept.symm⟩

/-- The sessions are alike in the machine and its past, the latest moment and the mark of a run, and have the
same source. -/
structure Matches (s t : Session) : Prop where
  engine : t.engine = s.engine
  history : t.history = s.history
  last : t.last = s.last
  running : t.running = s.running
  source : t.source = s.source

structure Spares (s t : Session) : Prop where
  breakpoints : t.breakpoints = s.breakpoints
  listeners : t.listeners = s.listeners
  clockInterval : t.clockInterval = s.clockInterval

theorem reset_eq (s : Session) :
    reset s = .ok () { s.restart (s.engine.load s.engine.state.program) with running := false } := rfl

theorem load_matches (width : t.engine.width = s.engine.width) (room : t.history.limit = s.history.limit)
    (source : Text) :
    (∃ loaded other, load source s = .ok () loaded ∧ load source t = .ok () other ∧ Spares s loaded ∧
      Matches loaded other) ∨
    ∃ fault failed other, load source s = .error fault failed ∧ load source t = .error fault other ∧
      Spares s failed := by
  cases assembled : (Assembly.assemble source).outcome with
  | ok program =>
    refine .inl ⟨_, _, load_of_ok assembled, load_of_ok assembled, ⟨rfl, rfl, rfl⟩, ?_, ?_, rfl, rfl, rfl⟩
    · exact Engine.load_congr width program
    · show History.clear t.history = History.clear s.history
      simp only [History.clear, room]
  | error fault => exact .inr ⟨fault, _, _, load_of_error assembled, load_of_error assembled, rfl, rfl, rfl⟩

/-- A reset is a reload. While no operation on a session fails, its program is the one that its source stands
for; a reset leaves what loading the source again leaves; and a load leaves what it leaves in a new session of
the same width and limit, on a host with as much memory for the width. Breakpoints, listeners and the time between steps stay. -/
theorem reset_reloads (started : Started limit origin) (worked : Worked origin s) :
    (Assembly.assemble s.source).outcome = .ok s.engine.state.program ∧
    (∃ t u, reset s = .ok () t ∧ load s.source s = .ok () u ∧ Matches u t ∧ Spares s t ∧ Spares s u ∧
      t.engine.stepCount = 0 ∧ t.history.toList = [] ∧ t.last = none ∧ t.running = false) ∧
    ∀ (c : Capacity) interval, (∀ w ∈ s.engine.width, c.mask w.bits = w.roomy) →
      ∃ e new, Engine.create c (s.engine.bits.map Int.ofNat) = .ok e ∧ create e interval limit = .ok new ∧ ∀ source,
        (∃ t u, load source s = .ok () t ∧ load source new = .ok () u ∧ Spares s t ∧ Matches t u) ∨
        ∃ fault t u, load source s = .error fault t ∧ load source new = .error fault u ∧ Spares s t := by
  have assembled := (worked.sourced started).1
  refine ⟨assembled, ⟨_, _, reset_eq s, load_of_ok assembled, ⟨rfl, rfl, rfl, rfl, rfl⟩, ⟨rfl, rfl, rfl⟩,
    ⟨rfl, rfl, rfl⟩, rfl, rfl, rfl, rfl⟩, fun c interval same => ?_⟩
  obtain ⟨new, made, engine, room⟩ := started.create_alike { width := s.engine.width } interval
  have kept : s.history.limit = origin.history.limit :=
    (started.coherent.1.moves worked.moves).limit_eq
  refine ⟨_, new, s.engine.create_bits same, made, load_matches ?_ (room.trans kept.symm)⟩
  rw [engine]

theorem reset_reloads_mid_instruction :
    ∃ origin s t u : Session, Started (some 2) origin ∧ Worked origin s ∧ s.engine.bits = some 8 ∧
      s.engine.state.stage = .execute ∧ s.history.toList.length = 1 ∧ s.breakpoints ≠ [] ∧
      reset s = .ok () t ∧ load s.source s = .ok () u ∧ Matches u t ∧ t.breakpoints = s.breakpoints := by
  let e : Engine := { width := some ⟨8, by decide, true⟩ }
  let origin : Session := { engine := e, history := { limit := 2 } }
  have engine : Engine.create (.upTo 8) (some 8) = .ok e := rfl
  have session : create e (some 1000) (some 2) = .ok origin := rfl
  have started : Started (some 2) origin := .created engine session
  let loaded := (Operation.load "LDI R1, 5".toList).act.after origin
  let watched := (Operation.addBreakpoint { kind := .pcMatch, value := some 3 }).act.after loaded
  let onward := Operation.step.act.after
  let s := Operation.stepBack.act.after (onward (onward (onward watched)))
  have ready : Worked origin watched :=
    (Worked.start.next (.load "LDI R1, 5".toList) (Act.eq_ok_of_result? (by decide +kernel))).next
      (.addBreakpoint _) rfl
  have worked : Worked origin s :=
    (((ready.next .step (Act.eq_ok_of_result? (by decide +kernel))).next .step
      (Act.eq_ok_of_result? (by decide +kernel))).next .step (Act.eq_ok_of_result? (by decide +kernel))).next
      .stepBack (Act.eq_ok_of_result? (by decide +kernel))
  obtain ⟨-, ⟨t, u, cleared, again, alike, spares, -⟩, -⟩ := reset_reloads started worked
  exact ⟨origin, s, t, u, started, worked, by decide +kernel, by decide +kernel, by decide +kernel,
    by decide +kernel, cleared, again, alike, spares.breakpoints⟩

end Session
end StageMachine
