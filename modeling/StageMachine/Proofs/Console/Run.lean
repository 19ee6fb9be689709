import StageMachine.Proofs.Console.Ending

/-! Command lines run. The settings, the program and the limit alone decide how many stages a console makes
and with which verdict and state it ends; how it shows them on the way decides nothing. -/
namespace StageMachine

theorem Session.loaded_of_build {h : Host} {settings : Settings} {s : Session}
    (built : (build h settings).outcome = .ok s) :
    s.last = none ∧ s.listeners = [] ∧ s.engine.stepCount = 0 ∧
      ∃ source, (Assembly.assemble source).outcome = .ok s.engine.state.program := by
  obtain ⟨e, new, t, -, made, done, rfl⟩ := build_eq_ok built
  obtain ⟨-, -, -, silent, -⟩ := create_eq_ok made
  have loaded := loaded_of_prepare done
  exact ⟨loaded.last, loaded.listeners.trans silent, loaded.stepCount, loaded.assembled⟩

namespace Console

def namedSettings (h : Host) (a : Arguments) : Report Settings :=
  match settingsFile? a with
  | some path => Settings.ofFile h path.raw
  | none => pure {}

def withSource (a : Arguments) (named : Settings) : Settings :=
  match a.source.filter (!·.isEmpty) with
  | some path => { named with program := .text path.raw }
  | none => named

theorem settings_eq_ok {h : Host} {a : Arguments} {chosen : Settings} {interval : Option Int}
    (read : (settings h a).outcome = .ok (chosen, interval)) :
    ∃ named, (namedSettings h a).outcome = .ok named ∧ chosen = withSource a named := by
  have rest {named : Settings} {wait : Option Int}
      (done : (match a.source.filter (!·.isEmpty) with
        | some path => pure ({ named with program := .text path.raw }, wait)
        | none => pure (named, wait) : Report (Settings × Option Int)).outcome = .ok (chosen, interval)) :
      chosen = withSource a named := by
    unfold withSource
    split at done <;> cases done <;> rfl
  unfold settings at read
  unfold namedSettings
  cases given : settingsFile? a with
  | some path =>
    rw [given] at read
    obtain ⟨named, found, read⟩ := Report.outcome_bind_eq_ok.1 read
    obtain ⟨_, same, read⟩ := Report.outcome_bind_eq_ok.1 read
    cases same
    exact ⟨named, found, rest read⟩
  | none =>
    rw [given] at read
    obtain ⟨_, same, read⟩ := Report.outcome_bind_eq_ok.1 read
    cases same
    exact ⟨{}, rfl, rest read⟩

theorem settings_congr {h : Host} {a b : Arguments} {chosen others : Settings}
    {interval wait : Option Int} (source : b.source = a.source) (config : b.config = a.config)
    (first : (settings h a).outcome = .ok (chosen, interval))
    (second : (settings h b).outcome = .ok (others, wait)) : others = chosen := by
  obtain ⟨named, found, rfl⟩ := settings_eq_ok first
  obtain ⟨again, same, rfl⟩ := settings_eq_ok second
  have alike : namedSettings h b = namedSettings h a := by
    unfold namedSettings settingsFile?
    rw [config]
  rw [alike, found] at same
  cases same
  unfold withSource
  rw [source]

theorem forIn_showLine (lines : List Text) (c : Terminal) :
    (forIn lines PUnit.unit fun line _ => do
      showLine line
      pure (ForInStep.yield PUnit.unit) : Act Terminal PUnit) c = .ok ⟨⟩ (c.showing lines.reverse) := by
  induction lines generalizing c with
  | nil => rfl
  | cons line lines ih =>
    have onward := ih (c.showing [line])
    rw [List.forIn_cons]
    simp only [Act.bind_apply, showLine, Act.modify_apply, Act.pure_apply] at onward ⊢
    refine onward.trans ?_
    simp [Terminal.showing]

def Terminal.begun (c : Terminal) : Terminal := c.withClock { c.clock with isRunning := true }

section
variable {outlives : Bool} {c d : Terminal} {interval : Int} (wait : 0 ≤ interval)

include wait in
theorem start_apply : onClock (Clock.start (some interval)) c = .ok () c.begun :=
  Act.on_of_ok (Clock.start_eq rfl wait)

include wait in
theorem play_of_ok {lines : List Text} (closed : turns outlives c.begun = some (.ok () d))
    (shown : stateLines d.engine.state = .ok lines) :
    play outlives (some interval) c = .ok () (d.showing lines.reverse) := by
  have shown : stateLines d.clock.display.session.engine.state = .ok lines := shown
  simp only [play, Act.bind_apply, chosenInterval, Act.ofExcept_ok, start_apply wait, loop, closed,
    Act.get_apply, shown]
  rw [forIn_showLine]
  rfl

include wait in
theorem play_of_error {fault : Fault} (failed : turns outlives c.begun = some (.error fault d)) :
    play outlives (some interval) c = .error fault d := by
  simp only [play, Act.bind_apply, chosenInterval, Act.ofExcept_ok, start_apply wait, loop, failed]

include wait in
theorem play_of_none (endless : turns outlives c.begun = none) :
    play outlives (some interval) c = .error .unfinished c.begun := by
  simp only [play, Act.bind_apply, chosenInterval, Act.ofExcept_ok, start_apply wait, loop, endless]

end

/-- A command line that is run: its words, its settings and its program are read, and there are a limit
and an interval to run with. -/
structure Launch (h : Host) (line : List Text) where
  arguments : Arguments
  rank : Nat
  limit : Int
  settings : Settings
  interval : Int
  session : Session
  parsed : Arguments.parse line = .ok arguments
  ranked : logRank arguments.logLevel = .ok rank
  limited : arguments.maxSteps = some limit
  chosen : (Console.settings h arguments).outcome = .ok (settings, some interval)
  wait : 0 ≤ interval
  built : (Session.build h settings).outcome = .ok session

namespace Launch
variable {h : Host} {line other : List Text} {l : Launch h line} {r : Launch h other}

def opening (l : Launch h line) : Terminal where
  clock := { display := {
    session := l.session
    stepper := { enabled := l.arguments.micro || l.settings.microStepping } } }
  quiet := l.arguments.quiet
  maxSteps := l.arguments.maxSteps

theorem waits (l : Launch h line) : l.opening.begun.Waits l.limit := by
  obtain ⟨latest, alone, -⟩ := Session.loaded_of_build l.built
  refine ⟨rfl, rfl, ?_, alone, fun m last => ?_, l.limited⟩
  swap
  · rw [show l.opening.begun.clock.display.session.last = none from latest] at last
    cases last
  show (_ || decide (lastPosition l.session.last ≤ 0)) = true
  simp [latest, lastPosition]

structure Alike (l : Launch h line) (r : Launch h other) : Prop where
  source : r.arguments.source = l.arguments.source
  config : r.arguments.config = l.arguments.config
  limit : r.limit = l.limit

theorem Alike.session (alike : l.Alike r) : r.session = l.session := by
  have same : r.settings = l.settings := settings_congr alike.source alike.config l.chosen r.chosen
  have built := r.built
  rw [same, l.built] at built
  exact (Except.ok.inj built).symm

theorem outcome_perform (l : Launch h line) :
    (perform h l.arguments).outcome =
      match play h.outlivesFaults (some l.interval) l.opening with
      | .ok _ c => .ok c.shown.reverse
      | .error fault _ => .error fault := by
  unfold perform
  rw [Report.bind_of_ok l.chosen]
  simp only
  rw [Report.bind_of_ok l.built]
  show (match play h.outlivesFaults (some l.interval) l.opening with
    | .ok _ c => Report.mk _ _
    | .error fault c => Report.mk _ _ : Report (List Text)).outcome = _
  cases play h.outlivesFaults (some l.interval) l.opening <;> rfl

theorem run_of_ok {c : Terminal} (played : play h.outlivesFaults (some l.interval) l.opening = .ok () c) :
    ∃ log, run h line = .finished c.shown.reverse log := by
  have done := l.outcome_perform
  rw [played] at done
  simp only [run, l.parsed, l.ranked, done]
  exact ⟨_, rfl⟩

theorem run_of_error {c : Terminal} {fault : Fault}
    (failed : play h.outlivesFaults (some l.interval) l.opening = .error fault c) :
    run h line = .failed fault := by
  have done := l.outcome_perform
  rw [failed] at done
  simp only [run, l.parsed, l.ranked, done]

variable {trail : List Moment} {e : Engine}

theorem fresh (l : Launch h line) : l.opening.begun.engine.stepCount = 0 :=
  (Session.loaded_of_build l.built).2.2.1

section
variable (path : l.session.engine.Path trail e)
  (writable : l.arguments.quiet = false → l.session.engine.Writable trail.length)

include path writable in
theorem finishes (all : (trail.length : ℕ∞) = min l.session.engine.stagesToEnd (stepBound l.limit))
    {final : List Text} (shown : stateLines e.state = .ok final) :
    ∃ c trace log, play h.outlivesFaults (some l.interval) l.opening = .ok () c ∧ c.engine = e ∧
      run h line = .finished (trace ++ verdict l.session.engine l.limit :: final) log ∧
      IsTrace l.arguments.quiet trace := by
  obtain ⟨lines, d, closed, rfl, trace, told⟩ :=
    Terminal.turns_finish l.waits l.fresh path writable h.outlivesFaults all
  have played := play_of_ok l.wait closed shown
  obtain ⟨log, ran⟩ := run_of_ok played
  refine ⟨_, lines.reverse, log, played, rfl, ?_, trace.reverse⟩
  have told : d.shown = verdict l.session.engine l.limit :: lines := by
    rw [told, show l.opening.begun.shown = [] from rfl, List.append_nil]
    rfl
  rw [ran]
  simp [Terminal.showing, told]

include path writable in
theorem fails {fault : Fault}
    (before : (trail.length : ℕ∞) < min l.session.engine.stagesToEnd (stepBound l.limit))
    (stuck : e.step = .error fault) :
    run h line = .failed (if h.outlivesFaults then .unfinished else fault) := by
  obtain ⟨⟨d, failed⟩, endless⟩ := Terminal.turns_stuck l.waits l.fresh path writable before stuck
  cases outlives : h.outlivesFaults with
  | false =>
    rw [← outlives] at failed
    exact run_of_error (play_of_error l.wait failed)
  | true =>
    rw [← outlives] at endless
    exact run_of_error (play_of_none l.wait endless)

end

/-- How a console ends. Either it makes every stage to the end of the program or to its limit, and then says
which of them it was and shows the state it came to; or a stage fails before, because no number can be cut to
the width of the registers. Then the console fails with it, or never ends, where the event loop outlives
faults. Micro-steps, silence and the interval change nothing but the lines before the verdict. -/
theorem console_ends (l : Launch h line) :
    ∃ trail e, l.session.engine.Path trail e ∧
      ((trail.length : ℕ∞) = min l.session.engine.stagesToEnd (stepBound l.limit) ∧
        (e.state.Writable → ∃ final, stateLines e.state = .ok final ∧
          ∀ other (r : Launch h other), l.Alike r →
            (r.arguments.quiet = false → l.session.engine.Writable trail.length) →
            ∃ c trace log, play h.outlivesFaults (some r.interval) r.opening = .ok () c ∧ c.engine = e ∧
              run h other = .finished (trace ++ verdict l.session.engine l.limit :: final) log ∧
              IsTrace r.arguments.quiet trace) ∨
      (trail.length : ℕ∞) < min l.session.engine.stagesToEnd (stepBound l.limit) ∧
        ∃ width ∈ l.session.engine.width, ¬ width.Masks ∧ e.step = .error width.fault ∧
          ∀ other (r : Launch h other), l.Alike r →
            (r.arguments.quiet = false → l.session.engine.Writable trail.length) →
            run h other = .failed (if h.outlivesFaults then .unfinished else width.fault)) := by
  obtain ⟨-, -, -, source, assembled⟩ := Session.loaded_of_build l.built
  obtain ⟨trail, e, path, ended⟩ :=
    (Engine.legible_of_assemble assembled).exists_path_min (stepBound l.limit)
  refine ⟨trail, e, path, ended.imp (fun all => ⟨all, fun writable => ?_⟩) ?_⟩
  · obtain ⟨final, shown⟩ := stateLines_eq_ok writable
    refine ⟨final, shown, fun other r alike printed => ?_⟩
    rw [← alike.session] at path printed all ⊢
    rw [← alike.limit] at all ⊢
    exact finishes path printed all shown
  · rintro ⟨before, fault, stuck⟩
    have kept : (Assembly.assemble source).outcome = .ok e.state.program := by
      rw [path.program_eq]
      exact assembled
    obtain ⟨width, set, wide, rfl⟩ := Engine.exists_not_masks_of_error kept stuck
    rw [path.width_eq] at set
    refine ⟨before, width, set, wide, stuck, fun other r alike printed => ?_⟩
    rw [← alike.session] at path printed before
    rw [← alike.limit] at before
    exact fails path printed before stuck

theorem exists_of_read {h : Host} {line : List Text} {a : Arguments} {rank : Nat} {limit interval : Int}
    {e : Engine} (parsed : Arguments.parse line = .ok a) (ranked : logRank a.logLevel = .ok rank)
    (limited : a.maxSteps = some limit) (wait : 0 ≤ interval)
    (read : ((Console.settings h a).outcome.toOption.map fun found =>
      (found.2, (Session.build h found.1).outcome.toOption.map Session.engine)) =
        some (some interval, some e)) :
    ∃ l : Launch h line, l.arguments = a ∧ l.limit = limit ∧ l.session.engine = e := by
  cases found : (Console.settings h a).outcome with
  | error fault => simp [found, Except.toOption] at read
  | ok pair =>
    obtain ⟨settings, set⟩ := pair
    simp only [found, Except.toOption, Option.map_some, Option.some.injEq, Prod.mk.injEq] at read
    obtain ⟨rfl, built⟩ := read
    cases made : (Session.build h settings).outcome with
    | error fault => simp [made] at built
    | ok session =>
      simp only [made, Option.map_some, Option.some.injEq] at built
      exact ⟨⟨a, rank, limit, settings, interval, session, parsed, ranked, limited, found, wait, made⟩,
        rfl, rfl, built⟩

theorem console_ends_after_one_step :
    ∃ (h : Host) (l : Launch h ["p.asm".toList, "--micro".toList, "--max-steps".toList, "0".toList]),
      l.limit = 0 ∧ l.arguments.quiet = false ∧ l.session.engine.Writable 1 ∧
      ∃ trace log, IsTrace false trace ∧
        run h ["p.asm".toList, "--micro".toList, "--max-steps".toList, "0".toList] =
          .finished (trace ++ ["Stopped after 1 stage steps (limit reached).".toList,
            "Registers: R0=0 R1=0 R2=0 R3=0 R4=0 R5=0 R6=0 R7=0".toList, "PC: 0".toList,
            "Data memory: (empty)".toList]) log := by
  let h : Host := {
    files := [("p.asm".toList, "JMP R0".toUTF8)]
    read := fun _ => .ok .null
    capacity := .upTo 64
    outlivesFaults := true }
  let line := ["p.asm".toList, "--micro".toList, "--max-steps".toList, "0".toList]
  let a : Arguments := { source := some "p.asm".toList, micro := true, maxSteps := some 0 }
  let jump := Assembly.instruction "JMP".toList "JMP R0".toList 1 0 (some .jmp) { src1 := some 0 }
  let e : Engine := { state := { program := [jump] } }
  have parsed : Arguments.parse line = .ok a := by rfl
  have ranked : logRank a.logLevel = .ok 30 := by rfl
  have read : ((Console.settings h a).outcome.toOption.map fun found =>
      (found.2, (Session.build h found.1).outcome.toOption.map Session.engine)) =
        some (some 0, some e) := by decide +kernel
  obtain ⟨l, asked, limit, engine⟩ := exists_of_read parsed ranked rfl (Int.le_refl 0) read
  have assembled : (Assembly.assemble "JMP R0".toList).outcome = .ok e.state.program := by rfl
  have legible : e.Legible := Engine.legible_of_assemble assembled
  have writable : e.Writable 1 :=
    Engine.writable_fetch rfl Assembly.isShort_zero (Numeral.lt_ceiling (by decide))
  have shows : (stateLines e.state.fetched).toOption = some
      ["Registers: R0=0 R1=0 R2=0 R3=0 R4=0 R5=0 R6=0 R7=0".toList, "PC: 0".toList,
        "Data memory: (empty)".toList] := by decide +kernel
  have small : e.state.fetched.Writable := State.writable_of_blank rfl rfl rfl
  have stepped : e.step = .ok (e.moved e.state.fetched) := by
    rw [Engine.step_running rfl, State.advance_fetch rfl]
    rfl
  obtain ⟨m, commits⟩ := legible.commits rfl stepped
  have once : (1 : ℕ∞) ≤ e.stagesToEnd := (Engine.Path.start.next commits).length_le_stagesToEnd
  obtain ⟨trail, last, path, ended⟩ := console_ends l
  rw [engine] at path ended
  rw [limit, show stepBound 0 = 1 from rfl] at ended
  rcases ended with ⟨all, finished⟩ | ⟨-, width, set, -⟩
  · rw [Nat.cast_one, min_eq_right once] at all
    have single : trail.length = 1 := Nat.cast_inj.1 (all.trans Nat.cast_one.symm)
    obtain ⟨-, rfl⟩ := path.unique (Engine.Path.start.next commits) single
    obtain ⟨final, shown, every⟩ := finished small
    have quiet : l.arguments.quiet = false := by rw [asked]
    obtain ⟨c, trace, log, -, -, ran, bracketed⟩ :=
      every _ l ⟨rfl, rfl, rfl⟩ fun _ => by rw [single]; exact writable
    have judged : verdict e 0 = "Stopped after 1 stage steps (limit reached).".toList := by
      rw [verdict, if_pos (by simpa [stepBound] using once)]
      decide
    have final_eq : some final = _ := (congrArg Except.toOption shown).symm.trans shows
    rw [judged, Option.some.inj final_eq] at ran
    exact ⟨h, l, limit, quiet, engine.symm ▸ writable, trace, log, quiet ▸ bracketed, ran⟩
  · cases set

/-- With an event loop of the kind, a console comes to a verdict if no number that it has to show is too long. -/
def EndsShown (outlives : Bool) : Prop :=
  ∀ (h : Host) (line : List Text) (l : Launch h line), h.outlivesFaults = outlives →
    (∀ trail e, l.session.engine.Path trail e → e.state.Writable) →
    (l.arguments.quiet = false → ∀ stages, l.session.engine.Writable stages) →
      ∃ shown log, run h line = .finished shown log

/-- With registers too wide to compute with, a console does not come to a verdict, whether its event loop ends
with a fault or outlives it. -/
theorem not_console_ends_of_every_width : ¬ EndsShown false ∧ ¬ EndsShown true := by
  have stops (outlives : Bool) : ¬ EndsShown outlives := by
    intro every
    let h : Host := {
      files := [("c.yaml".toList, "register_width: 0x100000000000000000000\nprogram: p.asm".toUTF8),
        ("p.asm".toList, "LDI R1, 5".toUTF8)]
      read := fun _ => .ok (.mapping [
        (.text (Text.raw "register_width".toList), .int 0x100000000000000000000),
        (.text (Text.raw "program".toList), .text (Text.raw "p.asm".toList))])
      capacity := .upTo 64
      outlivesFaults := outlives }
    let line := ["--config".toList, "c.yaml".toList, "--max-steps".toList, "8".toList, "--quiet".toList]
    let a : Arguments := { config := some "c.yaml".toList, maxSteps := some 8, quiet := true }
    let program := [Assembly.instruction "LDI".toList "LDI R1, 5".toList 1 0 (some .ldi)
      { dest := some 1, immediate := some 5 }]
    let w : Width := ⟨0x100000000000000000000, by decide, false⟩
    let e : Engine := { width := some w, state := { program } }
    have parsed : Arguments.parse line = .ok a := by rfl
    have ranked : logRank a.logLevel = .ok 30 := by rfl
    have read : ((Console.settings h a).outcome.toOption.map fun found =>
        (found.2, (Session.build h found.1).outcome.toOption.map Session.engine)) =
          some (some 1000, some e) := by cases outlives <;> decide +kernel
    have limited : a.maxSteps = some 8 := rfl
    obtain ⟨l, asked, limit, engine⟩ := exists_of_read parsed ranked limited (by decide) read
    have made : (Assembly.assemble "LDI R1, 5".toList).outcome = .ok program := by rfl
    obtain ⟨two, stuck, begun, length, -, -, fails⟩ :=
      Engine.path_stuck (e := e) made rfl rfl (by decide) (by decide) rfl (by decide)
    have endless : e.stagesToEnd = ⊤ := begun.stagesToEnd_eq_top fails
    have quiet : l.arguments.quiet = true := by rw [asked]
    have before : (two.length : ℕ∞) < min l.session.engine.stagesToEnd (stepBound l.limit) := by
      rw [engine, endless, limit, length, min_eq_right le_top]
      exact Nat.cast_lt.2 (by decide)
    have failed := l.fails (engine ▸ begun) (by simp [quiet]) before fails
    have small (s : State) (same : s.visible = e.state.visible) : s.Writable :=
      State.writable_of_blank (congrArg Visible.registers same) (congrArg Visible.pc same)
        (congrArg Visible.memory same)
    have unseen (trail : List Moment) (last : Engine) (path : e.Path trail last) :=
      Engine.visible_of_stuck (e := e) made rfl rfl (by decide) (by decide) rfl (by decide) path
    obtain ⟨shown, log, ran⟩ := every h line l rfl
      (fun trail last path => small _ (unseen trail last (engine ▸ path))) (by simp [quiet])
    rw [failed] at ran
    cases ran
  exact ⟨stops false, stops true⟩

end Launch

end Console
end StageMachine
