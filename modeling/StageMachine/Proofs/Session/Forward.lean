import StageMachine.Proofs.Machine.Duration
import StageMachine.Proofs.Machine.Phase
import StageMachine.Proofs.Session.Resuming

/-! Programs that only go forward. Where no instruction is a jump and every branch leads on, each
instruction raises the program counter, and four stages an instruction are enough to come to the end. -/
namespace StageMachine

/-- The instruction leads on: it is no jump, and no branch that goes nowhere or back. -/
structure Instruction.Onward (i : Instruction) : Prop where
  noJump : i.opcode ≠ some .jmp
  forward : i.opcode = some .brz → 1 ≤ i.address.getD 0

theorem Visible.pc_perform {i : Instruction} (onward : i.Onward) (width : Option Width) (v : Visible) :
    v.pc + 1 ≤ (v.perform width i).pc ∧
      (i.opcode ≠ some .brz → (v.perform width i).pc = v.pc + 1) := by
  unfold Visible.perform
  cases shown : i.opcode with
  | none => simp
  | some op =>
    cases op with
    | jmp => exact absurd shown onward.noJump
    | brz =>
      have forward := onward.forward shown
      refine ⟨?_, by simp⟩
      simp only
      split <;> omega
    | add | sub | and | or | addi | ldi | load | store | mov | nop => simp

namespace Engine
variable {e : Engine} {source : Text} {program : List Instruction}

theorem isHalted_iff : e.isHalted = true ↔ e.state.stage = .fetch ∧ e.state.program.length ≤ e.state.pc := by
  simp [isHalted, State.isHalted]

theorem path_onward (assembled : (Assembly.assemble source).outcome = .ok program)
    (onward : ∀ i ∈ program, i.Onward) (masks : program ≠ [] → ∀ w ∈ e.width, w.Masks)
    (loaded : e.state.program = program) (ready : e.state.stage = .fetch) (phase : e.InPhase)
    (high : 0 ≤ e.state.pc) {left : Nat} (near : program.length ≤ e.state.pc + left) :
    ∃ trail last, e.Path trail last ∧ last.isHalted = true ∧ 4 ∣ trail.length ∧
      trail.length ≤ 4 * left ∧
      ((∀ i ∈ program, i.opcode ≠ some .brz) → e.state.pc + left = program.length →
        trail.length = 4 * left ∧ last.state.pc = program.length) := by
  -- The number of instructions that may be left falls with each of them.
  induction left generalizing e with
  | zero =>
    have ended : e.isHalted = true := isHalted_iff.2 ⟨ready, by rw [loaded]; omega⟩
    exact ⟨[], e, .start, ended, ⟨0, rfl⟩, Nat.le_refl _, fun _ exact => ⟨rfl, by omega⟩⟩
  | succ left ih =>
    by_cases inside : e.state.pc < program.length
    · have some : program ≠ [] := by
        rintro rfl
        exact absurd inside (Int.not_lt.2 high)
      obtain ⟨trail, after, path, four, fetching, shown⟩ :=
        path_instruction assembled loaded ready inside phase.eight high (masks some)
      obtain ⟨i, present, -, -⟩ := current?_fetched_assembled assembled loaded inside high
      have member := List.mem_of_getElem? present
      have here : program[e.state.visible.pc.toNat]? = .some i := present
      have started : ¬ e.state.visible.pc < 0 := Int.not_lt.2 high
      simp only [Visible.next, if_neg started, here] at shown
      obtain ⟨raised, single⟩ := Visible.pc_perform (onward i member) e.width e.state.visible
      rw [← shown] at raised single
      have raised : e.state.pc + 1 ≤ after.state.pc := raised
      obtain ⟨rest, last, more, halted, ⟨count, fourfold⟩, few, plain⟩ := ih
        (path.width_eq ▸ masks) (path.program_eq.trans loaded) fetching (path.inPhase phase) (by omega)
        (by omega)
      refine ⟨rest ++ trail, last, path.trans more, halted, ⟨count + 1, ?_⟩, ?_, fun noBranch exact => ?_⟩
      · rw [List.length_append, four, fourfold]
        omega
      · rw [List.length_append, four]
        omega
      · have single : after.state.pc = e.state.pc + 1 :=
          single (noBranch i member)
        obtain ⟨all, pc⟩ := plain noBranch (by omega)
        rw [List.length_append, four, all]
        exact ⟨by omega, pc⟩
    · have ended : e.isHalted = true := isHalted_iff.2 ⟨ready, by rw [loaded]; omega⟩
      exact ⟨[], e, .start, ended, ⟨0, rfl⟩, Nat.zero_le _, fun _ exact => by omega⟩

end Engine

namespace Session
variable {s t u : Session} {h : Snapshot} {source : Text} {program : List Instruction}

theorem Finished.report_eq {shown : List Snapshot} (done : Finished s (h :: shown) t) :
    h.halted = true ∧ t.engine.isHalted = true ∧ h.state = t.engine.state ∧
      h.stage = t.engine.state.stage ∧ h.stepCount = t.engine.stepCount := by
  cases done with
  | @report _ u _ _ told halted seen alike =>
    have same : t.engine = u.engine := alike.engine
    cases seen
    rw [same]
    exact ⟨rfl, halted, rfl, rfl, rfl⟩

section
variable (free : s.breakpoints = []) (calm : ∀ l ∈ s.listeners, l.Calm)

include free calm

theorem run_stuck {trail : List Moment} {stuck : Engine} {fault : Fault}
    (path : s.engine.Path trail stuck) (failed : stuck.step = .error fault) :
    ∃ t, run (some 0) none s = .error fault t ∧ t.engine = stuck := by
  have going (steps : Nat) : ¬ StopsAfter s none steps := by
    rintro ⟨before, last, m, after, upto, -, commits, stops⟩
    rcases stops with halted | ⟨b, member, -⟩ | ⟨b, member, -⟩ | ⟨l, member, pauses⟩ | limit
    · have endless := path.stagesToEnd_eq_top failed
      rw [(upto.next commits).stagesToEnd_eq halted] at endless
      exact ENat.natCast_ne_top _ endless
    · simp [free] at member
    · simp [free] at member
    · rcases calm l member with kind | kind <;> simp [pauses.1] at kind
    · cases limit
  have short : (0 : Int) < Numeral.beyondFloat := lt_beyondFloat (by decide)
  obtain ⟨t, ended, engine⟩ := turns_stuck (fun l member => (calm l member).quiet) (by simp [free]) short (by simp)
    path going failed
  refine ⟨t, ?_, engine⟩
  rw [run_eq rfl (Int.le_refl 0), ended]

end

section
variable (assembled : (Assembly.assemble source).outcome = .ok program) (free : s.breakpoints = [])
  (calm : ∀ l ∈ s.listeners, l.Calm)

include assembled free calm

theorem exists_load_eq_ok : ∃ t, load source s = .ok () t ∧ t.engine = s.engine.load program ∧
    t.breakpoints = [] ∧ ∀ l ∈ t.listeners, l.Calm :=
  ⟨_, load_of_ok assembled, rfl, free, calm⟩

theorem run_loaded_wide (loaded : load source s = .ok () t) (some : program ≠ []) {w : Width}
    (wide : s.engine.width = .some w) (stuck : ¬ w.Masks) :
    ∃ u, run (.some 0) none t = .error w.fault u ∧ u.engine.stepCount = 2 ∧
      u.engine.state.stage = .execute := by
  obtain ⟨_, again, engine, unchecked, listening⟩ := exists_load_eq_ok assembled free calm
  obtain ⟨-, rfl⟩ := EStateM.Result.ok.inj (loaded.symm.trans again)
  have inside : (s.engine.load program).state.pc < program.length :=
    Int.natCast_pos.2 (List.length_pos_iff.2 some)
  obtain ⟨trail, last, path, two, stage, -, stops⟩ :=
    Engine.path_stuck assembled rfl rfl inside (Int.le_refl 0) wide stuck
  rw [← engine] at path
  obtain ⟨u, ran, rfl⟩ := run_stuck unchecked listening path stops
  refine ⟨u, ran, ?_, stage⟩
  rw [path.stepCount_eq, two, engine]
  rfl

/-- A program that only goes forward ends. When it has been loaded, a run that nobody disturbs comes back
with the machine at the end of the program, after whole instructions and no more of them than there are; after
each of them once where none is a branch. Only a width that no number can be cut to makes it fail, in the
third stage of the first instruction. -/
theorem run_onward (onward : ∀ i ∈ program, i.Onward) :
    ∃ t, load source s = .ok () t ∧ t.engine = s.engine.load program ∧
      ((program ≠ [] → ∀ w ∈ s.engine.width, w.Masks) →
        ∃ p u h, run (some 0) none t = .ok p u ∧ p.snapshot = some h ∧ h.halted = true ∧
          h.state = u.engine.state ∧ h.stepCount = u.engine.stepCount ∧ h.stage = .fetch ∧
          program.length ≤ h.state.pc ∧ 4 ∣ h.stepCount ∧ h.stepCount ≤ 4 * program.length ∧
          ((∀ i ∈ program, i.opcode ≠ some .brz) →
            h.stepCount = 4 * program.length ∧ h.state.pc = program.length)) ∧
      (program ≠ [] → ∀ w ∈ s.engine.width, ¬ w.Masks →
        ∃ u, run (some 0) none t = .error w.fault u ∧ u.engine.stepCount = 2 ∧
          u.engine.state.stage = .execute) := by
  obtain ⟨t, loaded, engine, unchecked, listening⟩ := exists_load_eq_ok assembled free calm
  refine ⟨t, loaded, engine, fun masks => ?_, fun some w wide stuck =>
    run_loaded_wide assembled free calm loaded some wide stuck⟩
  have near : (program.length : Int) ≤ (s.engine.load program).state.pc + program.length := by
    simp [Engine.load]
  obtain ⟨trail, last, path, halted, fourfold, few, plain⟩ :=
    Engine.path_onward (e := s.engine.load program) assembled onward masks rfl rfl
      (Engine.inPhase_load _ _) (Int.le_refl 0) near
  rw [← engine] at path
  have chosen : chosenInterval (some 0) t.clockInterval = .ok 0 := rfl
  obtain ⟨h, shown, p, u, ran, back, done⟩ :=
    run_finishes listening unchecked chosen (Int.le_refl 0) (by decide) path halted
  obtain ⟨_, _, same, -, rfl, -⟩ := done.complete path halted
  cases same
  obtain ⟨ended, -, state, stage, count⟩ := done.report_eq
  obtain ⟨fetching, past⟩ := Engine.isHalted_iff.1 halted
  have counted : h.stepCount = trail.length := by
    rw [count, path.stepCount_eq, engine]
    exact Nat.zero_add _
  rw [path.program_eq, engine, ← state] at past
  rw [← counted] at fourfold few plain
  rw [← state] at plain
  exact ⟨p, u, h, ran, back, ended, state, count, stage.trans fetching, past, fourfold, few,
    fun noBranch => plain noBranch (Int.zero_add _)⟩

end

theorem run_onward_past_end : ∃ (s t u : Session) (p : Progress) (h : Snapshot),
    s.engine.bits = some 4 ∧ s.listeners ≠ [] ∧
    load "LDI R1, 21\nBRZ R2, 5\nfoo".toList s = .ok () t ∧ run (some 0) none t = .ok p u ∧
    p.snapshot = some h ∧ h.halted = true ∧ 3 ≤ h.state.pc ∧ 4 ∣ h.stepCount ∧ h.stepCount ≤ 12 := by
  let program := [
    Assembly.instruction "LDI".toList "LDI R1, 21".toList 1 0 (some .ldi)
      { dest := some 1, immediate := some 21 },
    Assembly.instruction "BRZ".toList "BRZ R2, 5".toList 2 1 (some .brz) { src1 := some 2, address := some 5 },
    Assembly.instruction "FOO".toList "foo".toList 3 2 none {}]
  let s : Session := {
    engine := { width := some ⟨4, by decide, true⟩ }
    history := { limit := 4 }
    listeners := [{ name := "told".toList }, { name := "gone".toList, reaction := .leave }] }
  have made : (Assembly.assemble "LDI R1, 21\nBRZ R2, 5\nfoo".toList).outcome = .ok program := by
    decide +kernel
  have onward : ∀ i ∈ program, i.Onward := by
    intro i member
    simp only [program, List.mem_cons, List.not_mem_nil, or_false] at member
    rcases member with rfl | rfl | rfl <;> exact ⟨by decide, by decide⟩
  obtain ⟨t, loaded, -, ends, -⟩ := run_onward (s := s) made rfl (by simp [s, Listener.Calm]) onward
  obtain ⟨p, u, h, ran, back, halted, -, -, -, past, fourfold, few, -⟩ := ends (by decide)
  exact ⟨s, t, u, p, h, rfl, by simp [s], loaded, ran, back, halted, past, fourfold, few⟩

structure Undone (s t : Session) : Prop where
  engine : t.engine = s.engine
  history : t.history = s.history
  listeners : t.listeners = s.listeners
  breakpoints : t.breakpoints = s.breakpoints
  running : t.running = s.running

theorem Undone.refl (s : Session) : Undone s s := ⟨rfl, rfl, rfl, rfl, rfl⟩

theorem Undone.trans (undone : Undone s t) (more : Undone t u) : Undone s u :=
  ⟨more.engine.trans undone.engine, more.history.trans undone.history, more.listeners.trans undone.listeners,
    more.breakpoints.trans undone.breakpoints, more.running.trans undone.running⟩

section
variable {l : Listener} (always : l.trigger = none)

include always

theorem stepWithin_alone {m : Snapshot} (committed : commit s = .ok m t) (alone : t.listeners = [l]) (depth : Nat) :
    stepWithin (depth + 1) s =
      ((fun _ => m) <$> react (stepWithin depth) l : Act Session Snapshot)
        { t with deliveries := ⟨l.name, m⟩ :: t.deliveries } := by
  have reacts : l.reactsTo m = true := by simp [Listener.reactsTo, always]
  have told : tellAll (stepWithin depth) m [l] t =
      react (stepWithin depth) l { t with deliveries := ⟨l.name, m⟩ :: t.deliveries } := by
    simp only [tellAll, tell, Act.bind_apply, Act.modify_apply, reacts, if_true]
    cases react (stepWithin depth) l { t with deliveries := ⟨l.name, m⟩ :: t.deliveries } <;> rfl
  have told := (congrArg (tellAll (stepWithin depth) m · t) alone).trans told
  simp only [stepWithin, Act.bind_apply, committed, Act.get_apply, told, Act.map_apply, Act.pure_apply]

/-- A listener that steps the halted machine again and again nests these steps too deep. -/
theorem stepWithin_nests (kind : l.reaction = .step) (halted : s.engine.isHalted = true)
    (alone : s.listeners = [l]) (depth : Nat) : ∃ t, stepWithin depth s = .error .nestingTooDeep t := by
  induction depth generalizing s with
  | zero =>
    refine ⟨{ s with journal := s.engine.stepRemarks.reverse ++ s.journal }, ?_⟩
    show overrun s = _
    rw [overrun_eq, Engine.step_halted halted]
  | succ depth ih =>
    obtain ⟨m, shown⟩ : ∃ m, s.engine.snapshotAt s.engine.state.stage true = .ok m := ⟨_, rfl⟩
    obtain ⟨t, nested⟩ := ih (s := { s with
      last := some m
      journal := s.engine.stepRemarks.reverse ++ s.journal
      deliveries := ⟨l.name, m⟩ :: s.deliveries }) halted alone
    refine ⟨t, ?_⟩
    rw [stepWithin_alone always (commit_halted halted shown) alone, Act.map_apply, react, kind]
    simp only [Act.discard_apply, nested]

theorem turn_undone (kind : l.reaction = .stepBack) {p : Progress} {m n : Snapshot} {e : Engine}
    (commits : s.engine.Commits m e) (seen : s.engine.snapshot = .ok n)
    (deep : s.history.depth < s.history.limit) (alone : s.listeners = [l]) (free : s.breakpoints = []) :
    ∃ q t, turn 0 none p s = .ok (q, .go) t ∧ Undone s t := by
  have popped : (s.history.push s.engine.moment).pop? = some (s.engine.moment, s.history) :=
    History.pop?_push deep _
  have same : e.atMoment s.engine.moment = s.engine := Engine.atMoment_moment commits.width_eq
  let undone : Session := { s with
    last := none
    deliveries := ⟨l.name, m⟩ :: s.deliveries
    journal := s.engine.stepRemarks.reverse ++ s.journal }
  have made : step s = .ok m undone := by
    have back (depth : Nat) : stepWithin (depth + 1) s = .ok m undone := by
      rw [stepWithin_alone always (commit_running commits) alone, Act.map_apply, react, kind]
      let told : Session := { s with
        engine := e
        history := s.history.push s.engine.moment
        last := some m
        journal := s.engine.stepRemarks.reverse ++ s.journal
        deliveries := ⟨l.name, m⟩ :: s.deliveries }
      have undo : stepBack told = .ok (some n) undone := by
        have seen : (told.engine.atMoment s.engine.moment).snapshot = .ok n := by
          show (e.atMoment s.engine.moment).snapshot = _
          rw [same, seen]
        rw [stepBack_eq_ok popped seen]
        show EStateM.Result.ok _ { s with
          engine := e.atMoment s.engine.moment
          last := none
          deliveries := ⟨l.name, m⟩ :: s.deliveries
          journal := s.engine.stepRemarks.reverse ++ s.journal } = _
        rw [same]
      simp only [Act.discard_apply, undo, told]
    exact back 489
  refine ⟨{ p with snapshot := some m, steps := p.steps + 1 }, undone, ?_, rfl, rfl, rfl, rfl, rfl⟩
  rw [turn_eq_stride commits.running (by simp [free])]
  have silent : undone.breakpoints = [] := free
  simp [stride, Act.bind_apply, made, silent, Breakpoint.anyStopsAfter, wait]

/-- Where every step is taken back, the turns have no end. -/
theorem turns_undone (kind : l.reaction = .stepBack) {p : Progress} {m n : Snapshot} {e : Engine}
    (commits : s.engine.Commits m e) (seen : s.engine.snapshot = .ok n)
    (deep : s.history.depth < s.history.limit) (alone : s.listeners = [l]) (free : s.breakpoints = [])
    (running : s.running = true) : turns 0 none p s = none := by
  cases ended : turns 0 none p s with
  | none => rfl
  | some r =>
    have again {p : Progress} {t : Session} (undone : Undone s t) :
        ∃ q u, turn 0 none p t = .ok (q, .go) u ∧ Undone s u := by
      obtain ⟨q, u, turned, more⟩ := turn_undone (p := p) always kind (undone.engine ▸ commits)
        (undone.engine ▸ seen) (undone.history ▸ deep) (undone.listeners.trans alone)
        (undone.breakpoints.trans free)
      exact ⟨q, u, turned, undone.trans more⟩
    refine absurd (Undone.refl s) (turns_induction 0 none (motive := fun _ t _ => ¬ Undone s t) ?_ ?_ ?_ ?_ ended)
    · intro p t idle undone
      rw [undone.running, running] at idle
      cases idle
    · intro p t q u _ turned undone
      obtain ⟨_, _, other, -⟩ := again undone
      rw [turned] at other
      cases other
    · intro p t q u r _ turned ih undone
      obtain ⟨_, _, other, more⟩ := again undone
      rw [turned] at other
      cases other
      exact ih more
    · intro p t fault u _ turned undone
      obtain ⟨_, _, other, -⟩ := again undone
      rw [turned] at other
      cases other

theorem run_nests (kind : l.reaction = .step) (halted : s.engine.isHalted = true) (alone : s.listeners = [l]) :
    ∃ t, run (some 0) none s = .error .nestingTooDeep t := by
  obtain ⟨t, nested⟩ := stepWithin_nests (s := { s with running := true }) always kind halted alone nestingLimit
  have nested : step { s with running := true } = .error .nestingTooDeep t := nested
  have turned (p : Progress) : turn 0 none p { s with running := true } = .error .nestingTooDeep t := by
    simp [turn, Act.bind_apply, halted, finish, nested]
  refine ⟨t, ?_⟩
  rw [run_eq rfl (Int.le_refl 0), turns.eq_1, if_pos rfl, turned]

theorem run_undone (kind : l.reaction = .stepBack) (legible : s.engine.Legible) (running : s.engine.isHalted = false)
    (stepped : ∃ e, s.engine.step = .ok e) (deep : s.history.depth < s.history.limit) (alone : s.listeners = [l])
    (free : s.breakpoints = []) : ∃ t, run (some 0) none s = .error .unfinished t := by
  obtain ⟨e, stepped⟩ := stepped
  obtain ⟨m, commits⟩ := legible.commits running stepped
  obtain ⟨n, seen⟩ := legible.snapshotAt_eq_ok s.engine.state.stage s.engine.isHalted
  refine ⟨{ s with running := true }, ?_⟩
  rw [run_eq rfl (Int.le_refl 0)]
  rw [turns_undone (s := { s with running := true }) always kind commits seen deep alone free rfl]

end

/-- Loaded into a session of the kind, every program that only goes forward is run to its end. -/
def RunsOnward (kind : Session → Prop) : Prop :=
  ∀ (s : Session) (source : Text) (program : List Instruction),
    (Assembly.assemble source).outcome = .ok program → (∀ i ∈ program, i.Onward) → s.breakpoints = [] → kind s →
    ∃ t p u, load source s = .ok () t ∧ run (some 0) none t = .ok p u

theorem not_runsOnward_of_wide :
    ¬ RunsOnward fun s => ∀ l ∈ s.listeners, l.reaction = .record := by
  intro every
  let program := [Assembly.instruction "LDI".toList "LDI R1, 5".toList 1 0 (some .ldi)
    { dest := some 1, immediate := some 5 }]
  let s : Session := {
    engine := { width := some ⟨0x100000000000000000000, by decide, true⟩ }, history := { limit := 4 } }
  have made : (Assembly.assemble "LDI R1, 5".toList).outcome = .ok program := by rfl
  have onward : ∀ i ∈ program, i.Onward := by
    intro i member
    obtain rfl := List.mem_singleton.1 member
    exact ⟨by decide, by decide⟩
  obtain ⟨t, p, u, loaded, ran⟩ := every s _ program made onward rfl (by simp [s])
  obtain ⟨_, failed, -⟩ := run_loaded_wide made rfl (by simp [s]) loaded (by decide) rfl (by decide)
  rw [ran] at failed
  cases failed

theorem not_runsOnward_of_stepping :
    ¬ RunsOnward fun s => s.engine.width = none ∧ ∀ l ∈ s.listeners, l.reaction = .step := by
  intro every
  let l : Listener := { name := "again".toList, reaction := .step }
  let s : Session := { history := { limit := 4 }, listeners := [l] }
  have made : (Assembly.assemble []).outcome = .ok [] := rfl
  obtain ⟨t, p, u, loaded, ran⟩ := every s [] [] made (by simp) rfl (by simp [s, l])
  obtain ⟨-, same⟩ := EStateM.Result.ok.inj (loaded.symm.trans (load_of_ok made))
  have alone : t.listeners = [l] := by rw [same]; rfl
  have halted : t.engine.isHalted = true := by rw [same]; rfl
  obtain ⟨v, failed⟩ := run_nests rfl rfl halted alone
  rw [ran] at failed
  cases failed

theorem not_runsOnward_of_undoing :
    ¬ RunsOnward fun s => s.engine.width = none ∧ ∀ l ∈ s.listeners, l.reaction = .stepBack := by
  intro every
  let l : Listener := { name := "back".toList, reaction := .stepBack }
  let s : Session := { history := { limit := 4 }, listeners := [l] }
  let program := [Assembly.instruction "NOP".toList "NOP".toList 1 0 (some .nop) {}]
  have made : (Assembly.assemble "NOP".toList).outcome = .ok program := by rfl
  have onward : ∀ i ∈ program, i.Onward := by
    intro i member
    obtain rfl := List.mem_singleton.1 member
    exact ⟨by decide, by decide⟩
  obtain ⟨t, p, u, loaded, ran⟩ := every s _ program made onward rfl (by simp [s, l])
  obtain ⟨-, same⟩ := EStateM.Result.ok.inj (loaded.symm.trans (load_of_ok made))
  have engine : t.engine = s.engine.load program := by rw [same]; rfl
  have legible : t.engine.Legible := by
    rw [engine]
    exact Engine.legible_of_assemble made
  have running : t.engine.isHalted = false := by rw [engine]; rfl
  have stepped : ∃ e, t.engine.step = .ok e := by rw [engine]; exact ⟨_, rfl⟩
  have deep : t.history.depth < t.history.limit := by rw [same]; decide
  have alone : t.listeners = [l] := by rw [same]; rfl
  have free : t.breakpoints = [] := by rw [same]; rfl
  obtain ⟨v, failed⟩ := run_undone rfl rfl legible running stepped deep alone free
  rw [ran] at failed
  cases failed

/-- A run fails at a width that no number can be cut to. A listener who steps the session nests its steps too deep,
and one who takes every step back keeps the run from coming to an end. -/
theorem not_run_onward_of_every_width :
    ¬ RunsOnward (fun s => ∀ l ∈ s.listeners, l.reaction = .record) ∧
      ¬ RunsOnward (fun s => s.engine.width = none ∧ ∀ l ∈ s.listeners, l.reaction = .step) ∧
      ¬ RunsOnward (fun s => s.engine.width = none ∧ ∀ l ∈ s.listeners, l.reaction = .stepBack) :=
  ⟨not_runsOnward_of_wide, not_runsOnward_of_stepping, not_runsOnward_of_undoing⟩

end Session
end StageMachine
