import StageMachine.Proofs.Session.Ending

/-! The stages that a run makes, counted. The count goes beside the run: it follows the same steps, the turns
and those that listeners make in between, and adds one for every stage of the machine. Without listeners that
step, a turn makes one stage at most, and a limit on the steps is one on the stages. -/
namespace StageMachine

def Engine.stages (e : Engine) : Nat := if e.isHalted = false ∧ e.step.toOption.isSome then 1 else 0

theorem Engine.stages_le_one (e : Engine) : e.stages ≤ 1 := by
  unfold stages
  split <;> decide

theorem Engine.stages_of_error {e : Engine} {fault : Fault} (stuck : e.step = .error fault) : e.stages = 0 :=
  if_neg (by simp [stuck, Except.toOption])

theorem Engine.stepCount_of_step {e f : Engine} (stepped : e.step = .ok f) :
    f.stepCount = e.stepCount + e.stages := by
  cases halted : e.isHalted with
  | true =>
    rw [step_halted halted] at stepped
    cases stepped
    simp [stages, halted]
  | false =>
    have one : e.stages = 1 := if_pos ⟨halted, by simp [stepped, Except.toOption]⟩
    rw [step_running halted] at stepped
    obtain ⟨state, -, rfl⟩ := map_eq_ok.1 stepped
    rw [one]

namespace Session
variable {s t : Session} {m : Snapshot} {p q : Progress} {interval : Int} {maxSteps : Option Int}

section
variable (stages : Session → Nat) (step : Act Session Snapshot) (m : Snapshot)

def toldStages : List Listener → Session → Nat
  | [], _ => 0
  | l :: rest, s =>
    let heard := { s with deliveries := ⟨l.name, m⟩ :: s.deliveries }
    (if l.reactsTo m ∧ l.reaction = .step then stages heard else 0) +
      match tell step m l s with
      | .ok _ t => toldStages rest t
      | .error _ _ => 0

end

/-- The stages of a step and of the steps within it, also of one that nests too deep. -/
def stagesWithin : Nat → Session → Nat
  | 0, s => s.engine.stages
  | depth + 1, s =>
    s.engine.stages +
      match commit s with
      | .ok m t => toldStages (stagesWithin depth) (stepWithin depth) m t.listeners t
      | .error _ _ => 0

def stepStages (s : Session) : Nat := stagesWithin nestingLimit s

def turnStages (p : Progress) (s : Session) : Nat :=
  if s.engine.isHalted = false ∧ p.steps ≠ 0 ∧ s.breakpoints.any (·.stopsBefore s.engine.state) then 0
  else stepStages s

section
variable (interval : Int) (maxSteps : Option Int)

def turnsStages (p : Progress) (s : Session) : Option Nat :=
  if s.running then
    match turn interval maxSteps p s with
    | .ok (q, .go) t => do
      let rest : Nat ← by
        apply turnsStages
        · exact q
        · exact t
      return turnStages p s + rest
    | _ => some (turnStages p s)
  else some 0
partial_fixpoint

end

/-- The stages of a run, where it comes to an end. One that is refused for its interval makes none. -/
def runStages (asked maxSteps : Option Int) (s : Session) : Option Nat :=
  match chosenInterval asked s.clockInterval with
  | .ok interval =>
    if interval < 0 then some 0
    else turnsStages interval maxSteps { snapshot := s.last } { s with running := true }
  | .error _ => some 0

theorem toldStages_eq_zero {listeners : List Listener} (still : ∀ l ∈ listeners, l.reaction ≠ .step)
    (stages : Session → Nat) (step : Act Session Snapshot) (m : Snapshot) (s : Session) :
    toldStages stages step m listeners s = 0 := by
  induction listeners generalizing s with
  | nil => rfl
  | cons l rest ih =>
    have first := still l (by simp)
    have others := ih fun x member => still x (by simp [member])
    rw [toldStages, if_neg (by simp [first])]
    cases tell step m l s <;> simp [others]

theorem stepStages_eq (still : ∀ l ∈ s.listeners, l.reaction ≠ .step) : stepStages s = s.engine.stages := by
  have nested (depth : Nat) : stagesWithin (depth + 1) s = s.engine.stages := by
    rw [stagesWithin]
    cases committed : commit s with
    | error fault t => rfl
    | ok m t =>
      rw [← listeners_of_commit committed] at still
      simp [toldStages_eq_zero still]
  exact nested 489

theorem turnStages_le_one (still : ∀ l ∈ s.listeners, l.reaction ≠ .step) : turnStages p s ≤ 1 := by
  unfold turnStages
  split
  · exact Nat.zero_le 1
  · rw [stepStages_eq still]
    exact s.engine.stages_le_one

theorem steps_of_wait (waited : wait interval p s = .ok q t) : q.steps = p.steps := by
  obtain ⟨_, _, got, waited⟩ := Act.bind_eq_ok.1 waited
  split at waited
  · split at waited
    · cases waited
    · cases waited
      rfl
  · cases waited
    rfl

theorem steps_of_stride (strode : stride interval maxSteps p s = .ok (q, .go) t) :
    q.steps = p.steps + 1 ∧ ∀ limit ∈ maxSteps, (q.steps : Int) < limit := by
  obtain ⟨_, _, got, strode⟩ := Act.bind_eq_ok.1 strode
  obtain ⟨m, u, -, strode⟩ := Act.bind_eq_ok.1 strode
  obtain ⟨_, _, again, strode⟩ := Act.bind_eq_ok.1 strode
  obtain ⟨hit, _, asked, strode⟩ := Act.bind_eq_ok.1 strode
  split at strode
  · obtain ⟨_, _, -, same⟩ := Act.bind_eq_ok.1 strode
    cases same
  · split at strode
    · cases strode
    · next within =>
      obtain ⟨waited, _, slept, same⟩ := Act.bind_eq_ok.1 strode
      cases same
      rw [steps_of_wait slept]
      refine ⟨rfl, fun limit member => Int.not_le.1 fun reached => within ?_⟩
      rw [Option.any_eq_true]
      exact ⟨limit, member, by simpa using reached⟩

theorem steps_of_go (turned : turn interval maxSteps p s = .ok (q, .go) t) :
    q.steps = p.steps + 1 ∧ ∀ limit ∈ maxSteps, (q.steps : Int) < limit := by
  obtain ⟨_, _, got, turned⟩ := Act.bind_eq_ok.1 turned
  cases got
  split at turned
  · obtain ⟨_, _, -, same⟩ := Act.bind_eq_ok.1 turned
    cases same
  · split at turned
    · obtain ⟨_, _, -, same⟩ := Act.bind_eq_ok.1 turned
      cases same
    · exact steps_of_stride turned

theorem turnsStages_go (running : s.running = true) (turned : turn interval maxSteps p s = .ok (q, .go) t) :
    turnsStages interval maxSteps p s = (turnsStages interval maxSteps q t).map (turnStages p s + ·) := by
  rw [turnsStages.eq_1, if_pos running, turned]
  show (do let rest ← turnsStages interval maxSteps q t; return turnStages p s + rest : Option Nat) = _
  cases turnsStages interval maxSteps q t <;> rfl

theorem turnsStages_last (running : s.running = true)
    (last : ∀ q t, turn interval maxSteps p s ≠ .ok (q, .go) t) :
    turnsStages interval maxSteps p s = some (turnStages p s) := by
  rw [turnsStages.eq_1, if_pos running]
  split
  · next q t turned => exact absurd turned (last q t)
  · rfl

theorem turnsStages_idle (idle : s.running = false) : turnsStages interval maxSteps p s = some 0 := by
  rw [turnsStages.eq_1, if_neg (by simp [idle])]

section
variable {budget : Int} (still : ∀ l ∈ s.listeners, l.reaction ≠ .step)

include still

/-- Turns with a limit come to an end, and make no more stages than the limit leaves, or one. -/
theorem turnsStages_le (p : Progress) :
    ∃ n r, turnsStages interval (some budget) p s = some n ∧ turns interval (some budget) p s = some r ∧
      (n : Int) ≤ max (budget - p.steps) 1 := by
  generalize left : (budget - p.steps).toNat = k
  induction k using Nat.strongRecOn generalizing p s with
  | ind k ih =>
    have once : turnStages p s ≤ 1 := turnStages_le_one still
    cases running : s.running with
    | false => exact ⟨0, _, turnsStages_idle running, turns_of_idle running, by omega⟩
    | true =>
      cases turned : turn interval (some budget) p s with
      | error fault t =>
        refine ⟨_, .error fault t, turnsStages_last running ?_, ?_, by omega⟩
        · simp [turned]
        · rw [turns.eq_1, if_pos running, turned]
      | ok result t =>
        obtain ⟨q, verdict⟩ := result
        cases verdict with
        | stop =>
          exact ⟨_, _, turnsStages_last running (by simp [turned]), turns_of_stop running turned, by omega⟩
        | go =>
          obtain ⟨counted, within⟩ := steps_of_go turned
          have below := within budget rfl
          have thinned := (leads_turn nested_thinned.driven interval (some budget) p).ended turned
          obtain ⟨n, r, made, ended, bound⟩ :=
            ih _ (by omega) (fun l member => still l (thinned l member)) q rfl
          refine ⟨turnStages p s + n, r, ?_, (turns_of_go running turned).trans ended, by omega⟩
          rw [turnsStages_go running turned, made]
          rfl

end

theorem stepCount_commit (s : Session) :
    (commit.after s).engine.stepCount = s.engine.stepCount + s.engine.stages := by
  cases stepped : s.engine.step with
  | error fault =>
    have stopped : commit s = .error fault s := by simp [commit, drive, Act.bind_apply, stepped]
    rw [Act.after_of_error stopped, Engine.stages_of_error stepped, Nat.add_zero]
  | ok e =>
    have reached : (commit.after s).engine = e := by
      simp only [commit, drive, Act.after, Act.bind_apply, Act.get_apply, stepped, Act.ofExcept_ok, Act.set_apply]
      cases e.snapshotAt s.engine.state.stage s.engine.isHalted <;> rfl
    rw [reached, Engine.stepCount_of_step stepped]

section
variable (passive : ∀ l ∈ s.listeners, l.Passive)

include passive

theorem still_of_passive : ∀ l ∈ s.listeners, l.reaction ≠ .step := by
  intro l member steps
  have idle := passive l member
  simp [Listener.Passive, steps] at idle

theorem engine_after_step : (step.after s).engine = (commit.after s).engine := by
  cases committed : commit s with
  | ok m t =>
    obtain ⟨u, made, heeded⟩ := step_of_commit passive committed
    rw [Act.after_of_ok made, Act.after_of_ok committed, heeded.engine]
  | error fault t =>
    have nested (depth : Nat) : stepWithin (depth + 1) s = .error fault t := by
      simp [stepWithin, Act.bind_apply, committed]
    have stopped : step s = .error fault t := nested 489
    rw [Act.after_of_error stopped, Act.after_of_error committed]

theorem stepCount_step : (step.after s).engine.stepCount = s.engine.stepCount + stepStages s := by
  rw [engine_after_step passive, stepCount_commit, stepStages_eq (still_of_passive passive)]

omit passive in
theorem engine_after_turn (p : Progress) :
    ((turn interval maxSteps p).after s).engine =
      if s.engine.isHalted = false ∧ p.steps ≠ 0 ∧ s.breakpoints.any (·.stopsBefore s.engine.state) then s.engine
      else (step.after s).engine := by
  have noted (r : Remark) : Act.Through (fun s t : Session => t.engine = s.engine) (note r) :=
    Act.through_modify fun _ => rfl
  have finished : ((finish p).after s).engine = (step.after s).engine :=
    Act.part_after_bind (fun m => Act.through_get.bind fun u => (noted _).bind fun _ => Act.through_pure _) s
  have waited (q : Progress) : Act.Through (fun s t : Session => t.engine = s.engine) (wait interval q) := by
    refine Act.through_get.bind fun u => ?_
    split
    · split
      · exact Act.through_iff.2 (Act.composes_through.throw _)
      · exact Act.through_pure _
    · exact Act.through_pure _
  have strode : ((stride interval maxSteps p).after s).engine = (step.after s).engine := by
    rw [stride, Act.after_get_bind]
    refine Act.part_after_bind (fun m => ?_) s
    refine Act.through_get.bind fun u => (Act.through_ofExcept _).bind fun hit => ?_
    split
    · exact (noted _).bind fun _ => Act.through_pure _
    · split
      · exact Act.through_pure _
      · exact (waited _).bind fun _ => Act.through_pure _
  rw [turn, Act.after_get_bind]
  cases halted : s.engine.isHalted with
  | true =>
    rw [if_pos rfl, if_neg (by simp), ← finished]
    exact Act.part_after_bind (fun _ => Act.through_pure _) s
  | false =>
    rw [if_neg (by simp)]
    simp only [true_and]
    split
    · rfl
    · exact strode

theorem stepCount_turn (p : Progress) :
    ((turn interval maxSteps p).after s).engine.stepCount = s.engine.stepCount + turnStages p s := by
  rw [engine_after_turn, turnStages]
  split
  · rfl
  · exact stepCount_step passive

omit passive in
theorem stepCount_turns {r : EStateM.Result Fault Session Progress}
    (ended : turns interval maxSteps p s = some r) (passive : ∀ l ∈ s.listeners, l.Passive) {n : Nat}
    (made : turnsStages interval maxSteps p s = some n) :
    (Act.left r).engine.stepCount = s.engine.stepCount + n := by
  refine turns_induction interval maxSteps (motive := fun p s r => (∀ l ∈ s.listeners, l.Passive) →
    ∀ n, turnsStages interval maxSteps p s = some n →
      (Act.left r).engine.stepCount = s.engine.stepCount + n) ?_ ?_ ?_ ?_ ended passive n made
  · intro p s idle _ n made
    rw [turnsStages_idle idle] at made
    cases made
    rfl
  · intro p s q t on turned passive n made
    rw [turnsStages_last on (by simp [turned])] at made
    cases made
    rw [← stepCount_turn passive p, Act.after_of_ok turned]
    rfl
  · intro p s q t r on turned ih passive n made
    rw [turnsStages_go on turned] at made
    obtain ⟨rest, others, rfl⟩ := Option.map_eq_some_iff.1 made
    have thinned := (leads_turn nested_thinned.driven interval maxSteps p).ended turned
    have once : ((turn interval maxSteps p).after s).engine.stepCount = _ := stepCount_turn passive p
    rw [Act.after_of_ok turned] at once
    rw [ih (fun l member => passive l (thinned l member)) rest others, once, Nat.add_assoc]
  · intro p s fault t on turned passive n made
    rw [turnsStages_last on (by simp [turned])] at made
    cases made
    rw [← stepCount_turn passive p, Act.after_of_error turned]
    rfl

end

theorem runStages_eq (low : 0 ≤ interval) (maxSteps : Option Int) (s : Session) :
    runStages (some interval) maxSteps s =
      turnsStages interval maxSteps { snapshot := s.last } { s with running := true } :=
  if_neg (Int.not_lt.2 low)

theorem runStages_of_spent {budget : Int} (still : ∀ l ∈ s.listeners, l.reaction ≠ .step) (low : 0 ≤ interval)
    (spent : budget ≤ 0) : runStages (some interval) (some budget) s = some s.engine.stages := by
  let begun : Session := { s with running := true }
  have awake : ∀ l ∈ begun.listeners, l.reaction ≠ .step := still
  have last : ∀ q t, turn interval (some budget) { snapshot := s.last } begun ≠ .ok (q, .go) t := by
    intro q t turned
    obtain ⟨one, within⟩ := steps_of_go turned
    have below := within budget rfl
    rw [one] at below
    omega
  rw [runStages_eq low, turnsStages_last rfl last, turnStages, if_neg (by simp), stepStages_eq awake]

/-- A run with a limit comes to an end, and among listeners that do not step it makes no more stages than the
limit, where one is allowed at all. At a limit of zero or less it makes the stage that the machine can make, if
any. The stages are those that the step count tells, where no listener changes it. -/
theorem run_within_budget (still : ∀ l ∈ s.listeners, l.reaction ≠ .step) (low : 0 ≤ interval) (budget : Int) :
    ∃ n r, runStages (some interval) (some budget) s = some n ∧
      turns interval (some budget) { snapshot := s.last } { s with running := true } = some r ∧
      (1 ≤ budget → (n : Int) ≤ budget) ∧ (budget ≤ 0 → n = s.engine.stages) ∧
      ((∀ l ∈ s.listeners, l.Passive) →
        ((run (some interval) (some budget)).after s).engine.stepCount = s.engine.stepCount + n) := by
  let begun : Session := { s with running := true }
  have awake : ∀ l ∈ begun.listeners, l.reaction ≠ .step := still
  obtain ⟨n, r, made, ended, bound⟩ : ∃ n r,
      turnsStages interval (some budget) { snapshot := s.last } begun = some n ∧
      turns interval (some budget) { snapshot := s.last } begun = some r ∧ (n : Int) ≤ max (budget - 0) 1 :=
    turnsStages_le awake _
  have counted : runStages (some interval) (some budget) s = some n := (runStages_eq low _ s).trans made
  refine ⟨n, r, counted, ended, fun _ => by omega, fun spent => ?_, fun passive => ?_⟩
  · rw [runStages_of_spent still low spent] at counted
    exact (Option.some.inj counted).symm
  · have total := stepCount_turns ended passive made
    have outcome : run (some interval) (some budget) s = _ := run_eq rfl low
    rw [Act.after, outcome, ended, ← total]
    cases r <;> rfl

theorem run_within_budget_reloading :
    ∃ s : Session, s.engine.isHalted = false ∧ s.listeners ≠ [] ∧
      (∃ n r, runStages (some 0) (some 3) s = some n ∧
        turns 0 (some 3) { snapshot := s.last } { s with running := true } = some r ∧ n ≤ 3) ∧
      runStages (some 0) (some 0) s = some 1 := by
  let l : Listener := { name := "back".toList, reaction := .stepBack }
  let s : Session := (Operation.load "NOP".toList).act.after { history := { limit := 4 }, listeners := [l] }
  have listeners : s.listeners = [l] := by decide +kernel
  have still : ∀ l ∈ s.listeners, l.reaction ≠ .step := by simp [listeners, l]
  obtain ⟨n, r, counted, ended, within, -⟩ := run_within_budget still (Int.le_refl 0) 3
  obtain ⟨one, -, once, -, -, exact, -⟩ := run_within_budget still (Int.le_refl 0) 0
  have made : one = 1 := (exact (Int.le_refl 0)).trans (by decide +kernel)
  have bound := within (by decide)
  exact ⟨s, by decide +kernel, by simp [listeners], ⟨n, r, counted, ended, by omega⟩, made ▸ once⟩

theorem not_run_within_every_budget :
    ¬ ∀ (limit : Option Int) (origin s : Session) (budget : Int), Started limit origin → Reaches origin s →
      (∀ l ∈ s.listeners, l.reaction ≠ .step) → 0 ≤ budget →
      ∃ n, runStages (some 0) (some budget) s = some n ∧ (n : Int) ≤ budget := by
  intro always
  let origin : Session := { history := { limit := 4 } }
  have engine : Engine.create (.upTo 0) none = .ok {} := rfl
  have session : create {} (some 1000) (some 4) = .ok origin := rfl
  let s : Session := (Operation.load "NOP".toList).act.after origin
  have silent : s.listeners = [] := by decide +kernel
  obtain ⟨n, counted, within⟩ := always (some 4) origin s 0 (.created engine session)
    (Reaches.start.next (.load "NOP".toList)) (by simp [silent]) (Int.le_refl 0)
  have one : s.engine.stages = 1 := by decide +kernel
  rw [runStages_of_spent (by simp [silent]) (Int.le_refl 0) (Int.le_refl 0), one] at counted
  cases counted
  omega

end Session
end StageMachine
