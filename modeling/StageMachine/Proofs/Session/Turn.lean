import StageMachine.Proofs.Session.Step

/-! One turn of a run. What a breakpoint waits for is said of the states before and after a stage, and a
turn that makes a step decides on them, on the limit and on the listeners. -/
namespace StageMachine

namespace Breakpoint

def Met (b : Breakpoint) (stage : Stage) (before after : State) : Prop :=
  b.enabled = true ∧
    match b.kind with
    | .pcMatch => False
    | .memoryWrite =>
      stage = .writeBack ∧ after.signals.mw = true ∧ b.address = some after.alu
    | .registerValue =>
      ∃ i, registerNumber? b.register = .ok (some i) ∧ b.value = some (after.register (some i))
    | .registerChange =>
      ∃ i, registerNumber? b.register = .ok (some i) ∧
        after.register (some i) ≠ before.register (some i)

def Awaits (b : Breakpoint) (s : State) : Prop :=
  s.stage = .fetch ∧ b.enabled = true ∧ b.kind = .pcMatch ∧ b.value = some s.pc

def Named (b : Breakpoint) : Prop := ∃ number, registerNumber? b.register = .ok number

theorem stopsBefore_iff (b : Breakpoint) (s : State) : b.stopsBefore s = true ↔ b.Awaits s := by
  simp [stopsBefore, Awaits, and_assoc]

theorem stopsAfter_eq_ok {b : Breakpoint} (named : b.Named) (m : Snapshot) (before : State) :
    ∃ hit, b.stopsAfter m before = .ok hit ∧ (hit = true ↔ b.Met m.stage before m.state) := by
  obtain ⟨number, found⟩ := named
  unfold stopsAfter Met
  cases enabled : b.enabled with
  | false => exact ⟨false, rfl, by simp⟩
  | true =>
    cases kind : b.kind with
    | pcMatch => exact ⟨false, rfl, by simp⟩
    | memoryWrite => exact ⟨_, rfl, by simp [and_assoc]⟩
    | registerValue =>
      rw [found]
      refine ⟨_, rfl, ?_⟩
      cases number <;> simp
    | registerChange =>
      rw [found]
      refine ⟨_, rfl, ?_⟩
      cases number <;> simp

theorem anyStopsAfter_eq_ok {breakpoints : List Breakpoint} (named : ∀ b ∈ breakpoints, b.Named)
    (m : Snapshot) (before : State) :
    ∃ hit, anyStopsAfter m before breakpoints = .ok hit ∧
      (hit = true ↔ ∃ b ∈ breakpoints, b.Met m.stage before m.state) := by
  induction breakpoints with
  | nil => exact ⟨false, rfl, by simp⟩
  | cons b rest ih =>
    obtain ⟨hit, first, met⟩ := stopsAfter_eq_ok (named b (by simp)) m before
    obtain ⟨later, others, any⟩ := ih fun x member => named x (by simp [member])
    cases hit with
    | true =>
      refine ⟨true, by simp [anyStopsAfter, first, bind, Except.bind, pure, Except.pure], ?_⟩
      simp [met.1 rfl]
    | false =>
      refine ⟨later, by simp [anyStopsAfter, first, others, bind, Except.bind], ?_⟩
      have unmet : ¬ b.Met m.stage before m.state := fun h => absurd (met.2 h) (by simp)
      simp [any, unmet]

end Breakpoint

namespace Session
variable {interval : Int} {maxSteps : Option Int} {p : Progress} {s : Session} {m : Snapshot} {e : Engine}

structure Strode (p : Progress) (s : Session) (m : Snapshot) (e : Engine) (q : Progress) (t : Session) :
    Prop where
  snapshot : q.snapshot = some m
  steps : q.steps = p.steps + 1
  engine : t.engine = e
  history : t.history = s.history.push s.engine.moment
  listeners : ∀ l ∈ t.listeners, l ∈ s.listeners
  pausing : ∀ n, t.listeners.any (·.pausesAt n) = s.listeners.any (·.pausesAt n)
  breakpoints : t.breakpoints = s.breakpoints
  running : t.running = (s.running && !s.listeners.any (·.pausesAt m))

/-- What stops a run right after a step: a breakpoint that was met, or the limit on steps. -/
def Halts (s : Session) (maxSteps : Option Int) (p : Progress) (m : Snapshot) : Prop :=
  (∃ b ∈ s.breakpoints, b.Met m.stage s.engine.state m.state) ∨
    ∃ limit ∈ maxSteps, limit ≤ (p.steps + 1 : Nat)

theorem wait_eq_ok (short : interval < Numeral.beyondFloat) (p : Progress) (s : Session) :
    ∃ sleeps, wait interval p s = .ok { p with sleeps } s := by
  unfold wait
  rw [Act.bind_apply, Act.get_apply]
  simp only
  split
  · rw [if_neg (by omega)]
    exact ⟨p.sleeps + 1, rfl⟩
  · exact ⟨p.sleeps, rfl⟩

/-- A turn that makes a step leaves the session that the step leaves, but for a remark. It stops just where
something halts the run. -/
theorem stride_stepped (quiet : ∀ l ∈ s.listeners, l.Quiet) (named : ∀ b ∈ s.breakpoints, b.Named)
    (short : interval < Numeral.beyondFloat) (commits : s.engine.Commits m e) :
    ∃ verdict sleeps journal, stride interval maxSteps p s =
        .ok ({ p with snapshot := some m, steps := p.steps + 1, sleeps }, verdict)
          { s.stepped e (s.history.push s.engine.moment) m with journal } ∧
      (verdict = .stop ↔ s.Halts maxSteps p m) := by
  have one := step_running quiet commits
  obtain ⟨hit, asked, met⟩ := Breakpoint.anyStopsAfter_eq_ok named m s.engine.state
  have asked : Breakpoint.anyStopsAfter m s.engine.state
      (s.stepped e (s.history.push s.engine.moment) m).breakpoints = .ok hit := asked
  let q : Progress := { p with snapshot := some m, steps := p.steps + 1 }
  let t := s.stepped e (s.history.push s.engine.moment) m
  unfold stride
  simp only [Act.bind_apply, Act.get_apply, one, asked, Act.ofExcept_ok]
  cases hit with
  | true =>
    have halts : s.Halts maxSteps p m := .inl (met.1 rfl)
    exact ⟨.stop, p.sleeps, _, rfl, by simp [halts]⟩
  | false =>
    have unmet : ¬ ∃ b ∈ s.breakpoints, b.Met m.stage s.engine.state m.state := fun h =>
      absurd (met.2 h) (by simp)
    by_cases spent : maxSteps.any (fun limit => limit ≤ (q.steps : Int)) = true
    · have halts : s.Halts maxSteps p m := .inr (by simpa [Option.any_eq_true, q] using spent)
      refine ⟨.stop, p.sleeps, t.journal, ?_, by simp [halts]⟩
      simp only [Bool.false_eq_true, if_false]
      rw [if_pos spent]
      rfl
    · have going : ¬ s.Halts maxSteps p m := by
        rintro (h | h)
        · exact unmet h
        · exact spent (by simpa [Option.any_eq_true, q] using h)
      obtain ⟨sleeps, waited⟩ := wait_eq_ok short q t
      refine ⟨.go, sleeps, t.journal, ?_, by simp [going]⟩
      simp only [Bool.false_eq_true, if_false]
      rw [if_neg spent, Act.bind_apply, waited]
      rfl

theorem stride_eq_ok (quiet : ∀ l ∈ s.listeners, l.Quiet) (named : ∀ b ∈ s.breakpoints, b.Named)
    (short : interval < Numeral.beyondFloat) (commits : s.engine.Commits m e) :
    ∃ q verdict t, stride interval maxSteps p s = .ok (q, verdict) t ∧ Strode p s m e q t ∧
      (verdict = .stop ↔ s.Halts maxSteps p m) := by
  obtain ⟨verdict, sleeps, journal, done, stopped⟩ : ∃ verdict sleeps journal,
      stride interval maxSteps p s =
        .ok ({ p with snapshot := some m, steps := p.steps + 1, sleeps }, verdict)
          { s.stepped e (s.history.push s.engine.moment) m with journal } ∧
      (verdict = .stop ↔ s.Halts maxSteps p m) := stride_stepped quiet named short commits
  exact ⟨_, verdict, _, done, ⟨rfl, rfl, rfl, rfl, fun _ => mem_of_stillListening,
    any_pausesAt_stillListening s.listeners m, rfl, rfl⟩, stopped⟩

theorem stride_of_error {fault : Fault} (stuck : s.engine.step = .error fault) :
    stride interval maxSteps p s = .error fault s := by
  simp [stride, Act.bind_apply, step_of_error stuck]

theorem turn_reported {h : Snapshot} (quiet : ∀ l ∈ s.listeners, l.Quiet)
    (halted : s.engine.isHalted = true)
    (seen : s.engine.snapshotAt s.engine.state.stage true = .ok h) :
    ∃ journal, turn interval maxSteps p s = .ok ({ p with snapshot := some h }, .stop)
      { s.stepped s.engine s.history h with journal } := by
  have one := step_halted quiet halted seen
  let t := s.stepped s.engine s.history h
  refine ⟨.completeAfter t.engine.stepCount :: t.journal, ?_⟩
  simp only [turn, Act.bind_apply, Act.get_apply, halted, if_true, finish, one, note, Act.modify_apply,
    Act.pure_apply]
  rfl

theorem turn_halted (interval : Int) (maxSteps : Option Int) (p : Progress)
    (quiet : ∀ l ∈ s.listeners, l.Quiet) (halted : s.engine.isHalted = true) :
    ∃ h t, s.engine.snapshotAt s.engine.state.stage true = .ok h ∧
      turn interval maxSteps p s = .ok ({ p with snapshot := some h }, .stop) t ∧
      t.engine = s.engine ∧ t.history = s.history := by
  have seen : ∃ h, s.engine.snapshotAt s.engine.state.stage true = .ok h := ⟨_, rfl⟩
  obtain ⟨h, seen⟩ := seen
  obtain ⟨journal, last⟩ := turn_reported quiet halted seen
  exact ⟨h, _, seen, last, rfl, rfl⟩

theorem turn_awaited (interval : Int) (maxSteps : Option Int) (running : s.engine.isHalted = false)
    (begun : p.steps ≠ 0) (awaited : ∃ b ∈ s.breakpoints, b.Awaits s.engine.state) :
    ∃ journal, turn interval maxSteps p s = .ok (p, .stop) { s with journal } := by
  have waits : s.breakpoints.any (·.stopsBefore s.engine.state) = true := by
    obtain ⟨b, member, waits⟩ := awaited
    exact List.any_eq_true.2 ⟨b, member, (b.stopsBefore_iff _).2 waits⟩
  refine ⟨.breakpointHit s.engine.state.pc :: s.journal, ?_⟩
  simp only [turn, Act.bind_apply, Act.get_apply, running, Bool.false_eq_true, if_false]
  rw [if_pos ⟨begun, waits⟩]
  rfl

theorem turn_eq_stride (running : s.engine.isHalted = false)
    (free : p.steps ≠ 0 → ¬ ∃ b ∈ s.breakpoints, b.Awaits s.engine.state) :
    turn interval maxSteps p s = stride interval maxSteps p s := by
  simp only [turn, Act.bind_apply, Act.get_apply, running, Bool.false_eq_true, if_false]
  rw [if_neg]
  rintro ⟨begun, waits⟩
  obtain ⟨b, member, waits⟩ := List.any_eq_true.1 waits
  exact free begun ⟨b, member, (b.stopsBefore_iff _).1 waits⟩

theorem turn_of_error {fault : Fault} (stuck : s.engine.step = .error fault)
    (free : p.steps ≠ 0 → ¬ ∃ b ∈ s.breakpoints, b.Awaits s.engine.state) :
    turn interval maxSteps p s = .error fault s := by
  rw [turn_eq_stride (Engine.isHalted_of_error stuck) free, stride_of_error stuck]

end Session
end StageMachine
