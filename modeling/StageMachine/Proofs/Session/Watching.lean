import StageMachine.Proofs.Session.Completed
import StageMachine.Proofs.Session.Phase
import StageMachine.Proofs.Session.Turn

/-! Breakpoints on data memory. Such a breakpoint never looks at the memory; it goes by the stage, a signal
and the last result. In a machine that is in phase these tell just the steps that write to the address. -/
namespace StageMachine

namespace State
variable {width : Option Width} {s t : State}

theorem memory_of_work (worked : s.work width = .ok t) (early : s.stage ≠ .writeBack) :
    t.memory = s.memory := by
  unfold work at worked
  split at worked
  · cases worked
    rfl
  · obtain ⟨signals, rfl, -⟩ := decode_eq_ok worked
    rfl
  · obtain ⟨alu, rfl, -⟩ := execute_eq_ok worked
    rfl
  · next last => exact absurd last early

theorem signals_writeBack (s : State) : s.writeBack.signals = s.signals ∧ s.writeBack.alu = s.alu := by
  unfold writeBack
  split <;> exact ⟨rfl, rfl⟩

end State

namespace Engine
variable {e f : Engine} {address value : Int}

/-- The next step puts the value at the address, whatever data memory holds. -/
def Assigns (e : Engine) (address value : Int) : Prop :=
  ∀ memory : Memory, ∃ f, ({ e with state := { e.state with memory } } : Engine).step = .ok f ∧
    f.state.memory = memory.write address value

theorem step_writeBack (last : e.state.stage = .writeBack) :
    e.step = .ok (e.moved { e.state.writeBack with stage := .fetch }) := by
  rw [step_running (isHalted_of_stage .writeBack last (by simp)), State.advance_writeBack last]
  rfl

theorem memory_of_step (stepped : e.step = .ok f) :
    f.state.memory = e.state.memory ∨
      e.state.stage = .writeBack ∧ e.state.signals.mw = true ∧ ∃ i, e.state.current? = some i ∧
        f.state.memory = e.state.memory.write e.state.alu (e.state.register i.src2) := by
  cases halted : e.isHalted with
  | true =>
    rw [step_halted halted] at stepped
    cases stepped
    exact .inl rfl
  | false =>
    by_cases last : e.state.stage = .writeBack
    · rw [step_writeBack last] at stepped
      cases stepped
      show e.state.writeBack.memory = _ ∨ _ ∧ _ ∧ ∃ i, _ ∧ e.state.writeBack.memory = _
      unfold State.writeBack
      cases found : e.state.current? with
      | none => exact .inl rfl
      | some i =>
        cases writes : e.state.signals.mw with
        | false => exact .inl (by simp [State.storedMemory, writes])
        | true => exact .inr ⟨last, rfl, i, rfl, by simp [State.storedMemory, writes]⟩
    · rw [step_running halted] at stepped
      obtain ⟨state, moved, rfl⟩ := map_eq_ok.1 stepped
      obtain ⟨u, worked, rfl⟩ := map_eq_ok.1 moved
      have kept := State.memory_of_work worked last
      exact .inl kept

theorem assigns_iff :
    e.Assigns address value ↔ e.state.stage = .writeBack ∧ e.state.signals.mw = true ∧
      e.state.alu = address ∧ ∃ i, e.state.current? = some i ∧ e.state.register i.src2 = value := by
  constructor
  · intro assigns
    -- In empty memory every write leaves a trace.
    obtain ⟨f, stepped, memory⟩ := assigns {}
    rcases memory_of_step stepped with kept | ⟨last, writes, i, found, written⟩
    · have cell : (Memory.write {} address value).get? address = none := by
        rw [← memory, kept]
        rfl
      simp at cell
    · have cell := congrArg (·.get? address) (memory.symm.trans written)
      simp only [Memory.get?_write, if_true] at cell
      split at cell
      · next same => exact ⟨last, writes, same.symm, i, found, (Option.some.inj cell).symm⟩
      · simp [Memory.get?] at cell
  · rintro ⟨last, writes, rfl, i, found, rfl⟩ memory
    refine ⟨_, step_writeBack last, ?_⟩
    have found : ({ e.state with memory } : State).current? = some i := found
    simp [moved, State.writeBack, found, State.storedMemory, writes, State.register]

theorem InPhase.exists_current (phase : e.InPhase) (last : e.state.stage = .writeBack)
    (writes : e.state.signals.mw = true) : ∃ i, e.state.current? = some i := by
  have decoded := phase.prepared.decoded (.inr last)
  cases found : e.state.current? with
  | some i => exact ⟨i, rfl⟩
  | none =>
    unfold State.Decoded State.InWork at decoded
    simp only [found] at decoded
    simp [decoded] at writes

theorem exists_commits_of_writeBack (last : e.state.stage = .writeBack)
    (legible : ∀ i ∈ e.state.current?, ∃ text, i.render = .ok text) : ∃ m f, e.Commits m f := by
  have same : e.state.writeBack.current? = e.state.current? := by
    unfold State.writeBack
    split <;> rfl
  have legible : ∀ i ∈ (e.moved { e.state.writeBack with stage := .fetch }).state.current?,
      ∃ text, i.render = .ok text := same.symm ▸ legible
  obtain ⟨m, shown⟩ := exists_snapshotAt_eq_ok legible e.state.stage false
  exact ⟨m, _, isHalted_of_stage .writeBack last (by simp), step_writeBack last, shown⟩

end Engine

namespace Breakpoint
variable {b : Breakpoint} {e f : Engine} {m : Snapshot} {address : Int}

/-- A breakpoint on data memory goes by the machine before the step alone. -/
theorem stopsAfter_iff (enabled : b.enabled = true) (kind : b.kind = .memoryWrite)
    (watched : b.address = some address) (stepped : e.step = .ok f) (state : m.state = f.state)
    (stage : m.stage = e.state.stage) :
    b.stopsAfter m e.state = .ok true ↔
      e.state.stage = .writeBack ∧ e.state.signals.mw = true ∧ e.state.alu = address := by
  have asked : b.stopsAfter m e.state = .ok true ↔
      e.state.stage = .writeBack ∧ f.state.signals.mw = true ∧ address = f.state.alu := by
    simp [stopsAfter, enabled, kind, watched, state, stage, and_assoc]
  rw [asked]
  by_cases last : e.state.stage = .writeBack
  · rw [Engine.step_writeBack last] at stepped
    cases stepped
    obtain ⟨signals, alu⟩ := e.state.signals_writeBack
    show _ ∧ e.state.writeBack.signals.mw = true ∧ address = e.state.writeBack.alu ↔ _
    rw [signals, alu, eq_comm (a := address)]
  · simp [last]

end Breakpoint

namespace Session
variable {s t origin : Session} {m : Snapshot}

theorem step_eq_ok (made : step s = .ok m t) :
    ∃ e, s.engine.step = .ok e ∧ m.state = e.state ∧ m.stage = s.engine.state.stage := by
  obtain ⟨_, committed, -⟩ := exists_commit_of_step made
  rcases commit_eq_ok committed with ⟨e, commits, -⟩ | ⟨halted, shown, -⟩
  · obtain ⟨state, stage, -⟩ := Engine.shown_of_snapshotAt commits.shown
    exact ⟨e, commits.step, state, stage⟩
  · obtain ⟨state, stage, -⟩ := Engine.shown_of_snapshotAt shown
    exact ⟨s.engine, Engine.step_halted halted, state, stage⟩

section
variable {limit : Option Int} {b : Breakpoint} {address : Int} (started : Started limit origin)
  (handled : Handled origin s) (enabled : b.enabled = true) (kind : b.kind = .memoryWrite)
  (watched : b.address = some address)

include started handled enabled kind watched

/-- A breakpoint on an address of data memory stops at just the steps that put the second source of the
instruction there, also where that changes nothing. So it stops at every step that changes what the address
holds or that it holds something, and there is something there whenever it has stopped. A step that writes
comes back where no operation failed before, or else where the instruction can be shown. -/
theorem memoryWrite_stops :
    (∀ m t, step s = .ok m t →
      (b.stopsAfter m s.engine.state = .ok true ↔ ∃ i, s.engine.state.current? = some i ∧
        s.engine.Assigns address (s.engine.state.register i.src2)) ∧
      (m.state.memory.get? address ≠ s.engine.state.memory.get? address →
        b.stopsAfter m s.engine.state = .ok true) ∧
      (b.stopsAfter m s.engine.state = .ok true →
        ∃ i, s.engine.state.current? = some i ∧
          m.state.memory.get? address = some (s.engine.state.register i.src2))) ∧
    ((∃ value, s.engine.Assigns address value) → (∀ l ∈ s.listeners, l.Quiet) →
      (Completed origin s ∨ ∀ i ∈ s.engine.state.current?, ∃ text, i.render = .ok text) →
      ∃ m t, step s = .ok m t) := by
  obtain ⟨phase, -⟩ := handled.throughout Engine.InPhase.step Engine.inPhase_load started.inPhase
  refine ⟨fun m t made => ?_, fun ⟨value, assigns⟩ quiet shown => ?_⟩
  · obtain ⟨e, stepped, state, stage⟩ := step_eq_ok made
    have stops : b.stopsAfter m s.engine.state = .ok true ↔ ∃ i, s.engine.state.current? = some i ∧
        s.engine.Assigns address (s.engine.state.register i.src2) := by
      rw [Breakpoint.stopsAfter_iff enabled kind watched stepped state stage]
      constructor
      · rintro ⟨last, writes, place⟩
        obtain ⟨i, found⟩ := phase.exists_current last writes
        exact ⟨i, found, Engine.assigns_iff.2 ⟨last, writes, place, i, found, rfl⟩⟩
      · rintro ⟨i, -, assigns⟩
        obtain ⟨last, writes, place, -⟩ := Engine.assigns_iff.1 assigns
        exact ⟨last, writes, place⟩
    refine ⟨stops, fun changed => ?_, fun hit => ?_⟩
    · rw [state] at changed
      rcases Engine.memory_of_step stepped with kept | ⟨last, writes, i, found, written⟩
      · rw [kept] at changed
        exact absurd rfl changed
      · rw [written, Memory.get?_write] at changed
        split at changed
        · next place =>
          exact stops.2 ⟨i, found, Engine.assigns_iff.2 ⟨last, writes, place.symm, i, found, rfl⟩⟩
        · exact absurd rfl changed
    · obtain ⟨i, found, assigns⟩ := stops.1 hit
      obtain ⟨f, again, written⟩ := assigns s.engine.state.memory
      obtain rfl : e = f := Except.ok.inj (stepped.symm.trans again)
      exact ⟨i, found, by rw [state, written]; simp⟩
  · obtain ⟨last, -⟩ := Engine.assigns_iff.1 assigns
    have legible : ∀ i ∈ s.engine.state.current?, ∃ text, i.render = .ok text :=
      shown.elim (fun completed => completed.showable started (by simp [last])) id
    obtain ⟨m, e, commits⟩ := Engine.exists_commits_of_writeBack last legible
    exact ⟨m, _, step_running quiet commits⟩

end

theorem memoryWrite_stops_at_zero : ∃ (origin s t : Session) (b : Breakpoint) (m : Snapshot),
    Started (some 4) origin ∧ Completed origin s ∧ b.kind = .memoryWrite ∧ b.address = some 0 ∧
      s.engine.state.program = [{ binary := "0100000".toList }] ∧
      s.engine.state.memory.get? 0 = none ∧ step s = .ok m t ∧
      b.stopsAfter m s.engine.state = .ok true ∧ m.state.memory.get? 0 = some 0 := by
  let origin : Session := { history := { limit := 4 } }
  have engine : Engine.create (.upTo 0) none = .ok {} := rfl
  have session : create {} (some 1000) (some 4) = .ok origin := rfl
  have started : Started (some 4) origin := .created engine session
  let i : Instruction := { binary := "0100000".toList }
  let put : Session := { origin with engine := origin.engine.load [i] }
  let one := Operation.step.act.after put
  let two := Operation.step.act.after one
  let s := Operation.step.act.after two
  have completed : Completed origin s :=
    (((Completed.start.put [i]).next .step (Act.eq_ok_of_result? (by decide +kernel))).next .step
      (Act.eq_ok_of_result? (by decide +kernel))).next .step (Act.eq_ok_of_result? (by decide +kernel))
  let b : Breakpoint := { kind := .memoryWrite, address := some 0 }
  obtain ⟨stops, back⟩ := memoryWrite_stops (b := b) started completed.handled rfl rfl rfl
  have found : s.engine.state.current? = some i := by decide +kernel
  have writes : s.engine.Assigns 0 (s.engine.state.register i.src2) :=
    Engine.assigns_iff.2 ⟨by decide +kernel, by decide +kernel, by decide +kernel, i, found, rfl⟩
  have silent : s.listeners = [] := by decide +kernel
  obtain ⟨m, t, made⟩ := back ⟨_, writes⟩ (by simp [silent]) (.inl completed)
  obtain ⟨hit, -, present⟩ := stops m t made
  have hit := hit.2 ⟨i, found, writes⟩
  obtain ⟨j, again, held⟩ := present hit
  obtain rfl : i = j := Option.some.inj (found.symm.trans again)
  exact ⟨origin, s, t, b, m, started, completed, rfl, rfl, by decide +kernel, by decide +kernel, made, hit, held⟩

end Session
end StageMachine
