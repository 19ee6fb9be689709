import StageMachine.Proofs.Machine.Phase
import StageMachine.Proofs.Session.Current
import StageMachine.Proofs.Session.Undo

/-! What a step back announces. It shows the machine with the stage that runs next and the instruction that
was fetched last. Within an instruction that is the one the stage works on; before a fetch it is still the
one that ended. -/
namespace StageMachine

namespace State
variable {width : Option Width} {s t : State}

/-- The instruction that the next stage works on: before a fetch the one at the program counter, which is not
in work yet. -/
def due? (s : State) : Option Instruction :=
  if s.stage = .fetch then if s.pc < 0 then none else s.program[s.pc.toNat]? else s.current?

theorem index_of_work (worked : s.work width = .ok t) :
    t.index = if s.stage = .fetch then s.pc else s.index := by
  unfold work at worked
  split at worked
  · next stage =>
    cases worked
    simp [stage, fetch]
  · next stage =>
    obtain ⟨signals, rfl, -⟩ := decode_eq_ok worked
    simp [stage]
  · next stage =>
    obtain ⟨alu, rfl, -⟩ := execute_eq_ok worked
    simp [stage]
  · next stage =>
    cases worked
    unfold writeBack
    split <;> simp [stage]

theorem current?_of_advance (moved : s.advance width = .ok t) : t.current? = s.due? := by
  obtain ⟨u, worked, rfl⟩ := map_eq_ok.1 moved
  have place := index_of_work worked
  have program := program_of_work worked
  unfold due? current?
  simp only [place, program]
  split <;> rfl

end State

namespace Engine
variable {e before after : Engine} {m n : Snapshot}

theorem named_of_snapshotAt {stage : Stage} (shown : e.snapshotAt stage false = .ok m) :
    m.instruction = e.state.current? ∧
      m.instruction.elim (.ok []) Instruction.render = .ok m.disassembly := by
  rw [snapshotAt, if_neg (by simp)] at shown
  cases found : e.state.current? with
  | none =>
    rw [found] at shown
    cases shown
    exact ⟨rfl, rfl⟩
  | some i =>
    rw [found] at shown
    obtain ⟨text, rendered, made⟩ := bind_eq_ok.1 shown
    cases made
    exact ⟨rfl, rendered⟩

theorem disassembly_congr {f : Engine} {stage other : Stage} (shown : e.snapshotAt stage false = .ok m)
    (again : f.snapshotAt other false = .ok n) (same : m.instruction = n.instruction) :
    m.disassembly = n.disassembly := by
  obtain ⟨-, first⟩ := named_of_snapshotAt shown
  obtain ⟨-, second⟩ := named_of_snapshotAt again
  rw [same] at first
  exact Except.ok.inj (first.symm.trans second)

theorem Commits.current?_eq (commits : before.Commits m after) : after.state.current? = before.state.due? := by
  obtain ⟨state, moved, rfl⟩ := commits.after_eq
  exact State.current?_of_advance moved

theorem Commits.instruction_eq (commits : before.Commits m after) : m.instruction = before.state.due? := by
  rw [(named_of_snapshotAt commits.shown).1, commits.current?_eq]

end Engine

namespace Session
variable {limit : Option Int} {origin s : Session} {before : Moment} {older : List Moment} {deep : Prop}

theorem Coherent.stepCount_succ {limit : Nat} (c : Coherent limit s) {ended : Moment}
    (shown : s.history.toList = before :: ended :: older) : ended.stepCount + 1 = before.stepCount := by
  obtain ⟨_, path⟩ := c.path
  rw [shown] at path
  have newest : (ended :: older)[0]? = some ended := rfl
  exact path.back.1.stepCount_getElem? newest

/-- The moment before a fetch, if it is kept, is that of the stage that ended the instruction before. -/
theorem Threaded.ended {limit : Nat} (threaded : Threaded limit s) {ended : Moment}
    (shown : s.history.toList = before :: ended :: older) (one : ended.stepCount + 1 = before.stepCount)
    (fetching : before.state.stage = .fetch) :
    ended.state.stage = .writeBack ∧ before.state.current? = ended.state.current? := by
  obtain ⟨first, trail, -, -, path, part, -⟩ := threaded.newest shown
  obtain ⟨trail, rfl⟩ : ∃ rest, trail = ended :: rest := by
    obtain ⟨place, found⟩ := List.mem_iff_getElem?.1 (part.subset List.mem_cons_self)
    have counted : ended.stepCount + (place + 1) = before.stepCount := path.stepCount_getElem? found
    obtain rfl : place = 0 := by omega
    exact ⟨_, (List.cons_head?_tail (by simpa [List.head?_eq_getElem?] using found)).symm⟩
  obtain ⟨-, _, commits⟩ := path.back
  have last : ended.state.stage = .writeBack := by
    have next : before.state.stage = ended.state.stage.next := commits.stage_eq
    rw [fetching] at next
    cases ending : ended.state.stage <;> simp [ending, Stage.next] at next ⊢
  have kept : before.state.current? = ended.state.due? := commits.current?_eq
  exact ⟨last, by rw [kept, State.due?, if_neg (by simp [last])]⟩

/-- A step back announces the stage that the next step makes. In the middle of an instruction it names the
instruction of that stage too. Before a fetch it names the instruction that ended, which the next step shows
only if the program counter leads to it again. -/
theorem stepBack_announces (started : Started limit origin) (called : Called deep origin s)
    (shown : s.history.toList = before :: older) :
    ∃ b t, stepBack s = .ok (some b) t ∧ b.halted = false ∧ b.stage = before.state.stage ∧
      b.instruction = before.state.current? ∧
      (∀ m u, step t = .ok m u → m.stage = b.stage ∧ m.instruction = before.state.due? ∧
        (b.instruction = m.instruction → b.disassembly = m.disassembly) ∧
        (b.stage ≠ .fetch → b.instruction = m.instruction)) ∧
      (b.stage = .fetch → ∀ ended ∈ older.head?, ¬ deep ∨ ended.stepCount + 1 = before.stepCount →
        ended.state.stage = .writeBack ∧ b.instruction = ended.state.current?) ∧
      ((∀ l ∈ s.listeners, l.Passive) → ∃ m u, step t = .ok m u) := by
  have coherent := started.coherent.1
  have threaded := coherent.threaded.changes called.changes
  obtain ⟨b, history, back, -, -, -, seen⟩ := threaded.exists_back shown
  obtain ⟨-, -, n, after, -, -, commits, -⟩ := threaded.newest shown
  obtain ⟨-, stage, open_end, -⟩ := Engine.snapshotAt_running seen
  have named : b.instruction = before.state.current? := (Engine.named_of_snapshotAt seen).1
  refine ⟨b, _, back, open_end, stage, named, fun m u made => ?_, fun fetching ended newest next => ?_,
    fun passive => ?_⟩
  · obtain ⟨v, committed, -⟩ := exists_commit_of_step made
    -- The stage that was undone is made again.
    obtain rfl : m = n := by
      rcases commit_eq_ok committed with ⟨e, again, -⟩ | ⟨halted, -⟩
      · exact (again.unique commits).1
      · exact absurd (commits.running.symm.trans halted) (by simp)
    have due : m.instruction = before.state.due? := commits.instruction_eq
    have stages : m.stage = before.state.stage := (Engine.snapshotAt_running commits.shown).2.1
    refine ⟨stages.trans stage.symm, due, Engine.disassembly_congr seen commits.shown, fun within => ?_⟩
    rw [stage] at within
    rw [named, due, State.due?, if_neg within]
  · cases older with
    | nil => cases newest
    | cons w older =>
      cases newest
      have one : ended.stepCount + 1 = before.stepCount :=
        next.elim (fun shallow => (coherent.moves (called.moves shallow)).stepCount_succ shown) id
      obtain ⟨last, same⟩ := threaded.ended shown one (stage.symm.trans fetching)
      exact ⟨last, named.trans same⟩
  · let t : Session := { s with engine := s.engine.atMoment before, history, last := none }
    obtain ⟨u, made, -⟩ := step_of_commit (s := t) passive (commit_running commits)
    exact ⟨n, u, made⟩

theorem stepBack_announces_execute :
    ∃ (origin s t u : Session) (b m : Snapshot), Started (some 8) origin ∧ Called True origin s ∧
      stepBack s = .ok (some b) t ∧ step t = .ok m u ∧ m.stage = .execute ∧ m.stage = b.stage ∧
      b.instruction = m.instruction ∧ b.disassembly = m.disassembly := by
  let origin : Session := { history := { limit := 8 } }
  have engine : Engine.create (.upTo 0) none = .ok {} := rfl
  have session : create {} (some 1000) (some 8) = .ok origin := rfl
  have started : Started (some 8) origin := .created engine session
  let onward := Operation.step.act.after
  let s := onward (onward (onward ((Operation.load "LDI R1, 5".toList).act.after origin)))
  have ready : Called True origin _ := (Called.idle origin).operation (.load "LDI R1, 5".toList) (.inl trivial)
  have called : Called True origin s :=
    ((ready.operation .step (.inl trivial)).operation .step (.inl trivial)).operation .step (.inl trivial)
  obtain ⟨before, older, shown, executing⟩ : ∃ before older, s.history.toList = before :: older ∧
      before.state.stage = .execute := by
    have newest : s.history.toList.head?.any (·.state.stage == .execute) = true := by decide +kernel
    cases shown : s.history.toList with
    | nil => simp [shown] at newest
    | cons before older => exact ⟨before, older, rfl, by simpa [shown] using newest⟩
  obtain ⟨b, t, back, -, stage, -, next, -, goes⟩ := stepBack_announces started called shown
  have silent : s.listeners = [] := by decide +kernel
  obtain ⟨m, u, made⟩ := goes (by simp [silent])
  obtain ⟨same, -, alike, within⟩ := next m u made
  have one := within (by simp [stage, executing])
  have third : m.stage = .execute := by rw [same, stage, executing]
  exact ⟨origin, s, t, u, b, m, started, called, back, made, third, same, one, alike one⟩

/-- A step back over a fetch names the instruction that ended, and the next step the one that is fetched. -/
theorem not_announced_before_every_step :
    ¬ ∀ (limit : Option Int) (origin s t u : Session) (b m : Snapshot), Started limit origin →
      Reaches origin s → stepBack s = .ok (some b) t → step t = .ok m u →
        b.stage = m.stage ∧ b.instruction = m.instruction ∧ b.disassembly = m.disassembly := by
  intro announced
  let origin : Session := { history := { limit := 8 } }
  have engine : Engine.create (.upTo 0) none = .ok {} := rfl
  have session : create {} (some 1000) (some 8) = .ok origin := rfl
  let operations := .load "LDI R1, 5\nNOP".toList :: List.replicate 5 Operation.step
  let s := operations.foldl (fun t operation => operation.act.after t) origin
  have reached : Reaches origin s := Reaches.start.foldl operations
  have apart : (stepBack.result? s).any (fun back => back.1.any fun b =>
      (step.result? back.2).any fun made => b.disassembly != made.1.disassembly) = true := by
    decide +kernel
  obtain ⟨⟨shown, t⟩, back, apart⟩ := (Option.any_eq_true _ _).1 apart
  obtain ⟨b, rfl, apart⟩ := (Option.any_eq_true _ _).1 apart
  obtain ⟨⟨m, u⟩, made, apart⟩ := (Option.any_eq_true _ _).1 apart
  obtain ⟨-, -, same⟩ := announced _ _ _ _ _ _ _ (.created engine session) reached
    (Act.result?_eq_some.1 back) (Act.result?_eq_some.1 made)
  simp [same] at apart

end Session
end StageMachine
