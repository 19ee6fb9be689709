import StageMachine.Proofs.Machine.Steps

/-! Registers that a program does not read. Where no instruction has a register among its sources, the value
in that register has no effect: two machines that differ in it alone go through the same stages, show the
same moments but for it, and differ in it alone ever after. -/
namespace StageMachine

structure Instruction.Ignores (r : Nat) (i : Instruction) : Prop where
  src1 : i.src1 ≠ some (r : Int)
  src2 : i.src2 ≠ some (r : Int)

namespace State

/-- Two states that are the same but for the value of one register. -/
structure SameBut (r : Nat) (s t : State) : Prop where
  others : ∀ place ≠ r, t.registers[place]? = s.registers[place]?
  size : t.registers.length = s.registers.length
  pc : t.pc = s.pc
  memory : t.memory = s.memory
  program : t.program = s.program
  stage : t.stage = s.stage
  signals : t.signals = s.signals
  alu : t.alu = s.alu
  index : t.index = s.index

namespace SameBut
variable {r : Nat} {width : Option Width} {s t : State} {i : Instruction} (same : s.SameBut r t)

include same

theorem current?_eq : t.current? = s.current? := by
  rw [current?, current?, same.index, same.program]

theorem isHalted_eq : t.isHalted = s.isHalted := by
  rw [isHalted, isHalted, same.stage, same.program, same.pc]

theorem register_eq {source : Option Int} (unread : source ≠ some (r : Int)) :
    t.register source = s.register source := by
  cases source with
  | none => rfl
  | some i =>
    simp only [State.register]
    split
    · rfl
    · next high =>
      have apart : i.toNat ≠ r := by
        rintro rfl
        exact unread (congrArg some (Int.toNat_of_nonneg (Int.not_lt.1 high)).symm)
      simp only [List.getD_eq_getElem?_getD, same.others _ apart]

theorem compute_eq (ignores : i.Ignores r) : Alu.compute width i t = Alu.compute width i s := by
  have a := same.register_eq ignores.src1
  have b := same.register_eq ignores.src2
  simp only [Alu.compute, Alu.raw, a, b]

theorem set (place : Nat) (value : Int) :
    ({ s with registers := s.registers.set place value } : State).SameBut r
      { t with registers := t.registers.set place value } :=
  { same with
    others := fun other apart => by simp only [List.getElem?_set, same.size, same.others other apart]
    size := by simp [same.size] }

theorem decode : Agree (SameBut r) s.decode t.decode := by
  unfold State.decode
  rw [same.current?_eq]
  cases s.current? with
  | none => exact .value { same with signals := rfl }
  | some i =>
    simp only
    cases Signals.decode i.binary with
    | error fault => exact .fault fault
    | ok signals => exact .value { same with signals := rfl }

theorem execute (unread : ∀ i ∈ s.current?, i.Ignores r) :
    Agree (SameBut r) (s.execute width) (t.execute width) := by
  unfold State.execute
  rw [same.current?_eq]
  cases found : s.current? with
  | none => exact .value { same with alu := rfl }
  | some i =>
    simp only [same.compute_eq (unread i found)]
    cases Alu.compute width i s with
    | error fault => exact .fault fault
    | ok alu => exact .value { same with alu := rfl }

theorem write (i : Instruction) (memory : Memory) :
    ({ s with memory, registers := s.writtenRegisters i memory } : State).SameBut r
      { t with memory, registers := t.writtenRegisters i memory } := by
  have kept : ({ s with memory } : State).SameBut r { t with memory } := { same with memory := rfl }
  have value : t.writtenValue memory = s.writtenValue memory := by
    simp only [writtenValue, same.signals, same.alu]
  unfold writtenRegisters
  rw [value]
  cases i.dest with
  | none => exact kept
  | some d =>
    have taken : (t.signals.rw && t.hasRegister d) = (s.signals.rw && s.hasRegister d) := by
      rw [hasRegister, hasRegister, same.signals, same.size]
    simp only
    rw [taken]
    cases s.signals.rw && s.hasRegister d with
    | true => exact kept.set d.toNat (s.writtenValue memory)
    | false => exact kept

theorem nextPc_eq (ignores : i.Ignores r) : t.nextPc i = s.nextPc i := by
  simp only [nextPc, same.signals, same.alu, same.pc, same.register_eq ignores.src1]

theorem writeBack (unread : ∀ i ∈ s.current?, i.Ignores r) : s.writeBack.SameBut r t.writeBack := by
  unfold State.writeBack
  rw [same.current?_eq]
  cases found : s.current? with
  | none => exact { same with pc := congrArg (· + 1) same.pc }
  | some i =>
    have ignores := unread i found
    have memory : t.storedMemory i = s.storedMemory i := by
      simp only [storedMemory, same.signals, same.memory, same.alu, same.register_eq ignores.src2]
    have written := same.write i (s.storedMemory i)
    simp only [memory]
    exact { written with pc := written.nextPc_eq ignores }

theorem advance (unread : ∀ i ∈ s.program, i.Ignores r) :
    Agree (SameBut r) (s.advance width) (t.advance width) := by
  have inWork : ∀ i ∈ s.current?, i.Ignores r := fun i found => unread i (Engine.mem_of_current? found)
  have next {u v : State} (worked : u.SameBut r v) :
      ({ u with stage := s.stage.next } : State).SameBut r { v with stage := t.stage.next } :=
    { worked with stage := congrArg Stage.next same.stage }
  refine Agree.map ?_ next
  unfold work
  rw [same.stage]
  cases s.stage with
  | fetch => exact .value { same with index := same.pc }
  | decode => exact same.decode
  | execute => exact same.execute inWork
  | writeBack => exact .value (same.writeBack inWork)

end SameBut
end State

structure Snapshot.SameBut (r : Nat) (m n : Snapshot) : Prop where
  state : m.state.SameBut r n.state
  rest : n = { m with state := n.state }

namespace Engine
variable {r : Nat} {e f : Engine}

def nextShown (e : Engine) : Except Fault Snapshot := do
  let after ← e.step
  after.snapshotAt e.state.stage e.isHalted

theorem exists_nextShown_of_shownStep {after : Engine} (made : e.shownStep = .ok after) :
    ∃ m, e.nextShown = .ok m := by
  obtain ⟨next, stepped, rest⟩ := bind_eq_ok.1 made
  obtain ⟨m, shown, -⟩ := bind_eq_ok.1 rest
  exact ⟨m, bind_eq_ok.2 ⟨next, stepped, shown⟩⟩

structure SameBut (r : Nat) (e f : Engine) : Prop where
  state : e.state.SameBut r f.state
  width : f.width = e.width
  stepCount : f.stepCount = e.stepCount

namespace SameBut
variable (same : e.SameBut r f)

include same

theorem isHalted_eq : f.isHalted = e.isHalted := same.state.isHalted_eq

theorem step (unread : ∀ i ∈ e.state.program, i.Ignores r) : Agree (SameBut r) e.step f.step := by
  cases halted : e.isHalted with
  | true =>
    rw [step_halted halted, step_halted (same.isHalted_eq.trans halted)]
    exact .value same
  | false =>
    rw [step_running halted, step_running (same.isHalted_eq.trans halted)]
    have alike : Agree (State.SameBut r) (e.state.advance e.width) (f.state.advance f.width) := by
      rw [same.width]
      exact same.state.advance unread
    exact alike.map fun state =>
      ⟨state, same.width, congrArg (· + 1) same.stepCount⟩

theorem snapshotAt (stage : Stage) (halted : Bool) :
    Agree (Snapshot.SameBut r) (e.snapshotAt stage halted) (f.snapshotAt stage halted) := by
  have alike (instruction : Option Instruction) (text : Text) : Snapshot.SameBut r
      { state := e.state, stage, instruction, microSteps := stage.microSteps
        wires := stage.wires, stepCount := e.stepCount, disassembly := text }
      { state := f.state, stage, instruction, microSteps := stage.microSteps
        wires := stage.wires, stepCount := f.stepCount, disassembly := text } :=
    ⟨same.state, by rw [same.stepCount]⟩
  unfold Engine.snapshotAt
  rw [same.state.current?_eq]
  cases halted with
  | true => exact .value ⟨same.state, by rw [same.stepCount]⟩
  | false =>
    cases e.state.current? with
    | none => exact .value (alike none [])
    | some i =>
      cases rendered : i.render with
      | error fault =>
        simp only [rendered]
        exact .fault fault
      | ok text =>
        simp only [rendered]
        exact .value (alike i text)

variable (unread : ∀ i ∈ e.state.program, i.Ignores r)

include unread

theorem nextShown : Agree (Snapshot.SameBut r) e.nextShown f.nextShown := by
  unfold Engine.nextShown
  rw [same.state.stage, same.isHalted_eq]
  exact (same.step unread).bind fun after => after.snapshotAt _ _

theorem shownStep : Agree (SameBut r) e.shownStep f.shownStep := by
  unfold Engine.shownStep
  rw [same.state.stage, same.isHalted_eq]
  exact (same.step unread).bind fun after => (after.snapshotAt _ _).bind fun _ => .value after

theorem steps (n : Nat) : Agree (fun a b => a.SameBut r b ∧ a.state.program = e.state.program)
    (e.steps n) (f.steps n) := by
  refine steps_agree (fun {a b} ⟨alike, program⟩ => ?_) ⟨same, rfl⟩ n
  exact (alike.shownStep (program ▸ unread)).made.imp fun ⟨alike', made, _⟩ =>
    ⟨alike', (program_of_step (step_of_shownStep made)).trans program⟩

end SameBut

/-- A register that no instruction of an assembled program has among its sources has no effect. Two machines
whose states differ in it alone differ in it alone after every number of steps, and so do the moments that
they show. Where numbers can be cut to the width every step is made; a step that one machine cannot make, the
other cannot make either. -/
theorem steps_unread {source : Text} {program : List Instruction}
    (assembled : (Assembly.assemble source).outcome = .ok program) (loaded : e.state.program = program)
    (unread : ∀ i ∈ program, i.Ignores r) (same : e.SameBut r f) (n : Nat) :
    Agree (fun a b => a.SameBut r b ∧ b.isHalted = a.isHalted) (e.steps n) (f.steps n) ∧
      Agree (Snapshot.SameBut r) (e.steps n >>= nextShown) (f.steps n >>= nextShown) ∧
      ((∀ w ∈ e.width, w.Masks) →
        ∃ a m, e.steps n = .ok a ∧ a.nextShown = .ok m) := by
  subst loaded
  have reached := same.steps unread n
  refine ⟨reached.imp fun ⟨alike, _⟩ => ⟨alike, alike.isHalted_eq⟩,
    reached.bind fun ⟨alike, program⟩ => alike.nextShown (program ▸ unread), fun masks => ?_⟩
  obtain ⟨b, made⟩ := steps_eq_ok (Assembly.isAssembled_of_assemble assembled) masks (n + 1)
  obtain ⟨a, reached, next⟩ := bind_eq_ok.1 made
  obtain ⟨m, shown⟩ := exists_nextShown_of_shownStep next
  exact ⟨a, m, reached, shown⟩

theorem steps_unread_fifth : ∃ (program : List Instruction) (e f a b : Engine), e.bits = some 4 ∧
    (Assembly.assemble "ADDI R1, R1, 3\nST R1, R1\nBRZ R2, -2".toList).outcome = .ok program ∧
    e.state.program = program ∧ e.state.registers = [0, 0, 0, 0, 0, 0, 0, 0] ∧
    f.state.registers = [0, 0, 0, 0, 0, 7, 0, 0] ∧ e.steps 21 = .ok a ∧ f.steps 21 = .ok b ∧
    a.state.registers = [0, 6, 0, 0, 0, 0, 0, 0] ∧ b.state.registers = [0, 6, 0, 0, 0, 7, 0, 0] ∧
    a.state.memory.get? 6 = some 6 ∧ a.SameBut 5 b := by
  let program := [
    Assembly.instruction "ADDI".toList "ADDI R1, R1, 3".toList 1 0 (some .addi)
      { dest := some 1, src1 := some 1, immediate := some 3 },
    Assembly.instruction "ST".toList "ST R1, R1".toList 2 1 (some .store) { src1 := some 1, src2 := some 1 },
    Assembly.instruction "BRZ".toList "BRZ R2, -2".toList 3 2 (some .brz)
      { src1 := some 2, address := some (-2) }]
  let e : Engine := { width := some ⟨4, by decide, true⟩, state := { program } }
  let f : Engine := { e with state := { program, registers := [0, 0, 0, 0, 0, 7, 0, 0] } }
  have made : (Assembly.assemble "ADDI R1, R1, 3\nST R1, R1\nBRZ R2, -2".toList).outcome = .ok program := by
    decide +kernel
  have unread : ∀ i ∈ program, i.Ignores 5 := by
    intro i member
    simp only [program, List.mem_cons, List.not_mem_nil, or_false] at member
    rcases member with rfl | rfl | rfl <;> exact ⟨by decide, by decide⟩
  have others : ∀ place ≠ 5, f.state.registers[place]? = e.state.registers[place]? := by
    intro place apart
    match place with
    | 0 | 1 | 2 | 3 | 4 | 6 | 7 => rfl
    | _ + 8 => rfl
  have same : e.SameBut 5 f := ⟨⟨others, rfl, rfl, rfl, rfl, rfl, rfl, rfl, rfl⟩, rfl, rfl⟩
  obtain ⟨agree, -, total⟩ := steps_unread made rfl unread same 21
  obtain ⟨a, -, first, -⟩ := total (by decide)
  have seen : (e.steps 21).map (fun a => (a.state.registers, a.state.memory.get? 6)) =
      .ok ([0, 6, 0, 0, 0, 0, 0, 0], some 6) := by decide +kernel
  have seen' : (f.steps 21).map (fun b => b.state.registers) = .ok [0, 6, 0, 0, 0, 7, 0, 0] := by
    decide +kernel
  rw [first] at agree seen
  obtain ⟨b, second, alike, -⟩ := agree.exists_eq_ok
  obtain ⟨registers, stored⟩ := Prod.mk.inj (Except.ok.inj seen)
  rw [second] at seen'
  exact ⟨program, e, f, a, b, rfl, made, rfl, rfl, rfl, first, second, registers, Except.ok.inj seen',
    stored, alike⟩

end Engine
end StageMachine
