import Mathlib.Data.Int.Bitwise
import StageMachine.Proofs.Machine.Path

/-! Four stages are one instruction. A program sees registers, data memory and the program counter; an
instruction changes them in one go, and the stages between two fetches change them just so. -/
namespace StageMachine

/-- What a program can see of the machine. -/
structure Visible where
  registers : List Int
  memory : Memory
  pc : Int

def State.visible (s : State) : Visible := ⟨s.registers, s.memory, s.pc⟩

def cut : Option Width → Int → Int
  | none, value => value
  | some w, value => value % 2 ^ w.bits

namespace Visible

def read (v : Visible) : Option Int → Int
  | none => 0
  | some i => v.registers.getD i.toNat 0

def put (v : Visible) (dest : Option Int) (value : Int) : List Int :=
  match dest with
  | none => v.registers
  | some i => v.registers.set i.toNat value

/-- What an instruction does. A disjunction gives zero. -/
def perform (width : Option Width) (i : Instruction) (v : Visible) : Visible :=
  let a := v.read i.src1
  let b := v.read i.src2
  let immediate := i.immediate.getD 0
  let result (value : Int) : Visible := { v with registers := v.put i.dest value, pc := v.pc + 1 }
  match i.opcode with
  | some .add => result (cut width (a + b))
  | some .sub => result (cut width (a - b))
  | some .and => result (cut width (Int.land a b))
  | some .or => result 0
  | some .addi => result (cut width (a + immediate))
  | some .ldi | some .mov => result (cut width immediate)
  | some .load => result (v.memory.read (cut width a))
  | some .store => { v with memory := v.memory.write (cut width a) b, pc := v.pc + 1 }
  | some .brz => { v with pc := if cut width a = 0 then v.pc + i.address.getD 0 else v.pc + 1 }
  | some .jmp => { v with pc := a }
  | some .nop | none => { v with pc := v.pc + 1 }

/-- What the machine does at the program counter. Nothing stands before the program. -/
def next (width : Option Width) (program : List Instruction) (v : Visible) : Visible :=
  if v.pc < 0 then { v with pc := v.pc + 1 }
  else
    match program[v.pc.toNat]? with
    | some i => v.perform width i
    | none => v

end Visible

theorem bitAnd_eq_land (m n : Int) : bitAnd m n = Int.land m n := by
  have apart (m n : Nat) : m ^^^ (m &&& n) = Nat.ldiff m n := by
    apply Nat.eq_of_testBit_eq
    intro place
    simp only [Nat.testBit_xor, Nat.testBit_and, Nat.testBit_ldiff]
    cases m.testBit place <;> cases n.testBit place <;> rfl
  cases m <;> cases n <;> simp [bitAnd, Int.land, apart]

theorem Width.checkWidth_eq_ok {w : Width} (masks : w.Masks) : checkWidth w.roomy w.bits = .ok () := by
  obtain ⟨short, roomy⟩ := masks
  rw [checkWidth, if_neg (by omega), if_neg (by omega), if_neg (by simp [roomy])]

theorem Width.checkWidth_eq_error {w : Width} (stuck : ¬ w.Masks) :
    checkWidth w.roomy w.bits = .error w.fault := by
  rw [checkWidth, fault, if_neg (by omega)]
  by_cases wide : widestMask < (w.bits : Int)
  · rw [if_pos wide, if_pos wide]
  · have roomless : w.roomy ≠ true := fun roomy => stuck ⟨Int.not_lt.1 wide, roomy⟩
    rw [if_neg wide, if_neg wide, if_pos (by simpa using roomless)]

theorem Width.fault_eq (w : Width) : w.fault = .tooManyPlaces ∨ w.fault = .noRoom := by
  unfold fault
  split
  · exact .inl rfl
  · exact .inr rfl

theorem wrap_eq_cut (w : Width) (value : Int) : wrap w.bits value = cut (some w) value := by
  rw [wrap_eq_emod, cut, Nat.pow_eq]
  norm_cast

theorem eq_cut_of_compute {width : Option Width} {i : Instruction} {s : State} {alu : Int}
    (computed : Alu.compute width i s = .ok alu) : alu = cut width (Alu.raw i s) := by
  cases width with
  | none =>
    cases computed
    rfl
  | some w =>
    obtain ⟨-, -, rfl⟩ := map_eq_ok.1 computed
    exact wrap_eq_cut w _

theorem compute_eq_ok {width : Option Width} (masks : ∀ w ∈ width, w.Masks) (i : Instruction)
    (s : State) : Alu.compute width i s = .ok (cut width (Alu.raw i s)) := by
  cases width with
  | none => rfl
  | some w =>
    rw [← wrap_eq_cut]
    show (checkWidth w.roomy w.bits).map _ = _
    rw [w.checkWidth_eq_ok (masks w rfl)]
    rfl

theorem compute_eq_error {w : Width} (stuck : ¬ w.Masks) (i : Instruction) (s : State) :
    Alu.compute (some w) i s = .error w.fault := by
  show (checkWidth w.roomy w.bits).map _ = _
  rw [w.checkWidth_eq_error stuck]
  rfl

def controls : Option Opcode → Signals
  | some .add | some .and | some .nop | none => { rw := true }
  | some .sub | some .or => { rw := true, bc := true }
  | some .addi | some .ldi | some .mov => { mb := true, rw := true }
  | some .load => { md := true, rw := true, jb := true }
  | some .store => { mw := true }
  | some .brz => { mb := true, pl := true }
  | some .jmp => { mb := true, md := true, pl := true, jb := true }

theorem Instruction.IsAssembled.decode_binary {i : Instruction} (assembled : i.IsAssembled) :
    Signals.decode i.binary = .ok (controls i.opcode) := by
  rw [assembled.binary_eq]
  rcases i.opcode with _ | op
  · rfl
  · cases op <;> rfl

theorem Instruction.IsAssembled.dest_eq_none {i : Instruction} (assembled : i.IsAssembled)
    (idle : i.opcode = some .nop ∨ i.opcode = none) : i.dest = none := by
  have laid := assembled.laid
  show i.fields.dest = none
  generalize i.fields = f at laid
  rcases idle with shown | shown
  · rw [shown] at laid
    cases laid with
    | ternary kind => simp at kind
    | immediate kind => simp at kind
    | idle kind => rfl
  · rw [shown] at laid
    cases laid
    rfl

namespace State
variable {s : State} {i : Instruction}

theorem register_eq_read {r : Option Int} (known : ∀ i ∈ r, Assembly.IsRegister i) :
    s.register r = s.visible.read r := by
  cases r with
  | none => rfl
  | some i =>
    have low : 0 ≤ i := (known i rfl).1
    simp [register, Visible.read, visible, show ¬ i < 0 by omega]

theorem writtenRegisters_eq_put (known : ∀ d ∈ i.dest, Assembly.IsRegister d)
    (eight : s.registers.length = 8) (memory : Memory) :
    s.writtenRegisters i memory =
      if s.signals.rw then s.visible.put i.dest (s.writtenValue memory) else s.registers := by
  unfold writtenRegisters
  cases shown : i.dest with
  | none => simp [Visible.put, visible]
  | some d =>
    obtain ⟨low, high⟩ := known d shown
    have inside : s.hasRegister d = true := by
      have : d < 8 := high
      simp [hasRegister, eight, low, this]
    simp [inside, Visible.put, visible]

theorem visible_writeBack {width : Option Width} (assembled : i.IsAssembled)
    (current : s.current? = some i) (eight : s.registers.length = 8)
    (signals : s.signals = controls i.opcode) (result : s.alu = cut width (Alu.raw i s)) :
    s.writeBack.visible = s.visible.perform width i := by
  have writable := assembled.laid.writable
  have a : s.register i.src1 = s.visible.read i.src1 := register_eq_read writable.src1
  have b : s.register i.src2 = s.visible.read i.src2 := register_eq_read writable.src2
  have zero : cut width 0 = 0 := by cases width <;> simp [cut]
  have registers (memory : Memory) := writtenRegisters_eq_put writable.dest eight memory
  simp only [Alu.raw, a, b] at result
  simp only [writeBack, current]
  -- An idle instruction switches on the write of a register, but names none.
  cases shown : i.opcode with
  | none =>
    simp only [shown, controls] at signals
    have idle := assembled.dest_eq_none (.inr shown)
    simp [visible, Visible.perform, shown, registers, storedMemory, nextPc, signals, idle, Visible.put]
  | some op =>
    simp only [shown, controls] at signals result
    cases op with
    | add | sub | addi | ldi | mov =>
      simp [visible, Visible.perform, shown, registers, storedMemory, nextPc, signals, writtenValue, result]
    | and =>
      simp [visible, Visible.perform, shown, registers, storedMemory, nextPc, signals, writtenValue, result,
        bitAnd_eq_land]
    | or =>
      simp [visible, Visible.perform, shown, registers, storedMemory, nextPc, signals, writtenValue, result,
        zero]
    | load =>
      simp [visible, Visible.perform, shown, registers, storedMemory, nextPc, signals, writtenValue, result]
    | store =>
      simp [visible, Visible.perform, shown, registers, storedMemory, nextPc, signals, result, b]
    | brz =>
      simp [visible, Visible.perform, shown, registers, storedMemory, nextPc, signals, result]
      rfl
    | jmp =>
      simp [visible, Visible.perform, shown, registers, storedMemory, nextPc, signals]
      exact a
    | nop =>
      have idle := assembled.dest_eq_none (.inl shown)
      simp [visible, Visible.perform, shown, registers, storedMemory, nextPc, signals, idle, Visible.put]

theorem visible_writeBack_none (current : s.current? = none) :
    s.writeBack.visible = { s.visible with pc := s.pc + 1 } := by
  simp [writeBack, current, visible]

def fetched (s : State) : State := { s with index := s.pc, stage := .decode }

def decoded (s : State) (signals : Signals) : State := { s with signals, stage := .execute }

def executed (s : State) (alu : Int) : State := { s with alu, stage := .writeBack }

theorem advance_fetch {width : Option Width} (ready : s.stage = .fetch) :
    s.advance width = .ok s.fetched := by
  simp [advance, work, ready, Except.map, fetch, fetched, Stage.next]

theorem advance_decode {width : Option Width} (ready : s.stage = .decode) {signals : Signals}
    (read : s.decode = .ok { s with signals }) : s.advance width = .ok (s.decoded signals) := by
  simp [advance, work, ready, read, Except.map, decoded, Stage.next]

theorem advance_execute {width : Option Width} (ready : s.stage = .execute) {alu : Int}
    (computed : s.execute width = .ok { s with alu }) : s.advance width = .ok (s.executed alu) := by
  simp [advance, work, ready, computed, Except.map, executed, Stage.next]

theorem advance_writeBack {width : Option Width} (ready : s.stage = .writeBack) :
    s.advance width = .ok { s.writeBack with stage := .fetch } := by
  simp [advance, work, ready, Except.map, Stage.next]

theorem current?_fetched :
    s.fetched.current? = if s.pc < 0 then none else s.program[s.pc.toNat]? := rfl

end State

namespace Engine
variable {e : Engine}

def moved (e : Engine) (state : State) : Engine := { e with state, stepCount := e.stepCount + 1 }

theorem commits_moved {state : State} (legible : e.Legible) (running : e.isHalted = false)
    (advanced : e.state.advance e.width = .ok state) : ∃ m, e.Commits m (e.moved state) := by
  apply legible.commits running
  rw [step_running running, advanced]
  rfl

theorem isHalted_of_stage (stage : Stage) (reached : e.state.stage = stage) (inside : stage ≠ .fetch) :
    e.isHalted = false := by
  simp [isHalted, State.isHalted, reached, inside]

theorem path_decoded (legible : e.Legible) (running : e.isHalted = false)
    (ready : e.state.stage = .fetch) {signals : Signals}
    (read : e.state.fetched.decode = .ok { e.state.fetched with signals }) :
    ∃ trail, e.Path trail ((e.moved e.state.fetched).moved (e.state.fetched.decoded signals)) ∧
      trail.length = 2 := by
  obtain ⟨m, first⟩ := commits_moved legible running (State.advance_fetch ready)
  obtain ⟨n, second⟩ := commits_moved (first.legible legible) (isHalted_of_stage .decode rfl (by simp))
    (State.advance_decode rfl read)
  exact ⟨_, (Path.start.next first).next second, rfl⟩

theorem path_written (legible : e.Legible) (running : e.isHalted = false)
    (ready : e.state.stage = .fetch) {signals : Signals} {alu : Int}
    (read : e.state.fetched.decode = .ok { e.state.fetched with signals })
    (computed : (e.state.fetched.decoded signals).execute e.width =
      .ok { e.state.fetched.decoded signals with alu }) :
    ∃ trail after, e.Path trail after ∧ trail.length = 4 ∧
      after.state =
        { ((e.state.fetched.decoded signals).executed alu).writeBack with stage := .fetch } := by
  obtain ⟨trail, path, two⟩ := path_decoded legible running ready read
  have kept : ((e.moved e.state.fetched).moved (e.state.fetched.decoded signals)).Legible := legible
  obtain ⟨m, third⟩ := commits_moved kept (isHalted_of_stage .execute rfl (by simp))
    (State.advance_execute rfl computed)
  obtain ⟨n, fourth⟩ := commits_moved (third.legible kept) (isHalted_of_stage .writeBack rfl (by simp))
    (State.advance_writeBack rfl)
  exact ⟨_, _, (path.next third).next fourth, by simp [two], rfl⟩

section
variable {source : Text} {program : List Instruction}
  (assembled : (Assembly.assemble source).outcome = .ok program) (loaded : e.state.program = program)
  (ready : e.state.stage = .fetch) (inside : e.state.pc < program.length)

include loaded ready inside in
theorem isHalted_of_inside : e.isHalted = false := by
  simp [isHalted, State.isHalted, ready, loaded, inside]

include assembled loaded inside in
theorem current?_fetched_assembled (high : 0 ≤ e.state.pc) :
    ∃ i, program[e.state.pc.toNat]? = some i ∧ e.state.fetched.current? = some i ∧ i.IsAssembled := by
  have bound : e.state.pc.toNat < program.length := by omega
  have present := List.getElem?_eq_getElem bound
  refine ⟨_, present, ?_, Assembly.isAssembled_of_assemble assembled _ (List.getElem_mem bound)⟩
  rw [State.current?_fetched, if_neg (by omega), loaded, present]

theorem decode_fetched {i : Instruction} (found : e.state.fetched.current? = some i)
    (solid : i.IsAssembled) :
    e.state.fetched.decode = .ok { e.state.fetched with signals := controls i.opcode } := by
  simp [State.decode, found, solid.decode_binary, Except.map]

include assembled loaded ready inside in
theorem path_before (low : e.state.pc < 0) :
    ∃ trail after, e.Path trail after ∧ trail.length = 4 ∧ after.state.stage = .fetch ∧
      after.state.visible = e.state.visible.next e.width program := by
  have legible : e.Legible := legible_of_assemble (loaded ▸ assembled)
  have found : e.state.fetched.current? = none := by rw [State.current?_fetched, if_pos low]
  have read : e.state.fetched.decode = .ok { e.state.fetched with signals := {} } := by
    simp [State.decode, found]
  have computed : (e.state.fetched.decoded {}).execute e.width =
      .ok { e.state.fetched.decoded {} with alu := 0 } := by
    have found : (e.state.fetched.decoded {}).current? = none := found
    simp [State.execute, found]
  obtain ⟨trail, after, path, four, made⟩ :=
    path_written legible (isHalted_of_inside loaded ready inside) ready read computed
  refine ⟨trail, after, path, four, by rw [made], ?_⟩
  have shown : ((e.state.fetched.decoded {}).executed 0).writeBack.visible =
      { e.state.visible with pc := e.state.pc + 1 } := State.visible_writeBack_none found
  rw [made, Visible.next, if_pos (by exact low)]
  exact shown

include assembled loaded ready inside in
theorem path_instruction (eight : e.state.registers.length = 8) (high : 0 ≤ e.state.pc)
    (masks : ∀ w ∈ e.width, w.Masks) :
    ∃ trail after, e.Path trail after ∧ trail.length = 4 ∧ after.state.stage = .fetch ∧
      after.state.visible = e.state.visible.next e.width program := by
  have legible : e.Legible := legible_of_assemble (loaded ▸ assembled)
  obtain ⟨i, present, found, solid⟩ := current?_fetched_assembled assembled loaded inside high
  have computed : (e.state.fetched.decoded (controls i.opcode)).execute e.width =
      .ok { e.state.fetched.decoded (controls i.opcode) with
        alu := cut e.width (Alu.raw i (e.state.fetched.decoded (controls i.opcode))) } := by
    have found : (e.state.fetched.decoded (controls i.opcode)).current? = some i := found
    simp [State.execute, found, compute_eq_ok masks, Except.map]
  obtain ⟨trail, after, path, four, made⟩ := path_written legible
    (isHalted_of_inside loaded ready inside) ready (decode_fetched found solid) computed
  refine ⟨trail, after, path, four, by rw [made], ?_⟩
  have shown : ((e.state.fetched.decoded (controls i.opcode)).executed (cut e.width
      (Alu.raw i (e.state.fetched.decoded (controls i.opcode))))).writeBack.visible =
      e.state.visible.perform e.width i :=
    State.visible_writeBack solid found eight rfl rfl
  have here : program[e.state.visible.pc.toNat]? = some i := present
  have after_start : ¬ e.state.visible.pc < 0 := Int.not_lt.2 high
  rw [made, Visible.next, if_neg after_start, here]
  exact shown

include assembled loaded ready inside in
theorem path_halted (eight : e.state.registers.length = 8) (high : 0 ≤ e.state.pc)
    (masks : ∀ w ∈ e.width, w.Masks)
    (past : program.length ≤ (e.state.visible.next e.width program).pc) :
    ∃ trail last, e.Path trail last ∧ trail.length = 4 ∧ last.isHalted = true := by
  obtain ⟨trail, last, path, four, ended, shown⟩ :=
    path_instruction assembled loaded ready inside eight high masks
  refine ⟨trail, last, path, four, ?_⟩
  rw [← shown, ← loaded, ← path.program_eq] at past
  simpa [isHalted, State.isHalted, ended, State.visible] using past

include assembled loaded ready inside in
/-- With a width that no number can be cut to, an instruction gets no further than its third stage. -/
theorem path_stuck (high : 0 ≤ e.state.pc) {w : Width} (wide : e.width = some w) (stuck : ¬ w.Masks) :
    ∃ trail last, e.Path trail last ∧ trail.length = 2 ∧ last.state.stage = .execute ∧
      last.state.visible = e.state.visible ∧ last.step = .error w.fault := by
  have legible : e.Legible := legible_of_assemble (loaded ▸ assembled)
  obtain ⟨i, -, found, solid⟩ := current?_fetched_assembled assembled loaded inside high
  obtain ⟨trail, path, two⟩ := path_decoded legible (isHalted_of_inside loaded ready inside) ready
    (decode_fetched found solid)
  have refused := compute_eq_error stuck i (e.state.fetched.decoded (controls i.opcode))
  refine ⟨trail, _, path, two, rfl, rfl, ?_⟩
  have found : (e.state.fetched.decoded (controls i.opcode)).current? = some i := found
  have stopped : (e.state.fetched.decoded (controls i.opcode)).execute e.width = .error w.fault := by
    simp [State.execute, found, wide, refused, Except.map]
  rw [step_running (isHalted_of_stage .execute rfl (by simp))]
  show (((e.state.fetched.decoded (controls i.opcode)).execute e.width).map _).map _ = _
  rw [stopped]
  rfl

include assembled loaded ready inside in
theorem visible_of_stuck (high : 0 ≤ e.state.pc) {w : Width} (wide : e.width = some w) (stuck : ¬ w.Masks)
    {trail : List Moment} {last : Engine} (path : e.Path trail last) :
    last.state.visible = e.state.visible := by
  obtain ⟨two, final, begun, length, -, visible, fails⟩ :=
    path_stuck assembled loaded ready inside high wide stuck
  have within := begun.length_le_of_error fails path
  cases path with
  | start => rfl
  | next before commits =>
    cases before with
    | start =>
      obtain ⟨state, moved, rfl⟩ := commits.after_eq
      rw [State.advance_fetch ready] at moved
      cases moved
      rfl
    | next before earlier =>
      have same := (before.next earlier).next commits
      obtain ⟨-, rfl⟩ := same.unique begun (by simp only [List.length_cons] at within ⊢; omega)
      exact visible

end

/-- Four stages carry out the instruction at the program counter and change nothing else that a program
sees. With a width that no number can be cut to they do so only before the start of the program. -/
theorem four_stages {source : Text} {program : List Instruction}
    (assembled : (Assembly.assemble source).outcome = .ok program) (loaded : e.state.program = program)
    (eight : e.state.registers.length = 8) (ready : e.state.stage = .fetch)
    (inside : e.state.pc < program.length) :
    ((0 ≤ e.state.pc → ∀ w ∈ e.width, w.Masks) →
      ∃ trail after, e.Path trail after ∧ trail.length = 4 ∧ after.state.stage = .fetch ∧
        after.stepCount = e.stepCount + 4 ∧ after.state.program = program ∧ after.width = e.width ∧
        after.state.visible = e.state.visible.next e.width program) ∧
    (0 ≤ e.state.pc → ∀ w ∈ e.width, ¬ w.Masks →
      ∃ trail last, e.Path trail last ∧ trail.length = 2 ∧ last.state.stage = .execute ∧
        last.state.visible = e.state.visible ∧ last.step = .error w.fault) := by
  constructor
  · intro masks
    obtain ⟨trail, after, path, four, ended, shown⟩ : ∃ trail after, e.Path trail after ∧
        trail.length = 4 ∧ after.state.stage = .fetch ∧
        after.state.visible = e.state.visible.next e.width program := by
      by_cases low : e.state.pc < 0
      · exact path_before assembled loaded ready inside low
      · have high := Int.not_lt.1 low
        exact path_instruction assembled loaded ready inside eight high (masks high)
    exact ⟨trail, after, path, four, ended, four ▸ path.stepCount_eq, path.program_eq.trans loaded,
      path.width_eq, shown⟩
  · intro high w wide stuck
    exact path_stuck assembled loaded ready inside high wide stuck

theorem four_stages_load :
    ∃ e : Engine, e.bits = some 4 ∧ e.stepCount = 7 ∧ e.state.pc = 0 ∧
      (Assembly.assemble "LDI R1, 21".toList).outcome = .ok e.state.program ∧
      ∃ trail after, e.Path trail after ∧ trail.length = 4 ∧ after.stepCount = 11 ∧
        after.state.visible = ⟨[0, 5, 0, 0, 0, 0, 0, 0], {}, 1⟩ := by
  let program := [Assembly.instruction "LDI".toList "LDI R1, 21".toList 1 0 (some .ldi)
    { dest := some 1, immediate := some 21 }]
  let e : Engine := {
    width := some ⟨4, by decide, true⟩, stepCount := 7, state := { program, alu := 9, index := -3 } }
  have made : (Assembly.assemble "LDI R1, 21".toList).outcome = .ok program := by rfl
  obtain ⟨trail, after, path, four, -, count, -, -, shown⟩ :=
    (four_stages (e := e) made rfl rfl rfl (by decide)).1 (by decide)
  exact ⟨e, rfl, rfl, rfl, made, trail, after, path, four, count, shown⟩

theorem not_four_stages_of_every_width :
    ¬ ∀ (source : Text) (program : List Instruction) (e : Engine),
      (Assembly.assemble source).outcome = .ok program → e.state.program = program →
      e.state.registers.length = 8 → e.state.stage = .fetch → e.state.pc < program.length →
      ∃ trail after, e.Path trail after ∧ trail.length = 4 := by
  intro every
  let program := [Assembly.instruction "LDI".toList "LDI R1, 5".toList 1 0 (some .ldi)
    { dest := some 1, immediate := some 5 }]
  let e : Engine := { width := some ⟨0x100000000000000000000, by decide, true⟩, state := { program } }
  have made : (Assembly.assemble "LDI R1, 5".toList).outcome = .ok program := by rfl
  obtain ⟨trail, after, path, four⟩ := every _ program e made rfl rfl rfl (by decide)
  obtain ⟨short, last, begun, two, -, -, stops⟩ :=
    path_stuck (e := e) made rfl rfl (by decide) (by decide) rfl (by decide)
  have short := begun.length_le_of_error stops path
  omega

end Engine
end StageMachine
