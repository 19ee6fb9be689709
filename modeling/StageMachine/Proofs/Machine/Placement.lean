import StageMachine.Proofs.Instruction.Relisting
import StageMachine.Proofs.Machine.Phase
import StageMachine.Proofs.Machine.Steps

/-! A program that stands inside another one, behind instructions that do nothing. Where the two are run
side by side, every stage of the one is the same stage of the other, with the program counter further on by
as many places; before its start the one has empty cycles where the other goes through idle instructions.
A program that stays where it is may be made of other lines, if its instructions do the same. -/
namespace StageMachine
open Assembly

namespace Instruction
variable {i j : Instruction}

/-- Instructions that the machine does the same for: of the same word and the same typed fields, and with
opcodes that are listed as one. -/
structure Alike (i j : Instruction) : Prop where
  opcode : listedOpcode j.opcode = listedOpcode i.opcode
  fields : j.fields = i.fields
  binary : j.binary = i.binary

structure IsIdle (i : Instruction) : Prop where
  assembled : i.IsAssembled
  idle : i.opcode = some .nop ∨ i.opcode = none

theorem raw_listedOpcode (i : Instruction) (s : State) :
    Alu.raw { i with opcode := some (listedOpcode i.opcode) } s = Alu.raw i s := by
  unfold Alu.raw
  rcases i.opcode with _ | op
  · rfl
  · cases op <;> rfl

namespace Alike
variable {s t : State} (alike : i.Alike j)

include alike

theorem dest : j.dest = i.dest := congrArg Fields.dest alike.fields

theorem src1 : j.src1 = i.src1 := congrArg Fields.src1 alike.fields

theorem src2 : j.src2 = i.src2 := congrArg Fields.src2 alike.fields

theorem address : j.address = i.address := congrArg Fields.address alike.fields

theorem raw_eq (same : t.registers = s.registers) : Alu.raw j t = Alu.raw i s := by
  have immediate : j.immediate = i.immediate := congrArg Fields.immediate alike.fields
  have register (r : Option Int) : t.register r = s.register r := by simp only [State.register, same]
  rw [← raw_listedOpcode j, ← raw_listedOpcode i]
  simp only [Alu.raw, alike.opcode, alike.src1, alike.src2, immediate, register]

theorem compute_eq (width : Option Width) (same : t.registers = s.registers) :
    Alu.compute width j t = Alu.compute width i s := by
  unfold Alu.compute
  rw [alike.raw_eq same]

end Alike

namespace IsIdle
variable (idle : i.IsIdle)

include idle

theorem dest : i.dest = none := idle.assembled.dest_eq_none idle.idle

theorem controls_eq : controls i.opcode = { rw := true } := by
  rcases idle.idle with shown | shown <;> rw [shown] <;> rfl

theorem raw_eq (s : State) : Alu.raw i s = 0 := by
  rcases idle.idle with shown | shown <;> simp [Alu.raw, shown]

theorem compute_eq {width : Option Width} (masks : ∀ w ∈ width, w.Masks) (s : State) :
    Alu.compute width i s = .ok 0 := by
  rw [compute_eq_ok masks, idle.raw_eq]
  cases width <;> simp [cut]

end IsIdle
end Instruction

theorem not_jump_of_controls {opcode : Option Opcode} (other : opcode ≠ some .jmp) :
    ((controls opcode).pl && (controls opcode).jb) = false := by
  rcases opcode with _ | op
  · rfl
  · cases op <;> first | rfl | exact absurd rfl other

structure Placed (distance : Nat) (program whole : List Instruction) : Prop where
  inside : ∀ place i, program[place]? = some i → ∃ j, whole[distance + place]? = some j ∧ i.Alike j
  before : ∀ place < distance, ∃ j, whole[place]? = some j ∧ j.IsIdle
  length_le : distance + program.length ≤ whole.length
  assembled : ∀ i ∈ program, i.IsAssembled
  whole_assembled : ∀ i ∈ whole, i.IsAssembled

/-- What is asked of a program that is moved by a distance: no width stops it, and nothing in it names a
place. -/
structure Movable (width : Option Width) (program : List Instruction) : Prop where
  masks : ∀ w ∈ width, w.Masks
  relative : ∀ i ∈ program, i.opcode ≠ some .jmp

/-- Instructions that are in work at the same time. Where there is none, because the place is before the
program, the other program may have an idle one. -/
inductive Counterpart (distance : Nat) : Option Instruction → Option Instruction → Prop where
  | none : Counterpart distance none none
  | alike {i j : Instruction} (alike : i.Alike j) : Counterpart distance (some i) (some j)
  | idle {j : Instruction} (moved : 0 < distance) (idle : j.IsIdle) : Counterpart distance none (some j)

namespace State
variable {distance : Nat} {width : Option Width} {s t : State}

theorem writeBack_eq_of_none (found : s.current? = none) : s.writeBack = { s with pc := s.pc + 1 } := by
  simp [writeBack, found]

theorem writeBack_eq_of_isIdle {i : Instruction} (idle : i.IsIdle) (found : s.current? = some i)
    (signals : s.signals = controls i.opcode) : s.writeBack = { s with pc := s.pc + 1 } := by
  rw [idle.controls_eq] at signals
  have memory : s.storedMemory i = s.memory := by simp [storedMemory, signals]
  have registers : s.writtenRegisters i s.memory = s.registers := by simp [writtenRegisters, idle.dest]
  simp [writeBack, found, memory, registers, nextPc, signals]

/-- The machine in a program and the machine in the other program that it is placed in. What the stages
hand on is the same if the program stays where it is. -/
structure Shifted (distance : Nat) (s t : State) : Prop where
  registers : t.registers = s.registers
  memory : t.memory = s.memory
  alu : t.alu = s.alu
  stage : t.stage = s.stage
  pc : t.pc = s.pc + distance
  inner : distance = 0 → t.index = s.index ∧ t.signals = s.signals

theorem shifted_load (program whole : List Instruction) :
    ({ program } : State).Shifted 0 { program := whole } :=
  ⟨rfl, rfl, rfl, rfl, rfl, fun _ => ⟨rfl, rfl⟩⟩

namespace Shifted
variable (shifted : s.Shifted distance t)

include shifted

theorem register (r : Option Int) : t.register r = s.register r := by
  simp only [State.register, shifted.registers]

theorem counterpart (placed : Placed distance s.program t.program) (fetched : s.Fetched)
    (other : t.Fetched) : Counterpart distance s.current? t.current? := by
  obtain ⟨here, inside⟩ := fetched
  obtain ⟨there, -⟩ := other
  rw [shifted.pc] at there
  unfold current?
  rw [here, there]
  by_cases low : s.pc < 0
  -- nothing is in work here, and there at most an instruction that stands before the program
  · rw [if_pos low]
    split
    · exact .none
    · next past =>
      have before : (s.pc + distance).toNat < distance := by omega
      obtain ⟨j, found, idle⟩ := placed.before _ before
      rw [found]
      exact .idle (by omega) idle
  · have bound : s.pc.toNat < s.program.length := by omega
    have present := List.getElem?_eq_getElem bound
    obtain ⟨j, found, alike⟩ := placed.inside _ _ present
    have place : (s.pc + distance).toNat = distance + s.pc.toNat := by omega
    rw [if_neg low, if_neg (by omega), place, present, found]
    exact .alike alike

theorem fetch : s.fetch.Shifted distance t.fetch where
  registers := shifted.registers
  memory := shifted.memory
  alu := shifted.alu
  stage := shifted.stage
  pc := shifted.pc
  inner := fun same => ⟨by simp [State.fetch, shifted.pc, same], (shifted.inner same).2⟩

theorem decode (counterpart : Counterpart distance s.current? t.current?) :
    Agree (Shifted distance) s.decode t.decode := by
  have signals {one other : Signals} (same : distance = 0 → other = one) :
      ({ s with signals := one } : State).Shifted distance { t with signals := other } :=
    { shifted with inner := fun stays => ⟨(shifted.inner stays).1, same stays⟩ }
  unfold State.decode
  generalize s.current? = found at counterpart
  generalize t.current? = other at counterpart
  cases counterpart with
  | none => exact .value (signals fun _ => rfl)
  | @alike i j alike =>
    simp only [alike.binary]
    cases Signals.decode i.binary with
    | error fault => exact .fault fault
    | ok told => exact .value (signals fun _ => rfl)
  | idle moved idle =>
    -- only there a signal is switched on, which write-back does not heed
    simp only [idle.assembled.decode_binary]
    exact .value (signals fun stays => by omega)

theorem execute (counterpart : Counterpart distance s.current? t.current?)
    (masks : 0 < distance → ∀ w ∈ width, w.Masks) :
    Agree (Shifted distance) (s.execute width) (t.execute width) := by
  have result (alu : Int) : ({ s with alu } : State).Shifted distance { t with alu } :=
    { shifted with alu := rfl }
  unfold State.execute
  generalize s.current? = found at counterpart
  generalize t.current? = other at counterpart
  cases counterpart with
  | none => exact .value (result 0)
  | @alike i j alike =>
    simp only [alike.compute_eq width shifted.registers]
    cases Alu.compute width i s with
    | error fault => exact .fault fault
    | ok alu => exact .value (result alu)
  | idle moved idle =>
    simp only [idle.compute_eq (masks moved)]
    exact .value (result 0)

theorem nextPc {i j : Instruction} (alike : i.Alike j) (signals : t.signals = s.signals)
    (relative : 0 < distance → (s.signals.pl && s.signals.jb) = false) :
    t.nextPc j = s.nextPc i + distance := by
  unfold State.nextPc
  rw [signals, shifted.alu, shifted.pc, alike.src1, alike.address, shifted.register]
  split
  · next loads =>
    split
    · next jumps =>
      have stays : ¬ 0 < distance := fun moved => by simpa [loads, jumps] using relative moved
      omega
    · split <;> omega
  · omega

theorem writeBack_alike {i j : Instruction} (alike : i.Alike j) (found : s.current? = some i)
    (other : t.current? = some j) (signals : t.signals = s.signals)
    (relative : 0 < distance → (s.signals.pl && s.signals.jb) = false) :
    s.writeBack.Shifted distance t.writeBack := by
  have memory : t.storedMemory j = s.storedMemory i := by
    simp only [storedMemory, signals, shifted.memory, shifted.alu, alike.src2, shifted.register]
  have registers : t.writtenRegisters j (s.storedMemory i) = s.writtenRegisters i (s.storedMemory i) := by
    simp only [writtenRegisters, hasRegister, writtenValue, alike.dest, signals, shifted.registers,
      shifted.alu]
    rfl
  have written : ({ s with
        memory := s.storedMemory i, registers := s.writtenRegisters i (s.storedMemory i) } : State).Shifted
      distance { t with
        memory := t.storedMemory j, registers := t.writtenRegisters j (t.storedMemory j) } :=
    { shifted with registers := memory ▸ registers, memory }
  unfold State.writeBack
  rw [found, other]
  exact { written with pc := written.nextPc alike signals relative }

theorem writeBack_idle {j : Instruction} (idle : j.IsIdle) (moved : 0 < distance)
    (found : s.current? = none) (other : t.current? = some j) (signals : t.signals = controls j.opcode) :
    s.writeBack.Shifted distance t.writeBack := by
  rw [writeBack_eq_of_isIdle idle other signals, writeBack_eq_of_none found]
  exact { shifted with pc := by simp [shifted.pc, Int.add_right_comm], inner := fun stays => by omega }

theorem writeBack_none (found : s.current? = none) (other : t.current? = none) :
    s.writeBack.Shifted distance t.writeBack := by
  rw [writeBack_eq_of_none found, writeBack_eq_of_none other]
  exact { shifted with pc := by simp [shifted.pc, Int.add_right_comm] }

theorem writeBack (counterpart : Counterpart distance s.current? t.current?)
    (placed : Placed distance s.program t.program) (movable : 0 < distance → Movable width s.program)
    (decoded : s.Decoded) (other : t.Decoded) : s.writeBack.Shifted distance t.writeBack := by
  generalize here : s.current? = one at counterpart
  generalize there : t.current? = another at counterpart
  cases counterpart with
  | none => exact shifted.writeBack_none here there
  | @alike i j alike =>
    have signals := other.decode_eq there
    rw [alike.binary, decoded.decode_eq here] at signals
    refine shifted.writeBack_alike alike here there (Except.ok.inj signals).symm fun moved => ?_
    rw [decoded.signals_eq placed.assembled here]
    exact not_jump_of_controls ((movable moved).relative i (Engine.mem_of_current? here))
  | idle moved idle =>
    exact shifted.writeBack_idle idle moved here there (other.signals_eq placed.whole_assembled there)

/-- Every stage of a program is the same stage where the program is placed in another one. -/
theorem advance (placed : Placed distance s.program t.program)
    (movable : 0 < distance → Movable width s.program) (prepared : s.Prepared width)
    (other : t.Prepared width) : Agree (Shifted distance) (s.advance width) (t.advance width) := by
  have next {u v : State} (worked : u.Shifted distance v) :
      ({ u with stage := s.stage.next } : State).Shifted distance { v with stage := t.stage.next } :=
    { worked with stage := by rw [shifted.stage] }
  have counterpart (begun : s.stage ≠ .fetch) : Counterpart distance s.current? t.current? :=
    shifted.counterpart placed (prepared.fetched begun) (other.fetched (shifted.stage ▸ begun))
  refine Agree.map ?_ next
  unfold work
  rw [shifted.stage]
  cases stage : s.stage with
  | fetch => exact .value shifted.fetch
  | decode => exact shifted.decode (counterpart (by simp [stage]))
  | execute => exact shifted.execute (counterpart (by simp [stage])) fun moved => (movable moved).masks
  | writeBack =>
    have decoded := prepared.decoded (.inr stage)
    have other := other.decoded (.inr (shifted.stage.trans stage))
    exact .value (shifted.writeBack (counterpart (by simp [stage])) placed movable decoded other)

end Shifted
end State

namespace Engine
variable {distance : Nat} {program whole : List Instruction} {e f : Engine}

structure Beside (distance : Nat) (program whole : List Instruction) (e f : Engine) : Prop where
  width_eq : f.width = e.width
  movable : 0 < distance → Movable e.width program
  program_eq : e.state.program = program
  whole_eq : f.state.program = whole
  count : f.stepCount = e.stepCount + 4 * distance
  phase : e.InPhase
  other : f.InPhase
  shifted : e.state.Shifted distance f.state

theorem beside_of_path {trail : List Moment} {start : Engine} (path : (e.load whole).Path trail start)
    (length : trail.length = 4 * distance) (shifted : ({ program } : State).Shifted distance start.state)
    (movable : 0 < distance → Movable e.width program) :
    Beside distance program whole (e.load program) start where
  width_eq := path.width_eq
  movable
  program_eq := rfl
  whole_eq := path.program_eq
  count := by rw [path.stepCount_eq, length]; rfl
  phase := inPhase_load e program
  other := path.inPhase (inPhase_load e whole)
  shifted

namespace Beside
variable (beside : Beside distance program whole e f) (placed : Placed distance program whole)

include beside placed

theorem running (running : e.isHalted = false) : f.isHalted = false := by
  have length := placed.length_le
  unfold isHalted State.isHalted at running ⊢
  rw [beside.program_eq] at running
  rw [beside.whole_eq, beside.shifted.stage, beside.shifted.pc]
  simp only [Bool.and_eq_false_imp, decide_eq_false_iff_not] at running ⊢
  intro ready
  have := running ready
  omega

theorem shownStep (running : e.isHalted = false) :
    Agree (Beside distance program whole) e.shownStep f.shownStep := by
  have solid : e.Legible := fun i member =>
    (placed.assembled i (beside.program_eq ▸ member)).render_eq_ok
  have other : f.Legible := fun i member =>
    (placed.whole_assembled i (beside.whole_eq ▸ member)).render_eq_ok
  have ongoing := beside.running placed running
  have agree : Agree (State.Shifted distance) (e.state.advance e.width) (f.state.advance f.width) := by
    rw [beside.width_eq]
    refine beside.shifted.advance ?_ ?_ beside.phase.prepared (beside.width_eq ▸ beside.other.prepared)
    · rwa [beside.program_eq, beside.whole_eq]
    · rw [beside.program_eq]
      exact beside.movable
  rw [solid.shownStep_eq, other.shownStep_eq, step_running running, step_running ongoing]
  refine agree.made.map fun ⟨shifted, moved, moved'⟩ => ?_
  have stepped := step_running running
  have stepped' := step_running ongoing
  rw [moved] at stepped
  rw [moved'] at stepped'
  exact {
    width_eq := beside.width_eq
    movable := beside.movable
    program_eq := (State.program_of_advance moved).trans beside.program_eq
    whole_eq := (State.program_of_advance moved').trans beside.whole_eq
    count := by
      have := beside.count
      show f.stepCount + 1 = e.stepCount + 1 + 4 * distance
      omega
    phase := beside.phase.step stepped
    other := beside.other.step stepped'
    shifted }

/-- Up to the end of a program its steps are those of the program that it is placed in. -/
theorem steps {t : Nat} (within : (t : ℕ∞) ≤ e.stagesToEnd) :
    Agree (Beside distance program whole) (e.steps t) (f.steps t) := by
  induction t with
  | zero => exact .value beside
  | succ t ih =>
    have before : (t : ℕ∞) < e.stagesToEnd :=
      lt_of_lt_of_le (Nat.cast_lt.2 (Nat.lt_succ_self t)) within
    exact (ih before.le).made.bind fun ⟨so, made, _⟩ =>
      so.shownStep placed (running_of_lt_stagesToEnd made before)

end Beside
end Engine
end StageMachine
