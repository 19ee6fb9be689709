import StageMachine.Proofs.Machine.Phase
import StageMachine.Proofs.Machine.Steps

/-! Machines of different widths. A program that neither reads memory nor branches goes the same way
through both, and what the narrower one holds is what the wider one holds, reduced to its bits. -/
namespace StageMachine

theorem bit_emod (b : Bool) (m : Int) (n : Nat) : Int.bit b m % 2 ^ (n + 1) = Int.bit b (m % 2 ^ n) := by
  have low : 0 ≤ m % 2 ^ n := Int.emod_nonneg _ (by positivity)
  have high : m % 2 ^ n < 2 ^ n := Int.emod_lt_of_pos _ (by positivity)
  have parts := Int.mul_ediv_add_emod m (2 ^ n)
  have split : Int.bit b m = Int.bit b (m % 2 ^ n) + 2 ^ (n + 1) * (m / 2 ^ n) := by
    rw [Int.bit_val, Int.bit_val, pow_succ]
    linarith
  rw [split, Int.add_mul_emod_self_left, Int.bit_val]
  cases b <;> exact Int.emod_eq_of_lt (by simp; omega) (by simp [pow_succ]; omega)

theorem land_emod (a b : Int) (n : Nat) :
    Int.land a b % 2 ^ n = Int.land (a % 2 ^ n) (b % 2 ^ n) := by
  induction n generalizing a b with
  | zero =>
    simp only [pow_zero, Int.emod_one]
    rfl
  | succ n ih =>
    rw [← Int.bit_decomp a, ← Int.bit_decomp b, Int.land_bit, bit_emod, bit_emod, bit_emod, Int.land_bit, ih]

/-- An instruction that neither reads memory nor changes where the program goes on. -/
structure Instruction.IsPlain (i : Instruction) : Prop where
  notLoad : i.opcode ≠ some .load
  notBrz : i.opcode ≠ some .brz
  notJmp : i.opcode ≠ some .jmp

theorem Instruction.IsPlain.controls {i : Instruction} (plain : i.IsPlain) :
    (controls i.opcode).md = false ∧ (controls i.opcode).pl = false := by
  obtain ⟨notLoad, notBrz, notJmp⟩ := plain
  unfold StageMachine.controls
  split <;> first | exact ⟨rfl, rfl⟩ | contradiction

theorem cut_emod {w : Width} {wide : Option Width} (wider : ∀ v ∈ wide, w.bits ≤ v.bits) {a b : Int} :
    cut (some w) a = cut wide b % 2 ^ w.bits ↔ a % 2 ^ w.bits = b % 2 ^ w.bits := by
  cases wide with
  | none => exact Iff.rfl
  | some v => rw [cut, cut, Int.emod_emod_of_dvd b (pow_dvd_pow 2 (wider v rfl))]

namespace State

/-- The same moment, with registers and result reduced to a number of bits. -/
structure Reduced (bits : Nat) (narrow broad : State) : Prop where
  registers : narrow.registers = broad.registers.map (· % 2 ^ bits)
  pc : narrow.pc = broad.pc
  program : narrow.program = broad.program
  stage : narrow.stage = broad.stage
  signals : narrow.signals = broad.signals
  alu : narrow.alu = broad.alu % 2 ^ bits
  index : narrow.index = broad.index

variable {w : Width} {wide : Option Width} {s t u v : State} {i : Instruction}

namespace Reduced
variable (reduced : s.Reduced w.bits t)

include reduced

theorem current?_eq : s.current? = t.current? := by
  rw [current?, current?, reduced.index, reduced.program]

theorem isHalted_eq : s.isHalted = t.isHalted := by
  rw [isHalted, isHalted, reduced.stage, reduced.program, reduced.pc]

theorem register_eq (r : Option Int) : s.register r = t.register r % 2 ^ w.bits := by
  cases r with
  | none => rfl
  | some i =>
    simp only [register, reduced.registers, List.getD_eq_getElem?_getD, List.getElem?_map]
    split
    · rfl
    · cases t.registers[i.toNat]? <;> rfl

theorem raw_emod (i : Instruction) : Alu.raw i s % 2 ^ w.bits = Alu.raw i t % 2 ^ w.bits := by
  have a := reduced.register_eq i.src1
  have b := reduced.register_eq i.src2
  unfold Alu.raw
  simp only [a, b]
  split
  case h_1 => rw [← Int.add_emod]
  case h_2 => rw [← Int.sub_emod]
  case h_3 => rw [Int.emod_add_emod]
  case h_4 | h_5 => rfl
  case h_6 => rw [bitAnd_eq_land, bitAnd_eq_land, land_emod, Int.emod_emod, Int.emod_emod, ← land_emod]
  case h_7 | h_8 | h_9 => exact Int.emod_emod ..
  case h_10 | h_11 | h_12 | h_13 => rfl

theorem hasRegister_eq (d : Int) : s.hasRegister d = t.hasRegister d := by
  simp [hasRegister, reduced.registers]

theorem fetch : s.fetch.Reduced w.bits t.fetch :=
  { reduced with index := reduced.pc }

theorem decode (first : s.decode = .ok u) (second : t.decode = .ok v) : u.Reduced w.bits v := by
  unfold State.decode at first second
  rw [reduced.current?_eq] at first
  split at first
  · next found =>
    rw [found] at second
    cases first
    cases second
    exact { reduced with signals := rfl }
  · next i found =>
    rw [found] at second
    obtain ⟨signals, told, rfl⟩ := map_eq_ok.1 first
    obtain ⟨others, again, rfl⟩ := map_eq_ok.1 second
    exact { reduced with signals := Except.ok.inj (told.symm.trans again) }

theorem execute (wider : ∀ v ∈ wide, w.bits ≤ v.bits) (first : s.execute (some w) = .ok u)
    (second : t.execute wide = .ok v) : u.Reduced w.bits v := by
  unfold State.execute at first second
  rw [reduced.current?_eq] at first
  split at first
  · next found =>
    rw [found] at second
    cases first
    cases second
    exact { reduced with alu := by simp }
  · next i found =>
    rw [found] at second
    obtain ⟨a, narrow, rfl⟩ := map_eq_ok.1 first
    obtain ⟨b, broad, rfl⟩ := map_eq_ok.1 second
    have alu : a = b % 2 ^ w.bits := by
      rw [eq_cut_of_compute narrow, eq_cut_of_compute broad, cut_emod wider]
      exact reduced.raw_emod i
    exact { reduced with alu }

theorem writtenRegisters_eq (direct : s.signals.md = false) (i : Instruction) (m n : Memory) :
    s.writtenRegisters i m = (t.writtenRegisters i n).map (· % 2 ^ w.bits) := by
  have other : t.signals.md = false := reduced.signals ▸ direct
  unfold writtenRegisters writtenValue
  rw [direct, other]
  split
  · next d _ =>
    rw [← reduced.hasRegister_eq d, ← reduced.signals]
    split
    · simp [reduced.registers, reduced.alu, List.map_set]
    · exact reduced.registers
  · exact reduced.registers

theorem writeBack (plain : ∀ i ∈ s.current?, s.signals.md = false ∧ s.signals.pl = false) :
    s.writeBack.Reduced w.bits t.writeBack := by
  unfold State.writeBack
  rw [← reduced.current?_eq]
  cases found : s.current? with
  | none => exact { reduced with pc := by simp [reduced.pc] }
  | some i =>
    obtain ⟨direct, onward⟩ := plain i found
    have other : t.signals.pl = false := reduced.signals ▸ onward
    exact { reduced with
      registers := reduced.writtenRegisters_eq direct i _ _
      pc := by simp [nextPc, onward, other, reduced.pc] }

theorem advance (wider : ∀ v ∈ wide, w.bits ≤ v.bits)
    (plain : s.stage = .writeBack → ∀ i ∈ s.current?, s.signals.md = false ∧ s.signals.pl = false)
    (first : s.advance (some w) = .ok u) (second : t.advance wide = .ok v) : u.Reduced w.bits v := by
  obtain ⟨u, worked, rfl⟩ := map_eq_ok.1 first
  obtain ⟨v, other, rfl⟩ := map_eq_ok.1 second
  have same := reduced.stage
  have after : u.Reduced w.bits v := by
    unfold work at worked other
    rw [← same] at other
    cases stage : s.stage with
    | fetch =>
      simp only [stage] at worked other
      cases worked
      cases other
      exact reduced.fetch
    | decode =>
      simp only [stage] at worked other
      exact reduced.decode worked other
    | execute =>
      simp only [stage] at worked other
      exact reduced.execute wider worked other
    | writeBack =>
      simp only [stage] at worked other
      cases worked
      cases other
      exact reduced.writeBack (plain stage)
  exact { after with stage := congrArg Stage.next same }

end Reduced

end State

namespace Engine
variable {e f : Engine} {bits : Nat} {w : Width}

structure Reduced (bits : Nat) (narrow broad : Engine) : Prop where
  state : narrow.state.Reduced bits broad.state
  stepCount : narrow.stepCount = broad.stepCount

structure Paired (w : Width) (narrow broad : Engine) : Prop where
  reduced : narrow.Reduced w.bits broad
  width : narrow.width = some w
  wider : ∀ v ∈ broad.width, w.bits ≤ v.bits
  phase : narrow.InPhase
  assembled : ∀ i ∈ narrow.state.program, i.IsAssembled
  plain : ∀ i ∈ narrow.state.program, i.IsPlain

theorem Paired.step {e' f' : Engine} (paired : e.Paired w f) (first : e.step = .ok e')
    (second : f.step = .ok f') : e'.Paired w f' := by
  obtain ⟨reduced, width, wider, phase, assembled, plain⟩ := paired
  have moved : e'.Reduced w.bits f' := by
    have halts : e.isHalted = f.isHalted := reduced.state.isHalted_eq
    cases halted : e.isHalted with
    | true =>
      rw [step_halted halted] at first
      rw [step_halted (halts ▸ halted)] at second
      cases first
      cases second
      exact reduced
    | false =>
      rw [step_running halted] at first
      rw [step_running (halts ▸ halted)] at second
      obtain ⟨s, advanced, rfl⟩ := map_eq_ok.1 first
      obtain ⟨t, other, rfl⟩ := map_eq_ok.1 second
      rw [width] at advanced
      refine ⟨reduced.state.advance wider (fun last i found => ?_) advanced other,
        congrArg (· + 1) reduced.stepCount⟩
      have decoded := phase.prepared.decoded (.inr last)
      rw [decoded.signals_eq assembled found]
      exact (plain i (mem_of_current? found)).controls
  have kept := program_of_step first
  exact ⟨moved, (width_of_step first).trans width, (width_of_step second) ▸ wider, phase.step first,
    kept ▸ assembled, kept ▸ plain⟩

theorem paired_load {program : List Instruction} (assembled : ∀ i ∈ program, i.IsAssembled)
    (plain : ∀ i ∈ program, i.IsPlain) (width : e.width = some w)
    (wider : ∀ v ∈ f.width, w.bits ≤ v.bits) : (e.load program).Paired w (f.load program) where
  reduced := {
    state := {
      registers := by simp [load]
      pc := rfl
      program := rfl
      stage := rfl
      signals := rfl
      alu := by simp [load]
      index := rfl }
    stepCount := rfl }
  width := width
  wider := wider
  phase := inPhase_load e program
  assembled := assembled
  plain := plain

/-- However many steps two machines make through a plain program, the narrower one is at the same place as
the wider one and holds its registers and its result reduced to its bits. Both make any number of steps,
unless one is so wide that no number can be cut to it: that one gets no further than two steps. -/
theorem steps_reduced {source : Text} {program : List Instruction}
    (assembled : (Assembly.assemble source).outcome = .ok program) (plain : ∀ i ∈ program, i.IsPlain)
    (width : e.width = some w) (wider : ∀ v ∈ f.width, w.bits ≤ v.bits) :
    (program = [] ∨ w.Masks ∧ (∀ v ∈ f.width, v.Masks) →
      ∀ n, ∃ narrow broad, (e.load program).steps n = .ok narrow ∧
        (f.load program).steps n = .ok broad ∧ narrow.Reduced w.bits broad) ∧
    (∀ n narrow broad, (e.load program).steps n = .ok narrow → (f.load program).steps n = .ok broad →
      narrow.Reduced w.bits broad) ∧
    (program ≠ [] → ∀ g : Engine, ∀ v ∈ g.width, ¬ v.Masks →
      (∃ last, (g.load program).steps 2 = .ok last ∧ last.state.stage = .execute) ∧
        ∀ n > 2, (g.load program).steps n = .error v.fault) := by
  have solid := Assembly.isAssembled_of_assemble assembled
  have related (n : Nat) (narrow broad : Engine) (first : (e.load program).steps n = .ok narrow)
      (second : (f.load program).steps n = .ok broad) : narrow.Reduced w.bits broad := by
    have paired : Paired w narrow broad :=
      steps_related Paired.step (paired_load solid plain width wider) first second
    exact paired.reduced
  refine ⟨fun masks n => ?_, related, fun some g v wide stuck => steps_stuck assembled some wide stuck⟩
  have made (g : Engine) (masks : program = [] ∨ ∀ v ∈ g.width, v.Masks) :
      ∃ last, (g.load program).steps n = .ok last := by
    rcases masks with rfl | masks
    · exact ⟨_, steps_halted rfl n⟩
    · exact steps_eq_ok (e := g.load program) solid masks n
  obtain ⟨narrow, first⟩ := made e (masks.imp_right fun masks v set => by
    rw [width] at set
    exact Option.some.inj set ▸ masks.1)
  obtain ⟨broad, second⟩ := made f (masks.imp_right And.right)
  exact ⟨narrow, broad, first, second, related n narrow broad first second⟩

theorem steps_reduced_negative :
    ∃ (program : List Instruction) (e f narrow broad : Engine), e.bits = some 4 ∧ f.bits = none ∧
      (Assembly.assemble "ADDI R1, R0, -3\nAND R2, R1, R1\nST R3, R2".toList).outcome = .ok program ∧
      (∀ i ∈ program, i.IsPlain) ∧ (e.load program).steps 12 = .ok narrow ∧
      (f.load program).steps 12 = .ok broad ∧ narrow.Reduced 4 broad ∧
      narrow.state.registers = [0, 13, 13, 0, 0, 0, 0, 0] ∧
      broad.state.registers = [0, -3, -3, 0, 0, 0, 0, 0] := by
  let program := [
    Assembly.instruction "ADDI".toList "ADDI R1, R0, -3".toList 1 0 (some .addi)
      { dest := some 1, src1 := some 0, immediate := some (-3) },
    Assembly.instruction "AND".toList "AND R2, R1, R1".toList 2 1 (some .and)
      { dest := some 2, src1 := some 1, src2 := some 1 },
    Assembly.instruction "ST".toList "ST R3, R2".toList 3 2 (some .store)
      { src1 := some 3, src2 := some 2 }]
  let e : Engine := { width := some ⟨4, by decide, true⟩ }
  let f : Engine := {}
  have made : (Assembly.assemble "ADDI R1, R0, -3\nAND R2, R1, R1\nST R3, R2".toList).outcome =
      .ok program := by decide +kernel
  have plain : ∀ i ∈ program, i.IsPlain := by
    intro i member
    simp only [program, List.mem_cons, List.not_mem_nil, or_false] at member
    rcases member with rfl | rfl | rfl <;> constructor <;> decide
  obtain ⟨narrow, broad, first, second, reduced⟩ :=
    (steps_reduced (e := e) (f := f) made plain rfl (by simp [f])).1
      (.inr ⟨by decide, by simp [f]⟩) 12
  refine ⟨program, e, f, narrow, broad, rfl, rfl, made, plain, first, second, reduced, ?_, ?_⟩
  · have seen : ((e.load program).steps 12).map (·.state.registers) =
        .ok [0, 13, 13, 0, 0, 0, 0, 0] := by decide +kernel
    rw [first] at seen
    exact Except.ok.inj seen
  · have seen : ((f.load program).steps 12).map (·.state.registers) =
        .ok [0, -3, -3, 0, 0, 0, 0, 0] := by decide +kernel
    rw [second] at seen
    exact Except.ok.inj seen

theorem not_steps_reduced_of_every_width :
    ¬ ∀ (source : Text) (program : List Instruction) (e f : Engine) (w : Width),
      (Assembly.assemble source).outcome = .ok program → (∀ i ∈ program, i.IsPlain) →
      e.width = some w → (∀ v ∈ f.width, w.bits ≤ v.bits) →
      ∀ n, ∃ narrow broad, (e.load program).steps n = .ok narrow ∧
        (f.load program).steps n = .ok broad ∧ narrow.Reduced w.bits broad := by
  intro every
  let program := [Assembly.instruction "LDI".toList "LDI R2, 7".toList 1 0 (some .ldi)
    { dest := some 2, immediate := some 7 }]
  let e : Engine := { width := some ⟨0x100000000000000000000, by decide, true⟩ }
  have made : (Assembly.assemble "LDI R2, 7".toList).outcome = .ok program := by rfl
  have plain : ∀ i ∈ program, i.IsPlain := by
    intro i member
    obtain rfl := List.mem_singleton.1 member
    constructor <;> decide
  obtain ⟨narrow, -, first, -⟩ := every _ program e {} _ made plain rfl (by simp) 4
  obtain ⟨-, stops⟩ := steps_stuck (e := e) made (by simp [program]) rfl (by decide)
  rw [stops 4 (by decide)] at first
  cases first

end Engine
end StageMachine
