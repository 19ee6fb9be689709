import StageMachine.Proofs.Machine.Phase

/-! What one stage changes. Each stage writes what it is there for and nothing else, and write-back at most one
register or one cell beside the program counter. A stage is made unless the machine is barred from it: there
is no word to decode, or no room to cut a result in. -/
namespace StageMachine

open Assembly (IsShort)

theorem Opcode.exists_of_mem_operands {op : Opcode} {dest src1 src2 immediate address : Option Int}
    {operand : Except Fault Text} (member : operand ∈ op.operands dest src1 src2 immediate address) :
    ∃ v ∈ [dest, src1, src2, immediate, address], operand = registerName v ∨ operand = numberName v := by
  cases op with
  | nop => cases member
  | add | sub | and | or | addi =>
    simp only [operands, List.mem_cons, List.not_mem_nil, or_false] at member
    rcases member with shown | shown | shown <;> simp [shown]
  | ldi | mov | load | store | brz =>
    rcases List.mem_pair.1 member with shown | shown <;> simp [shown]
  | jmp => simp [List.mem_singleton.1 member]

namespace Instruction
variable {i : Instruction}

def Short (i : Instruction) : Prop :=
  ∀ v ∈ [i.dest, i.src1, i.src2, i.immediate, i.address], ∀ n ∈ v, IsShort n

theorem short_of_digits {program : List Instruction}
    (digits : ∀ i ∈ program, ∀ v ∈ [i.dest, i.src1, i.src2, i.immediate, i.address], ∀ n ∈ v, n.natAbs < 10) :
    ∀ i ∈ program, i.Short :=
  fun i member v field n set => Numeral.lt_ceiling (digits i member v field n set)

theorem Short.render_eq_ok (short : i.Short) : ∃ text, i.render = .ok text := by
  have each {op : Opcode} : ∀ operand ∈ op.operands i.dest i.src1 i.src2 i.immediate i.address,
      ∃ text, id operand = .ok text := by
    intro operand member
    obtain ⟨v, field, shown | shown⟩ := Opcode.exists_of_mem_operands member
    · exact ⟨_, shown.trans (Assembly.registerName_of_short (short v field))⟩
    · exact ⟨_, shown.trans (Assembly.numberName_eq_ok (short v field))⟩
  unfold render
  cases i.opcode with
  | none => exact ⟨_, rfl⟩
  | some op =>
    refine exists_bind_eq_ok (exists_mapM_eq_ok each) fun shown => ?_
    cases shown <;> exact ⟨_, rfl⟩

end Instruction

namespace Signals
variable {word : Text} {signals : Signals}

theorem exists_decode_iff : (∃ signals, decode word = .ok signals) ↔ 7 ≤ word.length := by
  unfold decode
  split
  · simp
  · next few =>
    refine ⟨nofun, fun many => ?_⟩
    match word, many with
    | _ :: _ :: _ :: _ :: _ :: _ :: _ :: _, _ => exact absurd rfl (few _ _ _ _ _ _ _ _)

theorem decode_of_short (few : word.length < 7) : decode word = .error .shortWord := by
  unfold decode
  split
  · simp at few
    omega
  · rfl

theorem rw_of_decode (read : decode word = .ok signals) (writes : signals.mw = true) : signals.rw = false := by
  unfold decode at read
  split at read
  · cases read
    simp only [ofBits, Bool.and_eq_true] at writes ⊢
    simp [writes.1]
  · cases read

end Signals

namespace State
variable {width : Option Width} {s t : State}

/-- What the stage that runs next makes of a state, and nothing else. -/
inductive Ran (s : State) : State → Prop where
  | fetch (now : s.stage = .fetch) : Ran s s.fetched
  | decode (now : s.stage = .decode) (signals : Signals) : Ran s (s.decoded signals)
  | execute (now : s.stage = .execute) (alu : Int) : Ran s (s.executed alu)
  | leave (now : s.stage = .writeBack) (pc : Int) : Ran s { s with pc, stage := .fetch }
  | register (now : s.stage = .writeBack) (pc : Int) {place : Nat} (inside : place < s.registers.length)
      (value : Int) : Ran s { s with pc, registers := s.registers.set place value, stage := .fetch }
  | cell (now : s.stage = .writeBack) (pc address value : Int) :
      Ran s { s with pc, memory := s.memory.write address value, stage := .fetch }

theorem Ran.stage_eq (ran : s.Ran t) : t.stage = s.stage.next := by
  cases ran with
  | fetch now | decode now | execute now | leave now | register now | cell now =>
    rw [now]
    rfl

/-- There is an instruction to decode, but its word is too short to have all control bits. -/
def Unreadable (s : State) : Prop := s.stage = .decode ∧ ∃ i ∈ s.current?, i.binary.length < 7

/-- There is a result to compute, but a number cannot be cut to the width. -/
def Overwide (width : Option Width) (s : State) : Prop :=
  s.stage = .execute ∧ s.current?.isSome = true ∧ ∃ w ∈ width, ¬ w.Masks

theorem advance_of_unreadable (unreadable : s.Unreadable) : s.advance width = .error .shortWord := by
  obtain ⟨stage, i, found, few⟩ := unreadable
  have found : s.current? = some i := found
  simp [advance, work, stage, decode, found, Signals.decode_of_short few, Except.map]

theorem advance_of_overwide (overwide : s.Overwide width) :
    ∃ fault, s.advance width = .error fault ∧ (fault = .tooManyPlaces ∨ fault = .noRoom) := by
  obtain ⟨stage, busy, w, rfl, stuck⟩ := overwide
  obtain ⟨i, found⟩ := Option.isSome_iff_exists.1 busy
  exact ⟨w.fault, by simp [advance, work, stage, execute, found, compute_eq_error stuck, Except.map],
    w.fault_eq⟩

theorem exists_decode_eq_ok (stage : s.stage = .decode) (readable : ¬ s.Unreadable) :
    ∃ signals, s.decode = .ok { s with signals } := by
  unfold State.decode
  cases found : s.current? with
  | none => exact ⟨_, rfl⟩
  | some i =>
    have many : 7 ≤ i.binary.length := Nat.le_of_not_lt fun few => readable ⟨stage, i, found, few⟩
    obtain ⟨signals, read⟩ := Signals.exists_decode_iff.2 many
    exact ⟨signals, by simp [read, Except.map]⟩

theorem exists_execute_eq_ok (stage : s.stage = .execute) (narrow : ¬ s.Overwide width) :
    ∃ alu, s.execute width = .ok { s with alu } := by
  unfold execute
  cases found : s.current? with
  | none => exact ⟨_, rfl⟩
  | some i =>
    have masks : ∀ w ∈ width, w.Masks := fun w set =>
      not_not.1 fun stuck => narrow ⟨stage, by simp [found], w, set, stuck⟩
    exact ⟨cut width (Alu.raw i s), by simp [compute_eq_ok masks, Except.map]⟩

theorem ran_writeBack (stage : s.stage = .writeBack) (single : s.signals.mw = true → s.signals.rw = false) :
    s.Ran { s.writeBack with stage := .fetch } := by
  unfold writeBack
  cases s.current? with
  | none => exact .leave stage _
  | some i =>
    cases writes : s.signals.mw with
    | true =>
      have kept (memory : Memory) : s.writtenRegisters i memory = s.registers := by
        unfold writtenRegisters
        split <;> simp [single writes]
      simp only [storedMemory, writes, if_true, kept]
      exact .cell stage _ _ _
    | false =>
      have memory : s.storedMemory i = s.memory := by simp [storedMemory, writes]
      simp only [memory, writtenRegisters]
      split
      · next d _ =>
        split
        · next chosen =>
          simp only [Bool.and_eq_true, hasRegister, decide_eq_true_eq] at chosen
          exact .register stage _ (by omega) _
        · exact .leave stage _
      · exact .leave stage _

theorem Prepared.single (prepared : s.Prepared width) (stage : s.stage = .writeBack)
    (writes : s.signals.mw = true) : s.signals.rw = false := by
  have decoded := prepared.decoded (.inr stage)
  cases found : s.current? with
  | none =>
    unfold Decoded InWork at decoded
    simp only [found] at decoded
    simp [decoded] at writes
  | some i => exact Signals.rw_of_decode (decoded.decode_eq found) writes

/-- A machine that is in phase makes the stage that runs next, unless it is barred from it. -/
theorem Prepared.exists_advance (prepared : s.Prepared width) (readable : ¬ s.Unreadable)
    (narrow : ¬ s.Overwide width) : ∃ t, s.advance width = .ok t ∧ s.Ran t := by
  cases stage : s.stage with
  | fetch => exact ⟨_, advance_fetch stage, .fetch stage⟩
  | decode =>
    obtain ⟨signals, read⟩ := exists_decode_eq_ok stage readable
    exact ⟨_, advance_decode stage read, .decode stage signals⟩
  | execute =>
    obtain ⟨alu, computed⟩ := exists_execute_eq_ok stage narrow
    exact ⟨_, advance_execute stage computed, .execute stage alu⟩
  | writeBack => exact ⟨_, advance_writeBack stage, ran_writeBack stage (prepared.single stage)⟩

end State

namespace Engine
variable {e : Engine}

def Barred (e : Engine) : Prop := e.state.Unreadable ∨ e.state.Overwide e.width

theorem Barred.running (barred : e.Barred) : e.isHalted = false := by
  rcases barred with ⟨stage, -⟩ | ⟨stage, -⟩
  · exact isHalted_of_stage .decode stage (by simp)
  · exact isHalted_of_stage .execute stage (by simp)

theorem Barred.step_eq (barred : e.Barred) : ∃ fault, e.step = .error fault ∧
    (e.state.Unreadable → fault = .shortWord) ∧
    (e.state.Overwide e.width → fault = .tooManyPlaces ∨ fault = .noRoom) := by
  have apart : e.state.Unreadable → ¬ e.state.Overwide e.width := by
    rintro ⟨decoding, -⟩ ⟨executing, -⟩
    rw [decoding] at executing
    cases executing
  rw [step_running barred.running]
  rcases barred with unreadable | overwide
  · refine ⟨.shortWord, ?_, fun _ => rfl, fun overwide => absurd overwide (apart unreadable)⟩
    rw [State.advance_of_unreadable unreadable]
    rfl
  · obtain ⟨fault, refused, kind⟩ := State.advance_of_overwide overwide
    refine ⟨fault, ?_, fun unreadable => absurd overwide (apart unreadable), fun _ => kind⟩
    rw [refused]
    rfl

theorem InPhase.exists_commits (phase : e.InPhase) (legible : e.Legible) (running : e.isHalted = false)
    (free : ¬ e.Barred) : ∃ m f, e.Commits m f ∧ e.state.Ran f.state := by
  obtain ⟨readable, narrow⟩ := not_or.1 free
  obtain ⟨state, moved, ran⟩ := phase.prepared.exists_advance readable narrow
  obtain ⟨m, commits⟩ := commits_moved legible running moved
  exact ⟨m, _, commits, ran⟩

end Engine
end StageMachine
