import StageMachine.Proofs.Machine.Phase

/-! Values that a register of a width can hold. A machine whose registers, result and memory hold only such
values, the addresses of its memory included, goes on to hold only such values: results are cut, and all
else that is stored was held before. -/
namespace StageMachine

def Fits (bits : Nat) (value : Int) : Prop := 0 ≤ value ∧ value < 2 ^ bits

variable {bits : Nat} {w : Width}

theorem fits_zero : Fits bits 0 := ⟨Int.le_refl 0, by positivity⟩

theorem fits_cut (value : Int) : Fits w.bits (cut (some w) value) :=
  ⟨Int.emod_nonneg _ (by positivity), Int.emod_lt_of_pos _ (by positivity)⟩

namespace Memory
variable {m : Memory} {address value : Int}

def Within (bits : Nat) (m : Memory) : Prop := ∀ cell ∈ m.cells, Fits bits cell.1 ∧ Fits bits cell.2

theorem mem_of_get? (found : m.get? address = some value) : (address, value) ∈ m.cells := by
  unfold get? at found
  generalize m.cells = cells at found
  induction cells with
  | nil => cases found
  | cons cell rest ih =>
    rw [lookup_cell_cons] at found
    split at found
    · next same =>
      cases found
      simp [same]
    · exact List.mem_cons_of_mem _ (ih found)

theorem Within.read (within : m.Within bits) (address : Int) : Fits bits (m.read address) := by
  unfold Memory.read
  cases found : m.get? address with
  | none => exact fits_zero
  | some value => exact (within _ (mem_of_get? found)).2

theorem Within.write (within : m.Within bits) (place : Fits bits address) (stored : Fits bits value) :
    (m.write address value).Within bits := by
  intro cell member
  rcases mem_putCell member with rfl | member
  · exact ⟨place, stored⟩
  · exact within cell member

theorem Within.update {cells : List (Int × Int)} (within : m.Within bits)
    (fit : ∀ cell ∈ cells, Fits bits cell.1 ∧ Fits bits cell.2) : (m.update cells).Within bits := by
  induction cells generalizing m with
  | nil => exact within
  | cons cell rest ih =>
    have first := fit cell (by simp)
    exact ih (within.write first.1 first.2) fun other member => fit other (by simp [member])

end Memory

namespace State

structure Within (bits : Nat) (s : State) : Prop where
  registers : ∀ value ∈ s.registers, Fits bits value
  alu : Fits bits s.alu
  memory : s.memory.Within bits

variable {s t : State}

theorem within_load (program : List Instruction) : ({ program } : State).Within bits where
  registers := by simp [fits_zero]
  alu := fits_zero
  memory := by simp [Memory.Within]

theorem Within.setRegister (within : s.Within bits) (place : Nat) {value : Int} (fits : Fits bits value) :
    { s with registers := s.registers.set place value }.Within bits := by
  refine { within with registers := fun other member => ?_ }
  rcases List.mem_or_eq_of_mem_set member with member | rfl
  · exact within.registers other member
  · exact fits

namespace Within
variable (within : s.Within bits)

include within

theorem register (r : Option Int) : Fits bits (s.register r) := by
  cases r with
  | none => exact fits_zero
  | some i =>
    simp only [State.register, List.getD_eq_getElem?_getD]
    split
    · exact fits_zero
    · cases found : s.registers[i.toNat]? with
      | none => exact fits_zero
      | some value => exact within.registers value (List.mem_of_getElem? found)

omit within in
theorem execute (within : s.Within w.bits) (computed : s.execute (some w) = .ok t) : t.Within w.bits := by
  obtain ⟨alu, rfl, result⟩ := execute_eq_ok computed
  refine { within with alu := ?_ }
  unfold Computed InWork at result
  split at result
  · exact (show alu = 0 from result) ▸ fits_zero
  · exact eq_cut_of_compute result ▸ fits_cut _

theorem storedMemory (i : Instruction) : (s.storedMemory i).Within bits := by
  unfold State.storedMemory
  split
  · exact within.memory.write within.alu (within.register i.src2)
  · exact within.memory

theorem writeBack : s.writeBack.Within bits := by
  unfold State.writeBack
  cases s.current? with
  | none => exact { within with }
  | some i =>
    have memory := within.storedMemory i
    have value : Fits bits (s.writtenValue (s.storedMemory i)) := by
      unfold writtenValue
      split
      · exact memory.read _
      · exact within.alu
    refine { within with registers := ?_, memory }
    show ∀ value ∈ s.writtenRegisters i (s.storedMemory i), Fits bits value
    unfold writtenRegisters
    split
    · split
      · exact (within.setRegister _ value).registers
      · exact within.registers
    · exact within.registers

omit within in
theorem advance (within : s.Within w.bits) (moved : s.advance (some w) = .ok t) : t.Within w.bits := by
  obtain ⟨u, worked, rfl⟩ := map_eq_ok.1 moved
  have after : u.Within w.bits := by
    unfold work at worked
    split at worked
    · cases worked
      exact { within with }
    · obtain ⟨signals, rfl, -⟩ := decode_eq_ok worked
      exact { within with }
    · exact within.execute worked
    · cases worked
      exact within.writeBack
  exact { after with }

end Within
end State

namespace Engine
variable {e f : Engine}

def Within (e : Engine) : Prop := ∀ w ∈ e.width, e.state.Within w.bits

theorem within_load (e : Engine) (program : List Instruction) : (e.load program).Within :=
  fun _ _ => State.within_load program

theorem Within.step (within : e.Within) (stepped : e.step = .ok f) : f.Within := by
  intro w wide
  rw [width_of_step stepped] at wide
  have before := within w wide
  cases halted : e.isHalted with
  | true =>
    rw [step_halted halted] at stepped
    cases stepped
    exact before
  | false =>
    rw [step_running halted] at stepped
    obtain ⟨state, moved, rfl⟩ := map_eq_ok.1 stepped
    rw [show e.width = some w from wide] at moved
    exact before.advance moved

end Engine
end StageMachine
