import Mathlib.Data.ENat.Lattice
import StageMachine.Proofs.Machine.Cycle

/-! How long a program goes on. From an engine with an assembled program stages follow one another to the
end of the program, or for ever; only a width that no number can be cut to breaks them off. -/
namespace StageMachine

theorem State.advance_eq_ok_or_error {width : Option Width} {s : State}
    (assembled : ∀ i ∈ s.program, i.IsAssembled) :
    (∃ t, s.advance width = .ok t) ∨ ∃ w ∈ width, ¬ w.Masks ∧ s.advance width = .error w.fault := by
  have worked : (∃ t, s.work width = .ok t) ∨ ∃ w ∈ width, ¬ w.Masks ∧ s.work width = .error w.fault := by
    unfold work decode execute
    cases s.stage with
    | fetch => exact .inl ⟨_, rfl⟩
    | decode =>
      left
      cases found : s.current? with
      | none => exact ⟨_, rfl⟩
      | some i =>
        have solid := assembled i (Engine.mem_of_current? found)
        simp [solid.decode_binary, Except.map]
    | execute =>
      cases found : s.current? with
      | none => exact .inl ⟨_, rfl⟩
      | some i =>
        by_cases masks : ∀ w ∈ width, w.Masks
        · left
          simp [compute_eq_ok masks, Except.map]
        · obtain ⟨w, rfl, stuck⟩ : ∃ w ∈ width, ¬ w.Masks := by simpa using masks
          exact .inr ⟨w, rfl, stuck, by simp [compute_eq_error stuck, Except.map]⟩
    | writeBack => exact .inl ⟨_, rfl⟩
  rcases worked with ⟨t, worked⟩ | ⟨w, set, stuck, failed⟩
  · exact .inl ⟨_, by rw [advance, worked]; rfl⟩
  · exact .inr ⟨w, set, stuck, by rw [advance, failed]; rfl⟩

theorem State.advance_eq_ok {width : Option Width} {s : State} (assembled : ∀ i ∈ s.program, i.IsAssembled)
    (masks : ∀ w ∈ width, w.Masks) : ∃ t, s.advance width = .ok t :=
  (State.advance_eq_ok_or_error assembled).resolve_right fun ⟨w, set, stuck, _⟩ => stuck (masks w set)

namespace Engine
variable {e last : Engine} {trail : List Moment}

theorem exists_not_masks_of_error {source : Text} {fault : Fault}
    (assembled : (Assembly.assemble source).outcome = .ok e.state.program)
    (stuck : e.step = .error fault) : ∃ w ∈ e.width, ¬ w.Masks ∧ fault = w.fault := by
  have solid := Assembly.isAssembled_of_assemble assembled
  have advances : (∃ t, e.state.advance e.width = .ok t) ∨
      ∃ w ∈ e.width, ¬ w.Masks ∧ e.state.advance e.width = .error w.fault :=
    State.advance_eq_ok_or_error solid
  rw [step_running (isHalted_of_error stuck)] at stuck
  rcases advances with ⟨t, moved⟩ | ⟨w, set, wide, failed⟩
  · rw [moved] at stuck
    cases stuck
  · rw [failed] at stuck
    cases stuck
    exact ⟨w, set, wide, rfl⟩

/-- The number of stages to the end of the program, infinite where the end is never reached. -/
noncomputable def stagesToEnd (e : Engine) : ℕ∞ :=
  sInf {n | ∃ trail last, e.Path trail last ∧ last.isHalted = true ∧ (trail.length : ℕ∞) = n}

namespace Path

theorem length_le_stagesToEnd (path : e.Path trail last) : (trail.length : ℕ∞) ≤ e.stagesToEnd := by
  refine le_sInf ?_
  rintro _ ⟨whole, final, ended, halted, rfl⟩
  exact Nat.cast_le.2 (ended.length_le_of_isHalted halted path)

theorem stagesToEnd_eq (path : e.Path trail last) (halted : last.isHalted = true) :
    e.stagesToEnd = trail.length :=
  le_antisymm (sInf_le ⟨trail, last, path, halted, rfl⟩) path.length_le_stagesToEnd

theorem isHalted_of_length (path : e.Path trail last) (all : (trail.length : ℕ∞) = e.stagesToEnd) :
    last.isHalted = true := by
  have finite : e.stagesToEnd ≠ ⊤ := all ▸ ENat.natCast_ne_top _
  have reached : {n : ℕ∞ | ∃ trail last, e.Path trail last ∧ last.isHalted = true ∧
      (trail.length : ℕ∞) = n}.Nonempty := by
    rw [Set.nonempty_iff_ne_empty]
    intro never
    exact finite (by rw [stagesToEnd, never, sInf_empty])
  obtain ⟨whole, final, ended, halted, length⟩ := csInf_mem reached
  have same : trail.length = whole.length := Nat.cast_inj.1 (all.trans length.symm)
  rwa [(path.unique ended same).2]

theorem stagesToEnd_eq_top {fault : Fault} (path : e.Path trail last) (stuck : last.step = .error fault) :
    e.stagesToEnd = ⊤ := by
  rw [stagesToEnd, sInf_eq_top]
  rintro _ ⟨whole, final, ended, halted, rfl⟩
  have same := le_antisymm (ended.length_le_of_isHalted halted path) (path.length_le_of_error stuck ended)
  obtain ⟨-, rfl⟩ := path.unique ended same
  rw [isHalted_of_error stuck] at halted
  cases halted

end Path

theorem Legible.exists_path (legible : e.Legible) (stages : Nat) :
    ∃ trail last, e.Path trail last ∧ trail.length ≤ stages ∧
      (trail.length < stages → last.isHalted = true ∨ ∃ fault, last.step = .error fault) := by
  induction stages with
  | zero => exact ⟨[], e, .start, Nat.le_refl _, by simp⟩
  | succ stages ih =>
    obtain ⟨trail, last, path, within, ended⟩ := ih
    by_cases before : trail.length < stages
    · exact ⟨trail, last, path, Nat.le_succ_of_le within, fun _ => ended before⟩
    · have length : trail.length = stages := Nat.le_antisymm within (Nat.le_of_not_lt before)
      have kept : last.Legible := by
        unfold Legible
        rw [path.program_eq]
        exact legible
      cases halted : last.isHalted with
      | true => exact ⟨trail, last, path, Nat.le_succ_of_le within, fun _ => .inl halted⟩
      | false =>
        cases stepped : last.step with
        | error fault =>
          exact ⟨trail, last, path, Nat.le_succ_of_le within, fun _ => .inr ⟨fault, stepped⟩⟩
        | ok after =>
          obtain ⟨m, commits⟩ := kept.commits halted stepped
          refine ⟨_, after, path.next commits, by simp [length], fun less => ?_⟩
          simp [length] at less

/-- An engine makes all stages to the end of its program but no more than a limit, or breaks off before. -/
theorem Legible.exists_path_min (legible : e.Legible) (limit : Nat) :
    ∃ trail last, e.Path trail last ∧
      ((trail.length : ℕ∞) = min e.stagesToEnd limit ∨
        (trail.length : ℕ∞) < min e.stagesToEnd limit ∧ ∃ fault, last.step = .error fault) := by
  obtain ⟨trail, last, path, within, ended⟩ := legible.exists_path limit
  refine ⟨trail, last, path, ?_⟩
  rcases Nat.lt_or_eq_of_le within with before | length
  · rcases ended before with halted | ⟨fault, stuck⟩
    · left
      rw [path.stagesToEnd_eq halted, min_eq_left (Nat.cast_le.2 within)]
    · right
      rw [path.stagesToEnd_eq_top stuck, min_eq_right le_top]
      exact ⟨Nat.cast_lt.2 before, fault, stuck⟩
  · left
    rw [← length, min_eq_right path.length_le_stagesToEnd]

end Engine
end StageMachine
