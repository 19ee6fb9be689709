import StageMachine.Proofs.Machine.Range
import StageMachine.Proofs.Session.Reachable

/-! Sessions of a width: no operation changes the width of a session, and a session that is built with
initial values of its width holds only values of that width, in its machine and in its past. -/
namespace StageMachine
namespace Session
variable {bits : Nat} {s t : Session}

theorem Move.width_eq (move : Move s t) : t.engine.width = s.engine.width := by
  cases move with
  | quiet engine => rw [engine]
  | commit commits => exact commits.width_eq
  | slip _ stepped _ => exact Engine.width_of_step stepped
  | read | rest | undo | load | reset => rfl

theorem Changes.width_eq (changes : Changes s t) : t.engine.width = s.engine.width := by
  induction changes with
  | refl => rfl
  | tail _ change ih =>
    refine Eq.trans ?_ ih
    cases change with
    | move move => exact move.width_eq
    | overrun overrun =>
      obtain ⟨-, stepped⟩ := overrun
      exact Engine.width_of_step stepped

structure Fitting (bits : Nat) (s t : Session) : Prop where
  width_eq : t.engine.width = s.engine.width
  within : s.engine.state.Within bits → t.engine.state.Within bits

theorem fitting_note (r : Remark) : Act.Through (Fitting bits) (note r) :=
  Act.through_modify fun _ => ⟨rfl, id⟩

theorem fitting_modifyState {change : State → State} (kept : ∀ u, u.Within bits → (change u).Within bits) :
    Act.Through (Fitting bits) (modifyState change) :=
  Act.through_modify fun s => ⟨rfl, kept s.engine.state⟩

theorem fitting_applyInitial {initial : InitialState} (registers : ∀ r ∈ initial.registers, Fits bits r.2)
    (memory : ∀ cell ∈ initial.memory, Fits bits cell.1 ∧ Fits bits cell.2) :
    Act.Through (Fitting bits) (applyInitial initial) := by
  refine through_applyInitial fitting_note ?_ (fun r member i => ?_) ?_
  · exact fitting_modifyState fun u within => { within with }
  · exact fitting_modifyState fun u within => within.setRegister i (registers r member)
  · exact fitting_modifyState fun u within => { within with memory := within.memory.update memory }

theorem fitting_trans (changes : Relation.ReflTransGen (Fitting bits) s t) : Fitting bits s t := by
  induction changes with
  | refl => exact ⟨rfl, id⟩
  | tail _ change ih => exact ⟨change.width_eq.trans ih.width_eq, change.within ∘ ih.within⟩

theorem bits_of_create {c : Capacity} {width : Nat} {e : Engine} (made : Engine.create c (some width) = .ok e) :
    e.bits = some width := by
  unfold Engine.create at made
  simp only at made
  split at made
  · cases made
    rfl
  · cases made

theorem within_of_build {h : Host} {settings : Settings}
    (width : settings.registerWidth = some (bits : Int))
    (registers : ∀ r ∈ settings.initial.registers, Fits bits r.2)
    (memory : ∀ cell ∈ settings.initial.memory, Fits bits cell.1 ∧ Fits bits cell.2)
    (built : (build h settings).outcome = .ok s) :
    s.engine.bits = some bits ∧ Throughout Engine.Within s := by
  have past := (Started.built rfl built).toList_history
  obtain ⟨e, new, t, engine, made, done, rfl⟩ := build_eq_ok built
  obtain ⟨rfl, -, -, -, -⟩ := create_eq_ok made
  obtain ⟨source, u, loading, applied⟩ := prepare_eq_ok done
  obtain ⟨program, loaded⟩ := engine_of_load loading
  have changes := fitting_applyInitial registers memory u
  rw [Act.after_of_ok applied] at changes
  have fitting := fitting_trans changes
  rw [width] at engine
  have wide : t.engine.bits = some bits := by
    rw [Engine.bits, fitting.width_eq, loaded]
    exact (bits_of_create engine : new.engine.bits = _)
  have begun : u.engine.state.Within bits := by
    rw [loaded]
    exact State.within_load program
  refine ⟨wide, ?_, ?_⟩
  · intro w holds
    have same : t.engine.bits = some w.bits := congrArg (Option.map _) holds
    obtain rfl : bits = w.bits := Option.some.inj (wide.symm.trans same)
    exact fitting.within begun
  · simp [past]

/-- With a register width, values never leave it: whatever is done to a session that was built with initial
values of its width, the machine and all stored states hold values of that width. -/
theorem values_within_width {h : Host} {settings : Settings} {origin : Session}
    (width : settings.registerWidth = some (bits : Int))
    (registers : ∀ r ∈ settings.initial.registers, Fits bits r.2)
    (memory : ∀ cell ∈ settings.initial.memory, Fits bits cell.1 ∧ Fits bits cell.2)
    (built : (build h settings).outcome = .ok origin) (reached : Reaches origin s) :
    s.engine.bits = some bits ∧ s.engine.state.Within bits ∧
      ∀ m ∈ s.history.toList, m.state.Within bits := by
  obtain ⟨wide, started⟩ := within_of_build width registers memory built
  have changes := reached.changes
  obtain ⟨now, past⟩ := started.changes (fun e _ _ _ => Engine.within_load e _)
    (fun {e} _ => Engine.within_load e _) Engine.Within.step changes
  rw [Engine.bits, ← Changes.width_eq changes] at wide
  obtain ⟨w, known, rfl⟩ := Option.map_eq_some_iff.1 wide
  exact ⟨wide, now w known, fun m member => past m member w known⟩

theorem values_within_width_four :
    ∃ origin s : Session, Reaches origin s ∧ s.engine.bits = some 4 ∧
      s.engine.state.registers = [0, 5, 10, 15, 1, 12, 9, 0] ∧ s.history.toList.length = 20 ∧
      s.engine.state.Within 4 ∧ ∀ m ∈ s.history.toList, m.state.Within 4 := by
  let settings : Settings :=
    { registerWidth := some 4, initial := { registers := [(Text.raw "R6".toList, 9)], memory := [(3, 15)] } }
  let h : Host := { read := fun _ => .ok .null, capacity := .upTo 64, outlivesFaults := true }
  cases built : (build h settings).outcome with
  | error fault =>
    have fine : (build h settings).outcome.isOk = true := by decide +kernel
    simp [built, Except.isOk, Except.toBool] at fine
  | ok origin =>
    let operations : List Operation := List.replicate 21 .step ++ [.stepBack]
    let later (begun : Session) := operations.foldl (fun t operation => operation.act.after t) begun
    have reached : Reaches origin (later origin) := Reaches.start.foldl operations
    have shown : (build h settings).outcome.toOption.map (fun begun =>
        ((later begun).engine.state.registers, (later begun).history.toList.length)) =
        some ([0, 5, 10, 15, 1, 12, 9, 0], 20) := by
      decide +kernel
    simp only [built, Except.toOption, Option.map_some, Option.some.injEq, Prod.mk.injEq] at shown
    have width : settings.registerWidth = some ((4 : Nat) : Int) := rfl
    obtain ⟨wide, now, past⟩ := values_within_width width (by simp [settings, Fits])
      (by simp [settings, Fits]) built reached
    exact ⟨origin, later origin, reached, wide, shown.1, shown.2, now, past⟩

end Session
end StageMachine
