import Mathlib.Data.List.Forall2
import StageMachine.Report

/-! When a computation in several parts has a value: each part has one, and they fit. -/
namespace StageMachine

section
variable {α β : Type}

theorem map_eq_ok {outcome : Except Fault α} {change : α → β} {value : β} :
    outcome.map change = .ok value ↔ ∃ first, outcome = .ok first ∧ change first = value := by
  cases outcome <;> simp [Except.map]

theorem bind_eq_ok {outcome : Except Fault α} {next : α → Except Fault β} {value : β} :
    outcome >>= next = .ok value ↔ ∃ first, outcome = .ok first ∧ next first = .ok value := by
  cases outcome <;> simp [bind, Except.bind]

theorem mapM_eq_ok {shown : α → Except Fault β} {value : α → β} {items : List α}
    (each : ∀ a ∈ items, shown a = .ok (value a)) : items.mapM shown = .ok (items.map value) := by
  induction items with
  | nil => rfl
  | cons a items ih =>
    have rest := ih fun b member => each b (by simp [member])
    rw [List.mapM_cons, each a (by simp), rest]
    rfl

theorem exists_bind_eq_ok {outcome : Except Fault α} {next : α → Except Fault β}
    (first : ∃ a, outcome = .ok a) (rest : ∀ a, ∃ b, next a = .ok b) : ∃ b, outcome >>= next = .ok b := by
  obtain ⟨a, rfl⟩ := first
  exact rest a

theorem exists_mapM_eq_ok {shown : α → Except Fault β} {items : List α}
    (each : ∀ a ∈ items, ∃ b, shown a = .ok b) : ∃ values, items.mapM shown = .ok values := by
  induction items with
  | nil => exact ⟨[], rfl⟩
  | cons a items ih =>
    obtain ⟨b, here⟩ := each a (by simp)
    obtain ⟨values, rest⟩ := ih fun c member => each c (by simp [member])
    exact ⟨b :: values, by rw [List.mapM_cons, here, rest]; rfl⟩

theorem of_mapM_eq_ok {items : List α} {values : List β} {next : α → Except Fault β}
    (done : items.mapM next = .ok values) : ∀ item ∈ items, ∃ value, next item = .ok value := by
  induction items generalizing values with
  | nil => nofun
  | cons item rest ih =>
    rw [List.mapM_cons] at done
    obtain ⟨value, first, done⟩ := bind_eq_ok.1 done
    obtain ⟨others, rest, -⟩ := bind_eq_ok.1 done
    exact List.forall_mem_cons.2 ⟨⟨value, first⟩, ih rest⟩

end

section
variable {α β α' β' : Type}

/-- Two computations go the same way: their values are related, or both stop with the same fault. -/
inductive Agree (related : α → β → Prop) : Except Fault α → Except Fault β → Prop where
  | value {a : α} {b : β} (so : related a b) : Agree related (.ok a) (.ok b)
  | fault (fault : Fault) : Agree related (.error fault) (.error fault)

variable {related : α → β → Prop} {result : α' → β' → Prop} {first : Except Fault α}
  {second : Except Fault β}

theorem Agree.bind {next : α → Except Fault α'} {other : β → Except Fault β'}
    (agree : Agree related first second)
    (rest : ∀ {a b}, related a b → Agree result (next a) (other b)) :
    Agree result (first >>= next) (second >>= other) := by
  cases agree with
  | value so => exact rest so
  | fault fault => exact .fault fault

theorem Agree.exists_eq_ok {value : α} (agree : Agree related (.ok value) second) :
    ∃ other, second = .ok other ∧ related value other := by
  cases agree with
  | value so => exact ⟨_, rfl, so⟩

theorem Agree.imp {weaker : α → β → Prop} (agree : Agree related first second)
    (each : ∀ {a b}, related a b → weaker a b) : Agree weaker first second := by
  cases agree with
  | value so => exact .value (each so)
  | fault fault => exact .fault fault

theorem Agree.made (agree : Agree related first second) :
    Agree (fun a b => related a b ∧ first = .ok a ∧ second = .ok b) first second := by
  cases agree with
  | value so => exact .value ⟨so, rfl, rfl⟩
  | fault fault => exact .fault fault

theorem Agree.map {change : α → α'} {other : β → β'} (agree : Agree related first second)
    (each : ∀ {a b}, related a b → result (change a) (other b)) :
    Agree result (first.map change) (second.map other) := by
  cases agree with
  | value so => exact .value (each so)
  | fault fault => exact .fault fault

end

/-- A computation has a value, unless it stops with a fault of a kind. -/
inductive Gives {α : Type} (refused : Fault → Prop) (a : α) : Except Fault α → Prop where
  | value : Gives refused a (.ok a)
  | refusal {fault : Fault} (because : refused fault) : Gives refused a (.error fault)

section
variable {α β : Type} {refused : Fault → Prop} {a : α} {b : β} {outcome : Except Fault α}

theorem Gives.bind {next : α → Except Fault β} (gives : Gives refused a outcome)
    (rest : Gives refused b (next a)) : Gives refused b (outcome >>= next) := by
  cases gives with
  | value => exact rest
  | refusal because => exact .refusal because

theorem Gives.map (gives : Gives refused a outcome) (change : α → β) :
    Gives refused (change a) (outcome.map change) := by
  cases gives with
  | value => exact .value
  | refusal because => exact .refusal because

theorem gives_mapM {items : List β} {values : List α} {next : β → Except Fault α}
    (each : List.Forall₂ (fun value item => Gives refused value (next item)) values items) :
    Gives refused values (items.mapM next) := by
  induction each with
  | nil => exact .value
  | cons first _ ih =>
    rw [List.mapM_cons]
    exact first.bind (ih.bind .value)

theorem Gives.eq_ok (gives : Gives (fun _ => False) a outcome) : outcome = .ok a := by
  cases gives with
  | value => rfl
  | refusal because => exact because.elim

end

namespace Report

variable {α β : Type}

theorem outcome_bind_eq_ok {r : Report α} {next : α → Report β} {value : β} :
    (r >>= next).outcome = .ok value ↔
      ∃ first, r.outcome = .ok first ∧ (next first).outcome = .ok value := by
  cases found : r.outcome with
  | error fault => simp [bind_of_error found]
  | ok first => simp [bind_of_ok found]

theorem outcome_map_eq_ok {r : Report α} {change : α → β} {value : β} :
    (change <$> r).outcome = .ok value ↔ ∃ first, r.outcome = .ok first ∧ change first = value := by
  show (r >>= fun first => pure (change first)).outcome = .ok value ↔ _
  simp [outcome_bind_eq_ok]

end Report

end StageMachine
