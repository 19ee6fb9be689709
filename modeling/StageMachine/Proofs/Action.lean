import Mathlib.Logic.Relation
import StageMachine.Action

/-! Actions taken apart: what an action in several parts does to a state, and the state that it leaves
whether or not a fault stops it. -/
namespace StageMachine
namespace Act
variable {σ α β : Type}

def left : EStateM.Result Fault σ α → σ
  | .ok _ t => t
  | .error _ t => t

def after (act : Act σ α) (s : σ) : σ := left (act s)

theorem bind_apply (act : Act σ α) (next : α → Act σ β) (s : σ) :
    (act >>= next) s =
      match act s with
      | .ok value t => next value t
      | .error fault t => .error fault t := by
  show EStateM.bind act next s = _
  cases done : act s <;> simp [EStateM.bind, done]

theorem map_apply (act : Act σ α) (change : α → β) (s : σ) :
    (change <$> act) s =
      match act s with
      | .ok value t => .ok (change value) t
      | .error fault t => .error fault t := by
  show EStateM.map change act s = _
  cases done : act s <;> simp [EStateM.map, done]

theorem discard_apply (act : Act σ α) (s : σ) :
    (discard act : Act σ PUnit) s =
      match act s with
      | .ok _ t => .ok ⟨⟩ t
      | .error fault t => .error fault t := map_apply act _ s

theorem bind_eq_ok {act : Act σ α} {next : α → Act σ β} {s t : σ} {value : β} :
    (act >>= next) s = .ok value t ↔
      ∃ first u, act s = .ok first u ∧ next first u = .ok value t := by
  rw [bind_apply]
  cases done : act s with
  | ok first u => simp [and_assoc]
  | error fault u => simp

theorem bind_eq_error {act : Act σ α} {next : α → Act σ β} {s t : σ} {fault : Fault} :
    (act >>= next) s = .error fault t ↔
      act s = .error fault t ∨ ∃ first u, act s = .ok first u ∧ next first u = .error fault t := by
  rw [bind_apply]
  cases done : act s with
  | ok first u => simp [and_assoc]
  | error fault u => simp

theorem ofExcept_eq_ok {outcome : Except Fault α} {s t : σ} {value : α} :
    (Act.ofExcept outcome : Act σ α) s = .ok value t ↔ outcome = .ok value ∧ s = t := by
  cases outcome with
  | error fault =>
    show EStateM.Result.error fault s = _ ↔ _
    simp
  | ok first =>
    show EStateM.Result.ok first s = _ ↔ _
    simp

@[simp] theorem pure_apply (value : α) (s : σ) : (pure value : Act σ α) s = .ok value s := rfl

@[simp] theorem get_apply (s : σ) : (get : Act σ σ) s = .ok s s := rfl

@[simp] theorem set_apply (s t : σ) : (set t : Act σ PUnit) s = .ok ⟨⟩ t := rfl

@[simp] theorem modify_apply (change : σ → σ) (s : σ) :
    (modify change : Act σ PUnit) s = .ok ⟨⟩ (change s) := rfl

@[simp] theorem ofExcept_ok (value : α) (s : σ) :
    (Act.ofExcept (.ok value) : Act σ α) s = .ok value s := rfl

@[simp] theorem ofExcept_error (fault : Fault) (s : σ) :
    (Act.ofExcept (.error fault) : Act σ α) s = .error fault s := rfl

theorem after_of_ok {act : Act σ α} {s t : σ} {value : α} (done : act s = .ok value t) :
    act.after s = t := by
  simp [after, left, done]

theorem after_of_error {act : Act σ α} {s t : σ} {fault : Fault} (stopped : act s = .error fault t) :
    act.after s = t := by
  simp [after, left, stopped]

def result? (act : Act σ α) (s : σ) : Option (α × σ) :=
  match act s with
  | .ok value t => some (value, t)
  | .error _ _ => none

theorem result?_eq_some {act : Act σ α} {s : σ} {result : α × σ} :
    act.result? s = some result ↔ act s = .ok result.1 result.2 := by
  cases done : act s <;> simp [result?, done, Prod.ext_iff]

theorem eq_ok_of_result? {act : Act σ Unit} {s : σ} (ended : (act.result? s).isSome = true) :
    act s = .ok () (act.after s) := by
  obtain ⟨result, ended⟩ := Option.isSome_iff_exists.1 ended
  have done := result?_eq_some.1 ended
  rw [after_of_ok done, done]

theorem after_map (act : Act σ α) (change : α → β) (s : σ) : (change <$> act).after s = act.after s := by
  cases done : act s <;> simp [after, left, map_apply, done]

theorem after_on {τ : Type} (part : τ → σ) (put : τ → σ → τ) (act : Act σ α) (whole : τ) :
    (Act.on part put act).after whole = put whole (act.after (part whole)) := by
  cases done : act (part whole) <;> simp [Act.on, after, left, done]

theorem after_get_bind (next : σ → Act σ α) (s : σ) : (get >>= next : Act σ α).after s = (next s).after s := by
  simp only [after, bind_apply, get_apply]

theorem after_modify_bind (change : σ → σ) (next : PUnit → Act σ α) (s : σ) :
    (modify change >>= next : Act σ α).after s = (next ⟨⟩).after (change s) := by
  simp only [after, bind_apply, modify_apply]

theorem after_discard (act : Act σ α) (s : σ) : (discard act).after s = act.after s := after_map act _ s

theorem after_bind_pure (act : Act σ α) (change : α → β) (s : σ) :
    (act >>= fun value => pure (change value) : Act σ β).after s = act.after s := by
  cases done : act s <;> simp [after, left, bind_apply, done]

theorem after_ofExcept (outcome : Except Fault α) (s : σ) :
    (Act.ofExcept outcome : Act σ α).after s = s := by
  cases outcome <;> rfl

/-- What is said of the states before and after an action: one thing where it comes to its end, another, by the
fault, where it is stopped. -/
structure Leads (done : σ → σ → Prop) (failed : Fault → σ → σ → Prop) (act : Act σ α) : Prop where
  ended : ∀ {s t : σ} {value : α}, act s = .ok value t → done s t
  stopped : ∀ {s t : σ} {fault : Fault}, act s = .error fault t → failed fault s t

section
variable {done : σ → σ → Prop} {failed : Fault → σ → σ → Prop}

theorem leads_of_ended {act : Act σ α}
    (ended : ∀ {s t : σ} {value : α}, act s = .ok value t → done s t) :
    Leads done (fun _ _ _ => True) act :=
  ⟨ended, fun _ => trivial⟩

theorem leads_modify {f : σ → σ} (each : ∀ s, done s (f s)) : Leads done failed (modify f) where
  ended came := by
    cases came
    exact each _
  stopped := nofun

theorem Leads.map {act : Act σ α} (leads : Leads done failed act) (f : α → β) :
    Leads done failed (f <$> act) := by
  constructor
  all_goals
    intro s t result came
    rw [map_apply] at came
    split at came
    · next first => cases came <;> exact leads.ended first
    · next first => cases came <;> exact leads.stopped first

theorem Leads.imp {done' : σ → σ → Prop} {failed' : Fault → σ → σ → Prop} {act : Act σ α}
    (leads : Leads done failed act) (ended : ∀ {s t}, done s t → done' s t)
    (stopped : ∀ {fault s t}, failed fault s t → failed' fault s t) : Leads done' failed' act where
  ended came := ended (leads.ended came)
  stopped came := stopped (leads.stopped came)

end

/-- What holds of an action in several parts where it holds of the parts. -/
structure Composes (done : σ → σ → Prop) (failed : Fault → σ → σ → Prop) : Prop where
  refl : ∀ s, done s s
  still : ∀ fault s, failed fault s s
  trans : ∀ {s t u}, done s t → done t u → done s u
  stop : ∀ {fault s t u}, done s t → failed fault t u → failed fault s u

namespace Composes
variable {done : σ → σ → Prop} {failed : Fault → σ → σ → Prop} (law : Composes done failed)

include law

theorem pure (value : α) : Leads done failed (pure value : Act σ α) where
  ended came := by
    cases came
    exact law.refl _
  stopped := nofun

theorem throw (fault : Fault) : Leads done failed (throw fault : Act σ α) where
  ended := nofun
  stopped came := by
    cases came
    exact law.still _ _

theorem get : Leads done failed (get : Act σ σ) where
  ended came := by
    cases came
    exact law.refl _
  stopped := nofun

theorem ofExcept (outcome : Except Fault α) : Leads done failed (Act.ofExcept outcome : Act σ α) := by
  cases outcome with
  | ok value => exact law.pure value
  | error fault => exact law.throw fault

theorem bind {act : Act σ α} {next : α → Act σ β} (leads : Leads done failed act)
    (rest : ∀ value, Leads done failed (next value)) : Leads done failed (act >>= next) where
  ended came := by
    obtain ⟨value, _, first, last⟩ := bind_eq_ok.1 came
    exact law.trans (leads.ended first) ((rest value).ended last)
  stopped came := by
    rcases bind_eq_error.1 came with first | ⟨value, _, first, last⟩
    · exact leads.stopped first
    · exact law.stop (leads.ended first) ((rest value).stopped last)

end Composes

/-- Whatever comes of an action, it changes a state by single changes of a kind. -/
def Through (change : σ → σ → Prop) (act : Act σ α) : Prop :=
  ∀ s, Relation.ReflTransGen change s (act.after s)

section
variable {change : σ → σ → Prop}

theorem through_iff {act : Act σ α} :
    Through change act ↔
      Leads (Relation.ReflTransGen change) (fun _ => Relation.ReflTransGen change) act := by
  constructor
  · exact fun through => ⟨fun came => after_of_ok came ▸ through _, fun came => after_of_error came ▸ through _⟩
  · intro leads s
    cases came : act s with
    | ok value t =>
      rw [after_of_ok came]
      exact leads.ended came
    | error fault t =>
      rw [after_of_error came]
      exact leads.stopped came

theorem composes_through :
    Composes (Relation.ReflTransGen change) (fun _ => Relation.ReflTransGen change) where
  refl _ := .refl
  still _ _ := .refl
  trans := .trans
  stop := .trans

theorem through_pure (value : α) : Through change (pure value : Act σ α) := fun _ => .refl

theorem through_get : Through change (get : Act σ σ) := fun _ => .refl

theorem through_ofExcept (outcome : Except Fault α) : Through change (Act.ofExcept outcome : Act σ α) :=
  through_iff.2 (composes_through.ofExcept outcome)

theorem through_modify {f : σ → σ} (each : ∀ s, change s (f s)) : Through change (modify f) :=
  fun s => .single (each s)

theorem Through.kept {part : σ → β} {act : Act σ α} (through : Through (fun s t => part t = part s) act)
    (s : σ) : part (act.after s) = part s := by
  have changes := through s
  generalize act.after s = t at changes ⊢
  induction changes with
  | refl => rfl
  | tail _ change ih => exact change.trans ih

theorem Through.bind {act : Act σ α} {next : α → Act σ β} (first : Through change act)
    (rest : ∀ value, Through change (next value)) : Through change (act >>= next) :=
  through_iff.2 (composes_through.bind (through_iff.1 first) fun value => through_iff.1 (rest value))

theorem part_after_bind {γ : Type} {part : σ → γ} {act : Act σ α} {next : α → Act σ β}
    (kept : ∀ value, Through (fun s t => part t = part s) (next value)) (s : σ) :
    part ((act >>= next).after s) = part (act.after s) := by
  cases done : act s with
  | ok value t =>
    rw [after_of_ok done, ← (kept value).kept t]
    simp [after, bind_apply, done]
  | error fault t => simp [after, left, bind_apply, done]

end

end Act

end StageMachine
