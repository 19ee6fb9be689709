import StageMachine.Fault

/-! Actions on a state. An action that stops with a fault leaves what it changed before. -/
namespace StageMachine

/-- An action on a state that may stop with a fault; what it changed before stays. -/
abbrev Act (σ α : Type) := EStateM Fault σ α

/-- An outcome that does not touch the state. -/
def Act.ofExcept {σ α : Type} : Except Fault α → Act σ α
  | .ok value => pure value
  | .error fault => throw fault

def Act.on {σ τ α : Type} (part : τ → σ) (put : τ → σ → τ) (act : Act σ α) : Act τ α := fun whole =>
  match act (part whole) with
  | .ok value s => .ok value (put whole s)
  | .error fault s => .error fault (put whole s)

end StageMachine
