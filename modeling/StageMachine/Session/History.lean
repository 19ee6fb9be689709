import StageMachine.Machine.State

/-! The past of a session: the states before its latest steps, with their step counts, newest first
and no more of them than a limit. Older states may still be stored; the view does not show them. -/
namespace StageMachine

/-- A state of the machine and the step count that belongs to it. -/
structure Moment where
  state : State
  stepCount : Nat
  deriving DecidableEq, Repr

/-- The latest moments, up to a limit. -/
structure History where
  limit : Nat
  /-- Stored moments, newest first. -/
  stored : List Moment := []
  /-- How many of the stored moments count. -/
  depth : Nat := 0
  depth_le_limit : depth ≤ limit := by simp
  depth_le_stored : depth ≤ stored.length := by simp

namespace History

/-- The moments that can be gone back to, newest first. -/
def toList (h : History) : List Moment := h.stored.take h.depth

def longest : Int := Int.pow 2 63 - 1

/-- An empty history with a limit. Without one it takes as many moments as can be counted. -/
def create (limit : Option Int) : Except Fault History :=
  let limit := limit.getD longest
  if limit < -longest - 1 ∨ longest < limit then .error .historyTooLarge
  else if limit < 0 then .error .negativeHistory
  else .ok { limit := limit.toNat }

/-- The history without its moments. -/
def clear (h : History) : History := { limit := h.limit }

/-- Adds a moment; the oldest one is given up where there is no room. -/
def push (h : History) (m : Moment) : History where
  limit := h.limit
  stored := m :: h.stored
  depth := min (h.depth + 1) h.limit
  depth_le_limit := Nat.min_le_right ..
  depth_le_stored := by
    have := h.depth_le_stored
    simp only [List.length_cons]
    omega

def pop? (h : History) : Option (Moment × History) :=
  match shown : h.depth, storage : h.stored with
  | depth + 1, m :: rest =>
    some (m, {
      limit := h.limit
      stored := rest
      depth
      depth_le_limit := by have := h.depth_le_limit; omega
      depth_le_stored := by
        have := h.depth_le_stored
        rw [storage, List.length_cons] at this
        omega })
  | _, _ => none

@[simp] theorem limit_push (h : History) (m : Moment) : (h.push m).limit = h.limit := rfl

@[simp] theorem toList_clear (h : History) : h.clear.toList = [] := rfl

/-- A new moment comes first, and the limit cuts the end off. -/
theorem toList_push (h : History) (m : Moment) :
    (h.push m).toList = (m :: h.toList).take h.limit := by
  have := h.depth_le_limit
  simp only [toList, push]
  cases h.limit with
  | zero => simp
  | succ limit =>
    rw [Nat.add_min_add_right, List.take_succ_cons, List.take_succ_cons, List.take_take,
      Nat.min_comm]

@[simp] theorem length_toList (h : History) : h.toList.length = h.depth := by
  simp [toList, h.depth_le_stored]

/-- Going back takes the first of the moments away. -/
theorem pop?_eq_some {h rest : History} {m : Moment} (popped : h.pop? = some (m, rest)) :
    h.toList = m :: rest.toList ∧ rest.limit = h.limit := by
  unfold pop? at popped
  split at popped
  · next shown storage =>
    cases popped
    simp [toList, shown, storage]
  · cases popped

/-- Going back right after a moment was added undoes that, where there was room for it. -/
theorem pop?_push {h : History} (room : h.depth < h.limit) (m : Moment) : (h.push m).pop? = some (m, h) := by
  have deeper : (h.push m).depth = h.depth + 1 := Nat.min_eq_left room
  unfold pop?
  split
  · next depth first rest shown storage =>
    obtain rfl : h.depth = depth := Nat.succ.inj (deeper.symm.trans shown)
    cases storage
    rfl
  · next blank =>
    exact absurd rfl (blank _ _ _ deeper)

end History
end StageMachine
