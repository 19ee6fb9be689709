/-! Data memory: a cell for every address that was written to, in the order of the addresses. An
address without a cell reads as zero, and still differs from one where zero was written. -/
namespace StageMachine

/-- Cells in the order of their addresses, with one put in place. -/
def putCell (address value : Int) : List (Int × Int) → List (Int × Int)
  | [] => [(address, value)]
  | cell :: rest =>
    if address < cell.1 then (address, value) :: cell :: rest
    else if address = cell.1 then (address, value) :: rest
    else cell :: putCell address value rest

theorem mem_putCell {address value : Int} {cells : List (Int × Int)} {cell : Int × Int}
    (h : cell ∈ putCell address value cells) : cell = (address, value) ∨ cell ∈ cells := by
  induction cells with
  | nil => simpa [putCell] using h
  | cons first rest ih =>
    rw [putCell] at h
    split at h
    · simpa using h
    · split at h
      · simp only [List.mem_cons] at h ⊢
        exact h.imp_right .inr
      · simp only [List.mem_cons] at h ⊢
        rcases h with h | h
        · exact .inr (.inl h)
        · exact (ih h).imp_right .inr

theorem pairwise_putCell (address value : Int) {cells : List (Int × Int)}
    (sorted : cells.Pairwise (·.1 < ·.1)) : (putCell address value cells).Pairwise (·.1 < ·.1) := by
  induction cells with
  | nil => simp [putCell]
  | cons first rest ih =>
    obtain ⟨head, tail⟩ := List.pairwise_cons.1 sorted
    rw [putCell]
    split
    · refine List.pairwise_cons.2 ⟨fun cell member => ?_, sorted⟩
      rcases List.mem_cons.1 member with rfl | member
      · assumption
      · have := head cell member
        simp only
        omega
    · split
      · next same =>
        refine List.pairwise_cons.2 ⟨fun cell member => ?_, tail⟩
        have := head cell member
        simp only
        omega
      · refine List.pairwise_cons.2 ⟨fun cell member => ?_, ih tail⟩
        rcases mem_putCell member with rfl | member
        · simp only
          omega
        · exact head cell member

/-- The cells that were written to, each address once and in order. -/
structure Memory where
  cells : List (Int × Int) := []
  sorted : cells.Pairwise (·.1 < ·.1) := by simp
  deriving DecidableEq, Repr

namespace Memory

def get? (m : Memory) (address : Int) : Option Int := m.cells.lookup address

/-- The value at an address, zero where nothing was written. -/
def read (m : Memory) (address : Int) : Int := (m.get? address).getD 0

def write (m : Memory) (address value : Int) : Memory where
  cells := putCell address value m.cells
  sorted := pairwise_putCell address value m.sorted

def update (m : Memory) (cells : List (Int × Int)) : Memory :=
  cells.foldl (fun memory cell => memory.write cell.1 cell.2) m

theorem lookup_cell_cons (other : Int) (cell : Int × Int) (cells : List (Int × Int)) :
    (cell :: cells).lookup other = if other = cell.1 then some cell.2 else cells.lookup other := by
  rw [List.lookup_cons]
  by_cases h : other = cell.1
  · simp [h]
  · have : (other == cell.1) = false := by simpa using h
    simp [h, this]

theorem lookup_putCell (address value other : Int) (cells : List (Int × Int)) :
    (putCell address value cells).lookup other =
      if other = address then some value else cells.lookup other := by
  induction cells with
  | nil => rw [putCell, lookup_cell_cons]
  | cons first rest ih =>
    rw [putCell]
    split
    · rw [lookup_cell_cons]
    · split
      · next same =>
        rw [lookup_cell_cons, lookup_cell_cons, ← same]
        by_cases h : other = address <;> simp [h]
      · next distinct =>
        rw [lookup_cell_cons, ih, lookup_cell_cons]
        by_cases h : other = first.1 <;> by_cases same : other = address <;> simp_all

/-- A write shows at its own address and nowhere else. -/
@[simp] theorem get?_write (m : Memory) (address value other : Int) :
    (m.write address value).get? other = if other = address then some value else m.get? other :=
  lookup_putCell address value other m.cells

end Memory
end StageMachine
