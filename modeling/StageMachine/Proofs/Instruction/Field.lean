import StageMachine.Instruction.Listing
import StageMachine.Proofs.Numeral.Binary

/-! Fields of any width. A field keeps a value modulo a power of two, of the 32nd at the most, whatever its sign
and its size. Read as a plain number, or with the highest bit counted as negative, it gives back every value
that it has room for. A field is made only as wide as a text can be, and as there is memory for its mask and
its text. -/
namespace StageMachine

def twosComplement (width : Nat) (n : Int) : Int :=
  if n / 2 ^ (width - 1) % 2 = 1 then n - 2 ^ width else n

theorem twosComplement_fieldWidth : twosComplement fieldWidth = signedField := rfl

section
variable {width : Nat} (visible : 0 < width)

include visible

theorem twosComplement_emod {v : Int} (low : -2 ^ (width - 1) ≤ v) (high : v < 2 ^ (width - 1)) :
    twosComplement width (v % 2 ^ width) = v := by
  obtain ⟨places, rfl⟩ : ∃ places, width = places + 1 := ⟨width - 1, by omega⟩
  rw [Nat.add_sub_cancel] at low high
  have positive : (0 : Int) < 2 ^ places := by positivity
  have double : (2 : Int) ^ (places + 1) = 2 ^ places * 2 := pow_succ 2 places
  rw [twosComplement, Nat.add_sub_cancel]
  rcases Int.lt_or_le v 0 with negative | nonneg
  · have held : v % 2 ^ (places + 1) = v + 2 ^ (places + 1) := by
      rw [← Int.add_emod_right, Int.emod_eq_of_lt] <;> omega
    have top : (v + 2 ^ (places + 1)) / 2 ^ places = 1 :=
      (Int.ediv_eq_iff_of_pos positive).2 (by omega)
    rw [held, top, if_pos (by decide), Int.add_sub_cancel]
  · have held : v % 2 ^ (places + 1) = v := Int.emod_eq_of_lt nonneg (by omega)
    rw [held, Int.ediv_eq_zero_of_lt nonneg high, if_neg (by decide)]

theorem fieldBits_inj {a b : Int} (narrow : width ≤ 32) :
    fieldBits width (some a) = fieldBits width (some b) ↔ a % 2 ^ width = b % 2 ^ width := by
  constructor
  · intro same
    have read := congrArg (Numeral.read .binary) same
    rw [read_fieldBits narrow visible, read_fieldBits narrow visible] at read
    exact Except.ok.inj read
  · intro same
    have held : heldValue width (some a) = heldValue width (some b) := same
    rw [fieldBits_eq_lowBits narrow, fieldBits_eq_lowBits narrow, held]

omit visible in
theorem longestText_lt_widestMask : longestText < widestMask := by decide

/-- A field of the width can be made: there is memory for its mask and for its text, which is no longer than a
text can be. -/
structure Capacity.Takes (c : Capacity) (width : Nat) : Prop where
  short : width ≤ longestText
  mask : c.mask width = true
  text : c.text width = true

def Capacity.refusal (c : Capacity) (width : Nat) : Fault :=
  if widestMask < width then .tooManyPlaces
  else if ¬ c.mask width then .noRoom
  else if longestText < width then .textTooLong
  else .noRoom

theorem encodeField_of_takes {c : Capacity} (takes : c.Takes width) (v : Int) :
    encodeField c (some v) (some width) = .ok (fieldBits width (some v)) := by
  have short := takes.short
  have masked := longestText_lt_widestMask
  have checked : checkWidth (c.mask width) width = .ok () := by
    rw [checkWidth, if_neg (by omega), if_neg (by omega), if_neg (by simp [takes.mask])]
  have some : (width : Int) ≠ 0 := by omega
  show (checkWidth (c.mask width) width >>= fun _ => _) = _
  rw [checked]
  show ite _ _ _ = _
  rw [if_neg (by omega), if_neg (by simp [takes.text]), if_neg some]
  rfl

omit visible in
theorem encodeField_of_not_takes {c : Capacity} (refused : ¬ c.Takes width) (v : Int) :
    encodeField c (some v) (some width) = .error (c.refusal width) := by
  show (checkWidth (c.mask width) width >>= fun _ => _) = _
  rw [checkWidth, Capacity.refusal, if_neg (by omega)]
  by_cases wide : widestMask < (width : Int)
  · rw [if_pos wide, if_pos wide]
    rfl
  · rw [if_neg wide, if_neg wide]
    by_cases masked : c.mask width
    · rw [if_neg (by simp [masked]), if_neg (not_not.2 masked)]
      show ite _ _ _ = _
      by_cases long : longestText < (width : Int)
      · rw [if_pos long, if_pos long]
        rfl
      · have roomless : c.text width ≠ true := fun text => refused ⟨Int.not_lt.1 long, masked, text⟩
        rw [if_neg long, if_neg long, if_pos (by simpa using roomless)]
        rfl
    · rw [if_pos (by simpa using masked), if_pos masked]
      rfl

end

/-- Bits that hold a value: one for each place, read as the value modulo a power of two. What they have room
for they give back, without a sign or with one. -/
structure Holds (width : Nat) (value : Int) (bits : Text) : Prop where
  length : bits.length = width
  isBits : IsBits bits
  read : Numeral.read .binary bits = .ok (value % 2 ^ min width 32)
  unsigned : width ≤ 32 → 0 ≤ value → value < 2 ^ width → Numeral.read .binary bits = .ok value
  signed : width ≤ 32 → -2 ^ (width - 1) ≤ value → value < 2 ^ (width - 1) →
    (Numeral.read .binary bits).map (twosComplement width) = .ok value

theorem holds_fieldBits {width : Nat} (visible : 0 < width) (value : Int) :
    Holds width value (fieldBits width (some value)) := by
  have read := read_fieldBits_some visible value
  refine ⟨length_fieldBits _ _, isBits_fieldBits _ _, read, fun narrow nonneg below => ?_,
    fun narrow low high => ?_⟩
  · rw [read, Nat.min_eq_left narrow, Int.emod_eq_of_lt nonneg below]
  · rw [read, Nat.min_eq_left narrow]
    exact congrArg Except.ok (twosComplement_emod visible low high)

/-- A field of a width keeps its value modulo a power of two. It is made where there is memory for its mask and
its text and it is no longer than a text can be; elsewhere it is refused, whatever the value. -/
theorem encodeField_reduces {width : Nat} (visible : 0 < width) (c : Capacity) (value : Int) :
    (c.Takes width → encodeField c (some value) (some width) = .ok (fieldBits width (some value)) ∧
      (width ≤ 32 → ∀ other : Int,
        encodeField c (some other) (some width) = encodeField c (some value) (some width) ↔
          other % 2 ^ width = value % 2 ^ width)) ∧
    (¬ c.Takes width → encodeField c (some value) (some width) = .error (c.refusal width)) ∧
    Holds width value (fieldBits width (some value)) ∧
    twosComplement fieldWidth = signedField := by
  refine ⟨fun takes => ⟨encodeField_of_takes visible takes value, fun narrow other => ?_⟩,
    fun refused => encodeField_of_not_takes refused value, holds_fieldBits visible value,
    twosComplement_fieldWidth⟩
  rw [encodeField_of_takes visible takes, encodeField_of_takes visible takes, Except.ok.injEq,
    fieldBits_inj visible narrow]

theorem encodeField_reduces_negative :
    let c := Capacity.upTo (2 ^ 38)
    (∃ bits, encodeField c (some (-2)) (some 40) = .ok bits ∧ bits.length = 40 ∧
      Numeral.read .binary bits = .ok 0xFFFFFFFE) ∧
    encodeField c (some (-2)) (some 3) = encodeField c (some 0x10000000000000000000E) (some 3) ∧
    (Numeral.read .binary "110".toList).map (twosComplement 3) = .ok (-2) ∧
    encodeField c (some (-2)) (some (2 ^ 52 : Nat)) = .error .noRoom := by
  intro c
  obtain ⟨made, -, held, -⟩ := @encodeField_reduces 40 (by decide) c (-2)
  obtain ⟨same, -, small, -⟩ := @encodeField_reduces 3 (by decide) c (-2)
  have refused := (@encodeField_reduces (2 ^ 52) (by decide) c (-2)).2.1
    fun takes => absurd takes.mask (by decide)
  exact ⟨⟨_, (made ⟨by decide, by decide, by decide⟩).1, held.length, held.read⟩,
    (((same ⟨by decide, by decide, by decide⟩).2 (by decide) _).2 (by decide)).symm,
    small.signed (by decide) (by decide) (by decide), refused⟩

/-- However much memory there is, there is a width of which no field is made. With memory for 2 to the 38 places
one of 2 to the 52 is not. -/
theorem not_encodeField_at_every_width :
    (¬ ∃ c : Capacity, ∀ (width : Nat) (value : Int), 0 < width →
      ∃ bits, encodeField c (some value) (some width) = .ok bits ∧ bits.length = width) ∧
    encodeField (Capacity.upTo (2 ^ 38)) (some 5) (some (2 ^ 52 : Nat)) = .error .noRoom := by
  constructor
  · rintro ⟨c, every⟩
    obtain ⟨bits, made, -⟩ := every (2 ^ 80) 5 (by decide)
    rw [encodeField_of_not_takes fun takes => absurd takes.short (by decide)] at made
    cases made
  · exact encodeField_of_not_takes (fun takes => absurd takes.mask (by decide)) 5

end StageMachine
