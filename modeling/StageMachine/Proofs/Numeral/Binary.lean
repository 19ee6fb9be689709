import Mathlib.Tactic
import StageMachine.Instruction.Field
import StageMachine.Proofs.Numeral.Reading

/-! Binary numerals. A text of zeros and ones is a number, and the lowest bits of a number are the text
of its remainder by a power of two. -/
namespace StageMachine

def IsBits (t : Text) : Prop := ∀ c ∈ t, c = '0' ∨ c = '1'

namespace Numeral

def bitValue (c : Char) : Nat := if c = '1' then 1 else 0

theorem digitIn?_bit {c : Char} (bit : c = '0' ∨ c = '1') :
    digitIn? .binary c = some (bitValue c) := by
  rcases bit with rfl | rfl <;> decide

theorem digitIn?_of_bits {t : Text} (bits : IsBits t) :
    t.map (digitIn? .binary) = (t.map bitValue).map some := by
  rw [List.map_map]
  exact List.map_congr_left fun c member => digitIn?_bit (bits c member)

theorem dropMark_bits {t : Text} (bits : IsBits t) : dropMark .binary t = t := by
  match t with
  | [] => rfl
  | [_] => rfl
  | lead :: mark :: rest =>
    have unmarked : Base.isMark .binary mark = false := by
      rcases bits mark (by simp) with rfl | rfl <;> rfl
    simp [dropMark, unmarked]

theorem read_bits {t : Text} (bits : IsBits t) (some : t ≠ []) :
    read .binary t = .ok (digitsValue 2 (t.map bitValue) : Nat) := by
  have start : signed (t.dropWhile isPadding) = (false, t) := by
    obtain ⟨c, rest, rfl⟩ := List.exists_cons_of_ne_nil some
    have decimal : Text.isDecimal c := by rcases bits c (by simp) with rfl | rfl <;> decide
    exact signed_of_isDecimal decimal rest
  exact readAs_of_each start (dropMark_bits bits) (digitIn?_of_bits bits) (by simpa using some) nofun

theorem digitsValue_lowBits (width n : Nat) :
    digitsValue 2 ((lowBits width n).map bitValue) = n % 2 ^ width := by
  have general (width n high : Nat) :
      ((lowBits width n).map bitValue).foldl (fun value digit => 2 * value + digit) high =
        2 ^ width * high + n % 2 ^ width := by
    induction width generalizing high with
    | zero => simp [lowBits, Nat.mod_one]
    | succ width ih =>
      have bit : bitValue (if n.testBit width then '1' else '0') = n / 2 ^ width % 2 := by
        rw [Nat.testBit_eq_decide_div_mod_eq]
        rcases Nat.mod_two_eq_zero_or_one (n / 2 ^ width) with h | h <;> simp [bitValue, h]
      rw [lowBits, List.map_cons, List.foldl_cons, ih, bit, Nat.mod_pow_succ]
      ring
  simpa [digitsValue] using general width n 0

end Numeral

theorem isBits_lowBits (width n : Nat) : IsBits (lowBits width n) := by
  induction width with
  | zero => simp [lowBits, IsBits]
  | succ width ih =>
    intro c member
    rcases List.mem_cons.1 member with rfl | member
    · by_cases h : n.testBit width <;> simp [h]
    · exact ih c member

def heldValue (width : Nat) (value : Option Int) : Int := value.getD 0 % 2 ^ width

theorem lowBits_mod {width high : Nat} (narrow : width ≤ high) (n : Nat) :
    lowBits width (n % 2 ^ high) = lowBits width n := by
  induction width with
  | zero => rfl
  | succ width ih =>
    have bit : (n % 2 ^ high).testBit width = n.testBit width := by
      rw [Nat.testBit_mod_two_pow]
      simp [show width < high by omega]
    rw [lowBits, lowBits, bit, ih (by omega)]

theorem lowBits_zero (width : Nat) : lowBits width 0 = List.replicate width '0' := by
  induction width with
  | zero => rfl
  | succ width ih => simp [lowBits, ih, List.replicate_succ]

theorem fieldBits_eq_lowBits {width : Nat} (narrow : width ≤ 32) (value : Option Int) :
    fieldBits width value = lowBits width (heldValue width value).toNat := by
  cases value with
  | none => simp [fieldBits, heldValue, lowBits_zero]
  | some v =>
    have divides : (2 : Int) ^ width ∣ valueRange := pow_dvd_pow 2 narrow
    have held : (v % valueRange).toNat % 2 ^ width = (v % 2 ^ width).toNat := by
      rw [← Int.emod_emod_of_dvd v divides, Int.toNat_emod (Int.emod_nonneg v (by decide)) (by positivity)]
      norm_cast
    rw [fieldBits, ← lowBits_mod (Nat.le_refl width), held]
    rfl

theorem isBits_fieldBits (width : Nat) (value : Option Int) : IsBits (fieldBits width value) := by
  cases value with
  | none => simp [fieldBits, IsBits]
  | some v => exact isBits_lowBits width _

/-- A field of any width is read as its value modulo a power of two, the 32nd at the most. -/
theorem read_fieldBits_some {width : Nat} (visible : 0 < width) (v : Int) :
    Numeral.read .binary (fieldBits width (some v)) = .ok (v % 2 ^ min width 32) := by
  have begun : fieldBits width (some v) ≠ [] := by
    apply List.ne_nil_of_length_pos
    simpa using visible
  have nonneg : 0 ≤ v % valueRange := Int.emod_nonneg v (by decide)
  have kept : v % valueRange % 2 ^ width = v % 2 ^ min width 32 := by
    rcases Nat.le_total width 32 with narrow | wide
    · rw [Nat.min_eq_left narrow]
      exact Int.emod_emod_of_dvd v (pow_dvd_pow 2 narrow)
    · have larger : valueRange ≤ 2 ^ width := pow_le_pow_right₀ (by decide : (1 : Int) ≤ 2) wide
      have below : v % valueRange < 2 ^ width :=
        Int.lt_of_lt_of_le (Int.emod_lt_of_pos v (by decide)) larger
      rw [Nat.min_eq_right wide, Int.emod_eq_of_lt nonneg below]
      rfl
  rw [Numeral.read_bits (isBits_fieldBits width _) begun, fieldBits, Numeral.digitsValue_lowBits, ← kept]
  push_cast
  rw [Int.toNat_of_nonneg nonneg]

theorem read_fieldBits {width : Nat} (narrow : width ≤ 32) (visible : 0 < width) (value : Option Int) :
    Numeral.read .binary (fieldBits width value) = .ok (heldValue width value) := by
  have filled : fieldBits width value = fieldBits width (some (value.getD 0)) := by
    rw [fieldBits_eq_lowBits narrow, fieldBits_eq_lowBits narrow]
    rfl
  rw [filled, read_fieldBits_some visible, Nat.min_eq_left narrow]
  rfl

end StageMachine
