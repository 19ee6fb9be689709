import Mathlib.Data.List.TakeWhile
import StageMachine.Proofs.Numeral.Decimal

/-! Numerals read as a whole. Digits of the base are read by their values, whatever script they are of. What
looks like a digit elsewhere, in superscript or in a circle, ends a numeral and is left over. -/
namespace StageMachine

theorem Text.solid_of_isDigitForm {c : Char} (form : isDigitForm c) :
    isBlank c = false ∧ c ≠ '-' ∧ c ≠ '+' ∧ c ≠ '_' := by
  simp only [isDigitForm, Bool.or_eq_true, List.any_eq_true, Bool.and_eq_true, decide_eq_true_eq] at form
  rcases form with decimal | ⟨range, member, first, last⟩
  · obtain ⟨d, digit⟩ := Option.isSome_iff_exists.1 decimal
    refine ⟨Numeral.isBlank_of_digitValue? digit, ?_, ?_, ?_⟩ <;> rintro rfl <;> cases digit
  · have gaps : ∀ range ∈ digitForms, (0xA0 < range.1 ∧ range.2 < 0x1680) ∨
        (0x1680 < range.1 ∧ range.2 < 0x2000) ∨ (0x205F < range.1 ∧ range.2 < 0x3000) ∨
        0x3000 < range.1 := by decide
    have gap := gaps range member
    have high : 0xA0 < c.toNat := by omega
    refine ⟨?_, ?_, ?_, ?_⟩
    · simp only [isBlank, Bool.or_eq_false_iff, Bool.and_eq_false_imp, decide_eq_true_eq,
        decide_eq_false_iff_not, beq_eq_false_iff_ne]
      omega
    all_goals
      rintro rfl
      exact absurd high (by decide)

namespace Numeral
variable {base : Base} {c : Char} {d : Nat} {t : Text} {values : List Nat}

theorem isPadding_of_isBlank (solid : Text.isBlank c = false) : isPadding c = false := by
  simp [isPadding, solid]

theorem toNat_of_between {low high : Char} (between : (decide (low ≤ c) && decide (c ≤ high)) = true) :
    low.toNat ≤ c.toNat ∧ c.toNat ≤ high.toNat := by
  simp only [Bool.and_eq_true, decide_eq_true_eq, Char.le_def, UInt32.le_iff_toNat_le] at between
  exact between

theorem digitIn?_decimal (c : Char) : digitIn? .decimal c = Text.digitValue? c := by
  unfold digitIn?
  split
  · next small =>
    obtain ⟨first, last⟩ : 97 ≤ c.toNat ∧ c.toNat ≤ 122 := toNat_of_between small
    simp [digitValue?_of_letter (by omega) last, Base.radix]
  · split
    · next capital =>
      obtain ⟨first, last⟩ : 65 ≤ c.toNat ∧ c.toNat ≤ 90 := toNat_of_between capital
      simp [digitValue?_of_letter first (by omega), Base.radix]
    · cases digit : Text.digitValue? c with
      | none => rfl
      | some d => simp [Text.digitValue?_lt digit, Base.radix]

theorem isBlank_of_digitIn? (digit : digitIn? base c = some d) : Text.isBlank c = false := by
  have letter (first : 65 ≤ c.toNat) (last : c.toNat ≤ 122) : Text.isBlank c = false := by
    simp only [Text.isBlank, Bool.or_eq_false_iff, Bool.and_eq_false_imp, decide_eq_true_eq,
      decide_eq_false_iff_not, beq_eq_false_iff_ne]
    omega
  obtain ⟨found, -⟩ := Option.filter_eq_some_iff.1 digit
  split at found
  · next small =>
    obtain ⟨first, last⟩ : 97 ≤ c.toNat ∧ c.toNat ≤ 122 := toNat_of_between small
    exact letter (by omega) last
  · split at found
    · next capital =>
      obtain ⟨first, last⟩ : 65 ≤ c.toNat ∧ c.toNat ≤ 90 := toNat_of_between capital
      exact letter first (by omega)
    · exact isBlank_of_digitValue? found

theorem digitIn?_underscore (base : Base) : digitIn? base '_' = none := by
  cases base <;> rfl

theorem exists_digit_of_each {digit : Char → Option Nat} (each : t.map digit = values.map some)
    (member : c ∈ t) : ∃ d, digit c = some d := by
  have held : digit c ∈ values.map some := each ▸ List.mem_map_of_mem member
  obtain ⟨d, -, same⟩ := List.mem_map.1 held
  exact ⟨d, same.symm⟩

theorem groupedDigits_each (each : t.map (digitIn? base) = values.map some) (before : Before)
    (ended : before = .underscore → t ≠ []) : groupedDigits base before t = some (values, []) := by
  induction t generalizing values before with
  | nil =>
    obtain rfl := List.map_eq_nil_iff.1 each.symm
    have : before ≠ .underscore := fun same => ended same rfl
    simp [groupedDigits, this]
  | cons c rest ih =>
    cases values with
    | nil => cases each
    | cons d values =>
      obtain ⟨digit, others⟩ := List.cons.inj each
      have plain : c ≠ '_' := by
        rintro rfl
        rw [digitIn?_underscore] at digit
        cases digit
      simp [groupedDigits, plain, digit, ih others .digit (by simp)]

theorem groupedDigits_decimal (plain : ∀ c ∈ t, c ≠ '_') (before : Before)
    (ended : before ≠ .underscore) :
    groupedDigits .decimal before t = some (leadingDigits t, t.dropWhile Text.isDecimal) := by
  induction t generalizing before with
  | nil => simp [groupedDigits, ended, leadingDigits]
  | cons c rest ih =>
    have others := ih (fun x member => plain x (by simp [member])) .digit (by simp)
    rw [groupedDigits, if_neg (plain c (by simp)), digitIn?_decimal, leadingDigits]
    cases digit : Text.digitValue? c with
    | none => simp [ended, Text.isDecimal, digit]
    | some d => simp [others, Text.isDecimal, digit]

theorem length_leadingDigits (decimal : ∀ c ∈ t, Text.isDecimal c) : (leadingDigits t).length = t.length := by
  induction t with
  | nil => rfl
  | cons c rest ih =>
    obtain ⟨d, digit⟩ := Option.isSome_iff_exists.1 (decimal c (by simp))
    simp [leadingDigits, digit, ih fun x member => decimal x (by simp [member])]

theorem dropMark_decimal (t : Text) : dropMark .decimal t = t := by
  match t with
  | [] | [_] => rfl
  | lead :: mark :: rest => simp [dropMark, Base.isMark]

theorem read_of_isDigitForm (some : t ≠ []) (forms : ∀ c ∈ t, Text.isDigitForm c) :
    read .decimal t =
      if digitLimit < (leadingDigits t).length then .error (.numeralTooLong (leadingDigits t).length)
      else if t.all Text.isDecimal then .ok (digitsValue 10 (leadingDigits t))
      else .error (.notNumeral 10 t.raw) := by
  have unscored := fun c member => (Text.solid_of_isDigitForm (forms c member)).2.2.2
  have grouped := groupedDigits_decimal unscored .start (by simp)
  have start : signed (t.dropWhile isPadding) = (false, t) := by
    obtain ⟨c, rest, rfl⟩ := List.exists_cons_of_ne_nil some
    obtain ⟨solid, minus, plus, -⟩ := Text.solid_of_isDigitForm (forms c (by simp))
    rw [List.dropWhile_cons_of_neg (by simp [isPadding_of_isBlank solid]), signed_cons, if_neg minus,
      if_neg plus]
  rw [read, readAs]
  simp only [start, dropMark_decimal, grouped, true_and]
  split
  · rfl
  cases left : t.dropWhile Text.isDecimal with
  | nil =>
    have decimal := List.dropWhile_eq_nil_iff.1 left
    have begun : leadingDigits t ≠ [] := by
      obtain ⟨c, rest, rfl⟩ := List.exists_cons_of_ne_nil some
      obtain ⟨d, digit⟩ := Option.isSome_iff_exists.1 (decimal c (by simp))
      simp [leadingDigits, digit]
    simp [begun, List.all_eq_true.2 decimal, Base.radix]
  | cons c rest =>
    have member : c ∈ t := (List.dropWhile_sublist _).subset (left ▸ List.mem_cons_self)
    have solid := isPadding_of_isBlank (Text.solid_of_isDigitForm (forms c member)).1
    have other : t.all Text.isDecimal = false := Bool.eq_false_iff.2 fun all => by
      rw [List.dropWhile_eq_nil_iff.2 (List.all_eq_true.1 all)] at left
      cases left
    simp [solid, other, Base.radix]

theorem readAs_of_each {shown : RawText} {negative : Bool} {rest digits : Text}
    (start : signed (t.dropWhile isPadding) = (negative, rest)) (marked : dropMark base rest = digits)
    (each : digits.map (digitIn? base) = values.map some) (begun : values ≠ [])
    (few : base = .decimal → values.length ≤ digitLimit) :
    readAs shown base t =
      .ok (if negative then -(digitsValue base.radix values : Int) else digitsValue base.radix values) := by
  have few : ¬ (base = .decimal ∧ digitLimit < values.length) := fun ⟨decimal, many⟩ =>
    absurd (few decimal) (Nat.not_le.2 many)
  rw [readAs]
  simp only [start, marked, groupedDigits_each each .start nofun]
  rw [if_neg few]
  simp [begun]

theorem signed_of_isDecimal (decimal : Text.isDecimal c) (rest : Text) :
    signed ((c :: rest).dropWhile isPadding) = (false, c :: rest) := by
  obtain ⟨d, digit⟩ := Option.isSome_iff_exists.1 decimal
  rw [List.dropWhile_cons_of_neg (by simp [isPadding_of_isBlank (isBlank_of_digitValue? digit)]),
    signed_of_digitValue? digit]

section
variable (each : t.map Text.digitValue? = values.map some)

include each

theorem digitIn?_of_each : t.map (digitIn? .decimal) = values.map some := by
  rw [← each]
  exact List.map_congr_left fun c _ => digitIn?_decimal c

theorem isDecimal_of_each {c : Char} (member : c ∈ t) : Text.isDecimal c := by
  obtain ⟨d, digit⟩ := exists_digit_of_each each member
  simp [Text.isDecimal, digit]

theorem countP_of_each : t.countP Text.isDecimal = values.length := by
  have length := congrArg List.length each
  simp only [List.length_map] at length
  rw [← length, List.countP_eq_length]
  exact fun c => isDecimal_of_each each

end

theorem read_of_spells {v : Int} (spelled : Spells t v) (few : t.countP Text.isDecimal ≤ digitLimit) :
    read .decimal t = .ok v := by
  cases spelled with
  | @plain _ values each begun =>
    rw [countP_of_each each] at few
    have start : signed (t.dropWhile isPadding) = (false, t) := by
      cases t with
      | nil => exact absurd (List.map_eq_nil_iff.1 each.symm) begun
      | cons c rest => exact signed_of_isDecimal (isDecimal_of_each each List.mem_cons_self) rest
    exact readAs_of_each start (dropMark_decimal _) (digitIn?_of_each each) begun fun _ => few
  | @plus digits values each begun =>
    rw [List.countP_cons_of_neg (by decide), countP_of_each each] at few
    have start : signed (('+' :: digits).dropWhile isPadding) = (false, digits) := rfl
    exact readAs_of_each start (dropMark_decimal _) (digitIn?_of_each each) begun fun _ => few
  | @minus digits values each begun =>
    rw [List.countP_cons_of_neg (by decide), countP_of_each each] at few
    have start : signed (('-' :: digits).dropWhile isPadding) = (true, digits) := rfl
    exact readAs_of_each start (dropMark_decimal _) (digitIn?_of_each each) begun fun _ => few

/-- A hexadecimal integer as it is written: at most a minus sign, a zero, the letter, and digits in either
case. -/
inductive SpellsHex : Text → Int → Prop where
  | plain {x : Char} {digits : Text} {values : List Nat} (mark : x = 'x' ∨ x = 'X')
      (each : digits.map (digitIn? .hexadecimal) = values.map some) (begun : values ≠ []) :
      SpellsHex ('0' :: x :: digits) (digitsValue 16 values)
  | minus {x : Char} {digits : Text} {values : List Nat} (mark : x = 'x' ∨ x = 'X')
      (each : digits.map (digitIn? .hexadecimal) = values.map some) (begun : values ≠ []) :
      SpellsHex ('-' :: '0' :: x :: digits) (-digitsValue 16 values)

theorem dropMark_hexadecimal {x : Char} (mark : x = 'x' ∨ x = 'X')
    (each : t.map (digitIn? .hexadecimal) = values.map some) : dropMark .hexadecimal ('0' :: x :: t) = t := by
  have marked : Text.digitValue? '0' = some 0 ∧ Base.isMark .hexadecimal x = true :=
    ⟨rfl, by rcases mark with rfl | rfl <;> rfl⟩
  have unscored (more : Text) : t ≠ '_' :: more := by
    rintro rfl
    obtain ⟨d, digit⟩ := exists_digit_of_each each List.mem_cons_self
    rw [digitIn?_underscore] at digit
    cases digit
  rw [dropMark, if_pos marked]
  exact unscored

theorem read_of_spellsHex {v : Int} (spelled : SpellsHex t v) : read .hexadecimal t = .ok v := by
  cases spelled with
  | @plain x digits values mark each begun =>
    have start : signed (('0' :: x :: digits).dropWhile isPadding) = (false, '0' :: x :: digits) := rfl
    exact readAs_of_each start (dropMark_hexadecimal mark each) each begun nofun
  | @minus x digits values mark each begun =>
    have start : signed (('-' :: '0' :: x :: digits).dropWhile isPadding) = (true, '0' :: x :: digits) := rfl
    exact readAs_of_each start (dropMark_hexadecimal mark each) each begun nofun

end Numeral
end StageMachine
