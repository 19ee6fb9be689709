import Mathlib.Tactic
import StageMachine.Numeral.Basic

/-! Decimal numerals written and read. A written number is made of ASCII digits after at most one
minus sign, and whoever reads a number off its start gets it back. -/
namespace StageMachine.Numeral

theorem isBlank_eq_false_of_isDigit {c : Char} (digit : c.isDigit) : Text.isBlank c = false := by
  simp only [Char.isDigit, Bool.and_eq_true, decide_eq_true_eq, UInt32.le_iff_toNat_le,
    Char.toNat_val] at digit
  simp at digit
  simp [Text.isBlank]
  omega

theorem digitValue?_digitChar {d : Nat} (small : d < 10) : Text.digitValue? d.digitChar = some d := by
  have table : ∀ d : Fin 10, Text.digitValue? d.val.digitChar = some d.val := by decide
  exact table ⟨d, small⟩

theorem digitsValue_append (base : Nat) (ds : List Nat) (d : Nat) :
    digitsValue base (ds ++ [d]) = base * digitsValue base ds + d := by
  simp [digitsValue, List.foldl_append]

theorem leadingDigits_toDigits (n : Nat) (rest : Text) :
    ∃ ds, leadingDigits (Nat.toDigits 10 n ++ rest) = ds ++ leadingDigits rest ∧
      ds.length = (Nat.toDigits 10 n).length ∧ digitsValue 10 ds = n := by
  induction n using Nat.strongRecOn generalizing rest with
  | ind n ih =>
    rw [Nat.toDigits_eq_if (by decide)]
    split
    · next small =>
      refine ⟨[n], ?_, rfl, by simp [digitsValue]⟩
      simp [leadingDigits, digitValue?_digitChar small]
    · next large =>
      obtain ⟨ds, found, length, value⟩ := ih (n / 10) (by omega) ((n % 10).digitChar :: rest)
      have last := digitValue?_digitChar (Nat.mod_lt n (by decide : 0 < 10))
      refine ⟨ds ++ [n % 10], ?_, by simp [length], ?_⟩
      · simp [found, leadingDigits, last]
      · rw [digitsValue_append, value]
        omega

theorem toDigits_eq_cons (n : Nat) : ∃ c rest, Nat.toDigits 10 n = c :: rest ∧ c.isDigit := by
  cases shown : Nat.toDigits 10 n with
  | nil => exact absurd shown Nat.toDigits_ne_nil
  | cons c rest =>
    have member : c ∈ Nat.toDigits 10 n := by simp [shown]
    exact ⟨c, rest, rfl, Nat.isDigit_of_mem_toDigits (by decide) (by decide) member⟩

theorem signed_cons (c : Char) (rest : Text) :
    signed (c :: rest) =
      if c = '-' then (true, rest) else if c = '+' then (false, rest) else (false, c :: rest) := by
  unfold signed
  split <;> simp_all

theorem signed_of_isDigit {c : Char} (digit : c.isDigit) (rest : Text) :
    signed (c :: rest) = (false, c :: rest) := by
  unfold signed
  split
  · simp_all
  · simp_all
  · rfl

theorem length_toDigits_le_iff {n places : Nat} (some : 0 < places) :
    (Nat.toDigits 10 n).length ≤ places ↔ n < Nat.pow 10 places :=
  Nat.length_toDigits_le_iff (by decide) some

theorem length_toDigits_le_digitLimit {n : Nat} (short : n < ceiling) :
    (Nat.toDigits 10 n).length ≤ digitLimit := by
  unfold ceiling at short
  exact (length_toDigits_le_iff (by decide)).2 short

theorem leadingInt?_plain_eq (v : Int) :
    ∃ ds, leadingInt? (plain v) = (ofDigits (v < 0) ds).map some ∧
      ds.length = (Nat.toDigits 10 v.natAbs).length ∧ digitsValue 10 ds = v.natAbs := by
  have read (n : Nat) :
      ∃ d ds, leadingDigits (Nat.toDigits 10 n) = d :: ds ∧
        (d :: ds).length = (Nat.toDigits 10 n).length ∧ digitsValue 10 (d :: ds) = n := by
    obtain ⟨ds, found, length, value⟩ := leadingDigits_toDigits n []
    simp only [List.append_nil, leadingDigits] at found
    have some : 0 < ds.length := length ▸ Nat.length_toDigits_pos
    cases ds with
    | nil => simp at some
    | cons d ds => exact ⟨d, ds, found, length, value⟩
  cases v with
  | ofNat n =>
    obtain ⟨c, rest, shown, digit⟩ := toDigits_eq_cons n
    obtain ⟨d, ds, found, length, value⟩ := read n
    have start : signed (Text.trimStart (Nat.toDigits 10 n)) = (false, Nat.toDigits 10 n) := by
      rw [shown, Text.trimStart, List.dropWhile_cons_of_neg (by simp [isBlank_eq_false_of_isDigit digit]),
        signed_of_isDigit digit]
    refine ⟨d :: ds, ?_, length, value⟩
    have nonneg : ¬ (n : Int) < 0 := Int.not_lt.2 (Int.natCast_nonneg n)
    simp [leadingInt?, plain, start, found, nonneg]
  | negSucc n =>
    obtain ⟨d, ds, found, length, value⟩ := read (n + 1)
    have start : signed (Text.trimStart ('-' :: Nat.toDigits 10 (n + 1))) =
        (true, Nat.toDigits 10 (n + 1)) := rfl
    refine ⟨d :: ds, ?_, length, value⟩
    simp [leadingInt?, plain, start, found, Int.negSucc_lt_zero]

theorem leadingInt?_plain {v : Int} (short : v.natAbs < ceiling) :
    leadingInt? (plain v) = .ok (some v) := by
  obtain ⟨ds, read, length, value⟩ := leadingInt?_plain_eq v
  have few : ds.length ≤ digitLimit := length ▸ length_toDigits_le_digitLimit short
  have signed : (if v < 0 then -(v.natAbs : Int) else v.natAbs) = v := by
    split <;> omega
  rw [read, ofDigits, if_neg (Nat.not_lt.2 few), value]
  simp only [decide_eq_true_eq, signed]
  rfl

theorem leadingInt?_plain_of_long {v : Int} (long : ceiling ≤ v.natAbs) :
    leadingInt? (plain v) = .error (.numeralTooLong (Nat.toDigits 10 v.natAbs).length) := by
  obtain ⟨ds, read, length, -⟩ := leadingInt?_plain_eq v
  have many : digitLimit < (Nat.toDigits 10 v.natAbs).length := by
    by_contra few
    have short := (length_toDigits_le_iff (by decide)).1 (Nat.le_of_not_lt few)
    unfold ceiling at long
    exact absurd short (Nat.not_lt.2 long)
  rw [read, ofDigits, if_pos (length ▸ many), length]
  rfl

theorem digitsValue_lt {ds : List Nat} (small : ∀ d ∈ ds, d < 10) {places : Nat}
    (few : ds.length ≤ places) : digitsValue 10 ds < Nat.pow 10 places := by
  have bound : digitsValue 10 ds < 10 ^ ds.length := by
    clear few
    induction ds using List.reverseRecOn with
    | nil => simp [digitsValue]
    | append_singleton ds d ih =>
      have before := ih (fun x member => small x (by simp [member]))
      have last := small d (by simp)
      rw [digitsValue_append, List.length_append, List.length_singleton, pow_succ]
      omega
  exact Nat.lt_of_lt_of_le bound (Nat.pow_le_pow_right (by decide) few)

theorem lt_ceiling {n : Nat} (small : n < 10) : n < ceiling := by
  have bound : digitsValue 10 [n] < Nat.pow 10 digitLimit :=
    digitsValue_lt (by simpa using small) (show 1 ≤ digitLimit by decide)
  unfold ceiling
  simpa [digitsValue] using bound

theorem lt_of_mem_leadingDigits {t : Text} {d : Nat} (member : d ∈ leadingDigits t) : d < 10 := by
  induction t with
  | nil => simp [leadingDigits] at member
  | cons c rest ih =>
    rw [leadingDigits] at member
    split at member
    · next digit found =>
      rcases List.mem_cons.1 member with rfl | member
      · exact Text.digitValue?_lt found
      · exact ih member
    · simp at member

theorem natAbs_of_ofDigits {negative : Bool} {ds : List Nat} {v : Int}
    (read : ofDigits negative ds = .ok v) : v.natAbs = digitsValue 10 ds ∧ ds.length ≤ digitLimit := by
  rw [ofDigits] at read
  split at read
  · cases read
  · next few =>
    cases read
    cases negative <;> simp <;> omega

theorem natAbs_lt_ceiling {t : Text} {v : Int} (read : leadingInt? t = .ok (some v)) :
    v.natAbs < ceiling := by
  unfold leadingInt? at read
  generalize signed (Text.trimStart t) = start at read
  obtain ⟨negative, rest⟩ := start
  simp only at read
  split at read
  · cases read
  · cases made : ofDigits negative (leadingDigits rest) with
    | error fault => simp [made, Except.map] at read
    | ok value =>
      obtain rfl : value = v := by simpa [made, Except.map] using read
      obtain ⟨same, few⟩ := natAbs_of_ofDigits made
      rw [same]
      unfold ceiling
      exact digitsValue_lt (fun d => lt_of_mem_leadingDigits) few

/-- A decimal integer as it is written: at most one sign, and then digits of any script. -/
inductive Spells : Text → Int → Prop where
  | plain {digits : Text} {values : List Nat} (each : digits.map Text.digitValue? = values.map some)
      (some : values ≠ []) : Spells digits (digitsValue 10 values)
  | plus {digits : Text} {values : List Nat} (each : digits.map Text.digitValue? = values.map some)
      (some : values ≠ []) : Spells ('+' :: digits) (digitsValue 10 values)
  | minus {digits : Text} {values : List Nat} (each : digits.map Text.digitValue? = values.map some)
      (some : values ≠ []) : Spells ('-' :: digits) (-digitsValue 10 values)

theorem isBlank_of_digitValue? {c : Char} {d : Nat} (digit : Text.digitValue? c = some d) :
    Text.isBlank c = false := by
  obtain ⟨low, found, -⟩ := Option.map_eq_some_iff.1 digit
  have range := List.find?_some found
  have gaps : ∀ low ∈ Text.zeros, (0x20 < low ∧ low + 10 ≤ 0x85) ∨ (0xA0 < low ∧ low + 10 ≤ 0x1680) ∨
      (0x1680 < low ∧ low + 10 ≤ 0x2000) ∨ 0x3000 < low := by decide
  have gap := gaps low (List.mem_of_find?_eq_some found)
  simp only [Bool.and_eq_true, decide_eq_true_eq] at range
  simp only [Text.isBlank, Bool.or_eq_false_iff, Bool.and_eq_false_imp, decide_eq_true_eq,
    decide_eq_false_iff_not, beq_eq_false_iff_ne]
  omega

theorem digitValue?_of_letter {c : Char} (first : 65 ≤ c.toNat) (last : c.toNat ≤ 122) :
    Text.digitValue? c = none := by
  have apart : ∀ low ∈ Text.zeros, low + 10 ≤ 65 ∨ 122 < low := by decide
  rw [Text.digitValue?, List.find?_eq_none.2]
  · rfl
  · intro low member
    have := apart low member
    simp only [Bool.and_eq_true, decide_eq_true_eq]
    omega

theorem leadingDigits_append {digits rest : Text} {values : List Nat}
    (each : digits.map Text.digitValue? = values.map some)
    (ended : ∀ c ∈ rest.head?, Text.digitValue? c = none) : leadingDigits (digits ++ rest) = values := by
  induction digits generalizing values with
  | nil =>
    obtain rfl := List.map_eq_nil_iff.1 each.symm
    cases rest with
    | nil => rfl
    | cons c rest => simp [leadingDigits, ended c rfl]
  | cons c more ih =>
    cases values with
    | nil => cases each
    | cons d values =>
      obtain ⟨first, others⟩ := List.cons.inj each
      rw [List.cons_append, leadingDigits, first]
      simp only [ih others]

theorem exists_leading (t : Text) : ∃ digits rest, t = digits ++ rest ∧
    digits.map Text.digitValue? = (leadingDigits t).map some ∧
      ∀ c ∈ rest.head?, Text.digitValue? c = none := by
  induction t with
  | nil => exact ⟨[], [], rfl, rfl, nofun⟩
  | cons c t ih =>
    obtain ⟨digits, rest, rfl, each, ended⟩ := ih
    cases digit : Text.digitValue? c with
    | none => exact ⟨[], c :: (digits ++ rest), rfl, by simp [leadingDigits, digit], by simpa using digit⟩
    | some d => exact ⟨c :: digits, rest, rfl, by simp [leadingDigits, digit, each], ended⟩

theorem signed_of_digitValue? {c : Char} {d : Nat} (digit : Text.digitValue? c = some d) (rest : Text) :
    signed (c :: rest) = (false, c :: rest) := by
  have minus : c ≠ '-' := by
    rintro rfl
    cases digit
  have plus : c ≠ '+' := by
    rintro rfl
    cases digit
  unfold signed
  split <;> simp_all

/-- A text that begins with a decimal integer: one is spelled, and no further digit follows it. What else
follows does not count. -/
inductive Begins : Text → Int → Prop where
  | of {number rest : Text} {m : Int} (spelled : Spells number m)
      (ended : ∀ c ∈ rest.head?, Text.digitValue? c = none) : Begins (number ++ rest) m

/-- What a text begins with is read. -/
theorem Begins.read {t : Text} {m : Int} (begun : Begins t m) :
    ∃ negative rest, signed (Text.trimStart t) = (negative, rest) ∧ leadingDigits rest ≠ [] ∧
      (if negative then -(digitsValue 10 (leadingDigits rest) : Int)
        else digitsValue 10 (leadingDigits rest)) = m := by
  cases begun with
  | @of digits rest _ spelled ended =>
    cases spelled with
    | plus each some =>
      have read := leadingDigits_append each ended
      exact ⟨false, _, rfl, read ▸ some, by simp [read]⟩
    | minus each some =>
      have read := leadingDigits_append each ended
      exact ⟨true, _, rfl, read ▸ some, by simp [read]⟩
    | @plain _ values each some =>
      have read := leadingDigits_append each ended
      refine ⟨false, digits ++ rest, ?_, read ▸ some, by simp [read]⟩
      cases values with
      | nil => exact absurd rfl some
      | cons d values =>
        cases digits with
        | nil => cases each
        | cons c digits =>
          have digit := (List.cons.inj each).1
          rw [List.cons_append, Text.trimStart,
            List.dropWhile_cons_of_neg (by simp [isBlank_of_digitValue? digit]), signed_of_digitValue? digit]

theorem signed_cases (t : Text) : (∃ rest, t = '-' :: rest ∧ signed t = (true, rest)) ∨
    (∃ rest, t = '+' :: rest ∧ signed t = (false, rest)) ∨ signed t = (false, t) := by
  unfold signed
  split <;> simp

theorem exists_begins {t : Text} (found : leadingDigits (signed t).2 ≠ []) : ∃ m, Begins t m := by
  obtain ⟨digits, rest, parts, each, ended⟩ := exists_leading (signed t).2
  rcases signed_cases t with ⟨more, rfl, split⟩ | ⟨more, rfl, split⟩ | split
  all_goals
    rw [split] at parts each found
    obtain rfl := parts
  · exact ⟨_, .of (.minus each found) ended⟩
  · exact ⟨_, .of (.plus each found) ended⟩
  · exact ⟨_, .of (.plain each found) ended⟩

end StageMachine.Numeral
