import Mathlib.Tactic
import StageMachine.Proofs.Numeral.Decimal
import StageMachine.Proofs.Text.Words

/-! Texts that differ in the case of ASCII letters. Capital letters are the normal form, and what does not see
the case of a letter says the same of a text and of its capitals, or commutes with them. -/
namespace StageMachine
namespace Text

def capitals (t : Text) : Text := t.map Char.toUpper

@[simp] theorem capitals_cons (c : Char) (t : Text) : capitals (c :: t) = c.toUpper :: capitals t := rfl

theorem toUpper_cases (c : Char) :
    c.toUpper = c ∨ 97 ≤ c.toNat ∧ c.toNat ≤ 122 ∧ c.toUpper.toNat = c.toNat - 32 := by
  by_cases small : 'a'.val ≤ c.val ∧ c.val ≤ 'z'.val
  · have low : 97 ≤ c.toNat := UInt32.le_iff_toNat_le.1 small.1
    have high : c.toNat ≤ 122 := UInt32.le_iff_toNat_le.1 small.2
    refine .inr ⟨low, high, ?_⟩
    have shifted : (c.val + ('A'.val - 'a'.val)).toNat = (c.toNat + (2 ^ 32 - 32)) % 2 ^ 32 :=
      UInt32.toNat_add _ _
    have capital : c.toUpper = ⟨c.val + ('A'.val - 'a'.val), _⟩ := dif_pos small
    rw [capital]
    show (c.val + ('A'.val - 'a'.val)).toNat = _
    rw [shifted]
    omega
  · exact .inl (dif_neg small)

theorem toUpper_eq_iff {c d : Char} (front : d.toNat < 65) : c.toUpper = d ↔ c = d := by
  rcases toUpper_cases c with same | ⟨low, high, shifted⟩
  · rw [same]
  · rw [← Char.toNat_inj, ← Char.toNat_inj, shifted]
    omega

theorem toUpper_letter_iff (c : Char) :
    c.toUpper = 'r' ∨ c.toUpper = 'R' ↔ c = 'r' ∨ c = 'R' := by
  rcases toUpper_cases c with same | ⟨low, high, shifted⟩
  · rw [same]
  · simp only [← Char.toNat_inj, shifted, Char.reduceToNat]
    omega

/-- What is the same of all characters between the first capital and the last small letter does not see case. -/
theorem apply_toUpper {α : Type} {f : Char → α} {a : α}
    (letter : ∀ d : Char, 65 ≤ d.toNat → d.toNat ≤ 122 → f d = a) (c : Char) : f c.toUpper = f c := by
  rcases toUpper_cases c with same | ⟨low, high, shifted⟩
  · rw [same]
  · rw [letter c (by omega) (by omega), letter c.toUpper (by omega) (by omega)]

theorem isBlank_toUpper (c : Char) : isBlank c.toUpper = isBlank c := by
  refine apply_toUpper (fun d first last => (?_ : isBlank d = false)) c
  simp only [isBlank, Bool.or_eq_false_iff, Bool.and_eq_false_imp, decide_eq_true_eq,
    decide_eq_false_iff_not, beq_eq_false_iff_ne]
  omega

theorem digitValue?_toUpper (c : Char) : digitValue? c.toUpper = digitValue? c :=
  apply_toUpper (fun _ => Numeral.digitValue?_of_letter) c

theorem upperChar_toUpper (c : Char) : upperChar c.toUpper = upperChar c := by
  rcases toUpper_cases c with same | ⟨low, high, shifted⟩
  · rw [same]
  · have capital : c.toUpper.toUpper = c.toUpper := by
      rcases toUpper_cases c.toUpper with same | ⟨small, -, -⟩
      · exact same
      · omega
    rw [upperChar_of_ascii (by omega), upperChar_of_ascii (by omega), capital]

theorem upper_capitals (t : Text) : upper (capitals t) = upper t := by
  simp only [upper, capitals, List.flatMap_map, upperChar_toUpper]

theorem trimStart_capitals (t : Text) : trimStart (capitals t) = capitals (trimStart t) := by
  have blank : isBlank ∘ Char.toUpper = isBlank := funext isBlank_toUpper
  rw [trimStart, capitals, List.dropWhile_map, blank]
  rfl

theorem find?_solid_capitals (t : Text) :
    (capitals t).find? (!isBlank ·) = (t.find? (!isBlank ·)).map Char.toUpper := by
  have solid : (fun c => !isBlank c) ∘ Char.toUpper = fun c => !isBlank c :=
    funext fun c => congrArg (!·) (isBlank_toUpper c)
  rw [capitals, List.find?_map, solid]

theorem splitWhen_map {α β : Type} (separator : β → Bool) (f : α → β) (t : List α) :
    splitWhen separator (t.map f) = (splitWhen (separator ∘ f) t).map (List.map f) := by
  induction t with
  | nil => rfl
  | cons a t ih =>
    obtain ⟨piece, pieces, found⟩ := List.exists_cons_of_ne_nil (splitWhen_ne_nil (separator ∘ f) t)
    cases here : separator (f a) <;> simp [splitWhen, here, ih, found]

end Text

namespace Numeral
open Text

theorem signed_capitals (t : Text) : signed (capitals t) = (signed t).map id capitals := by
  cases t with
  | nil => rfl
  | cons c rest =>
    have minus : c.toUpper = '-' ↔ c = '-' := toUpper_eq_iff (by decide)
    have plus : c.toUpper = '+' ↔ c = '+' := toUpper_eq_iff (by decide)
    rw [capitals_cons, signed_cons, signed_cons]
    simp only [minus, plus]
    split
    · rfl
    · split <;> rfl

theorem leadingDigits_capitals (t : Text) : leadingDigits (capitals t) = leadingDigits t := by
  induction t with
  | nil => rfl
  | cons c rest ih =>
    rw [capitals_cons, leadingDigits, leadingDigits, digitValue?_toUpper, ih]

end Numeral

namespace Assembly
open Text

theorem isSeparator_toUpper (c : Char) : isSeparator c.toUpper = isSeparator c := by
  have comma : (c.toUpper == ',') = (c == ',') :=
    Bool.eq_iff_iff.2 (by simpa using toUpper_eq_iff (by decide))
  rw [isSeparator, isBlank_toUpper, comma, isSeparator]

theorem ne_semicolon_toUpper (c : Char) : (c.toUpper != ';') = (c != ';') :=
  Bool.eq_iff_iff.2 (by simpa using not_congr (toUpper_eq_iff (by decide)))

theorem tokens_capitals (t : Text) : tokens (capitals t) = (tokens t).map capitals := by
  have spoken : (· != ';') ∘ Char.toUpper = (· != ';') := funext ne_semicolon_toUpper
  have separator : isSeparator ∘ Char.toUpper = isSeparator := funext isSeparator_toUpper
  have visible : (fun piece : Text => !piece.isEmpty) ∘ List.map Char.toUpper =
      fun piece => !piece.isEmpty := funext fun piece => by simp
  rw [tokens, capitals, List.takeWhile_map, spoken, splitWhen_map, separator, List.filter_map, visible]
  rfl

theorem dropLetter_capitals (t : Text) : dropLetter (capitals t) = capitals (dropLetter t) := by
  induction t with
  | nil => rfl
  | cons c rest ih =>
    rw [capitals_cons, dropLetter, dropLetter]
    simp only [toUpper_letter_iff]
    split
    · rfl
    · rw [ih, capitals_cons]

end Assembly
end StageMachine
