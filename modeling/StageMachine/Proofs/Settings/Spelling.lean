import StageMachine.Proofs.Numeral.Reading
import StageMachine.Proofs.Text.Capitals
import StageMachine.Settings.Basic

/-! How a configuration may spell what the settings hold. An integer may be a number, or a decimal or
hexadecimal numeral with white space around it; the name of a register may be in letters of either case. -/
namespace StageMachine

namespace RawText

theorem trim_raw (t : Text) : trim (Text.raw t) = Text.raw (Text.trim t) := by
  have same : (fun x : CodePoint => x.isIn Text.isBlank) ∘ CodePoint.char = Text.isBlank := rfl
  rw [trim, Text.raw, List.dropWhile_map, same, ← List.map_reverse, List.dropWhile_map, same,
    ← List.map_reverse]
  rfl

def capitals (t : RawText) : RawText := t.map fun
  | .char c => .char c.toUpper
  | .half offset => .half offset

theorem upper_capitals (t : RawText) : upper (capitals t) = upper t := by
  rw [upper, capitals, List.flatMap_map]
  congr 1
  funext x
  cases x with
  | char c => simp [Text.upperChar_toUpper]
  | half offset => rfl

end RawText

namespace Numeral
variable {t : Text} {v : Int}

theorem Spells.solid (spelled : Spells t v) : t ≠ [] ∧ ∀ c ∈ t, Text.isBlank c = false := by
  have digits {digits : Text} {values : List Nat} (each : digits.map Text.digitValue? = values.map some) :
      ∀ c ∈ digits, Text.isBlank c = false := fun c member =>
    (Text.solid_of_isDigitForm (Text.isDigitForm_of_isDecimal (isDecimal_of_each each member))).1
  cases spelled with
  | plain each begun =>
    refine ⟨?_, digits each⟩
    rintro rfl
    exact begun (List.map_eq_nil_iff.1 each.symm)
  | plus each => exact ⟨by simp, List.forall_mem_cons.2 ⟨rfl, digits each⟩⟩
  | minus each => exact ⟨by simp, List.forall_mem_cons.2 ⟨rfl, digits each⟩⟩

theorem SpellsHex.solid (spelled : SpellsHex t v) : t ≠ [] ∧ ∀ c ∈ t, Text.isBlank c = false := by
  have digits {digits : Text} {values : List Nat} (each : digits.map (digitIn? .hexadecimal) = values.map some) :
      ∀ c ∈ digits, Text.isBlank c = false := by
    intro c member
    obtain ⟨d, digit⟩ := exists_digit_of_each each member
    exact isBlank_of_digitIn? digit
  have letter {x : Char} (mark : x = 'x' ∨ x = 'X') : Text.isBlank x = false := by
    rcases mark with rfl | rfl <;> rfl
  cases spelled with
  | plain mark each =>
    exact ⟨by simp, List.forall_mem_cons.2 ⟨rfl, List.forall_mem_cons.2 ⟨letter mark, digits each⟩⟩⟩
  | minus mark each =>
    exact ⟨by simp, List.forall_mem_cons.2 ⟨rfl, List.forall_mem_cons.2 ⟨rfl,
      List.forall_mem_cons.2 ⟨letter mark, digits each⟩⟩⟩⟩

end Numeral

namespace Settings
variable {v : Int} {d : Datum}

inductive SpellsInteger : Int → Datum → Prop where
  | number (v : Int) : SpellsInteger v (.int v)
  | decimal {before t after : Text} {v : Int} (blank : ∀ c ∈ before ++ after, Text.isBlank c)
      (spelled : Numeral.Spells t v) (few : t.countP Text.isDecimal ≤ Numeral.digitLimit) :
      SpellsInteger v (.text (Text.raw (before ++ t ++ after)))
  | hexadecimal {before t after : Text} {v : Int} (blank : ∀ c ∈ before ++ after, Text.isBlank c)
      (spelled : Numeral.SpellsHex t v) : SpellsInteger v (.text (Text.raw (before ++ t ++ after)))

theorem isHexadecimal_of_spells {t : Text} (spelled : Numeral.Spells t v) : isHexadecimal t = false := by
  have later : ∀ c ∈ t.tail, Text.isDecimal c := by
    cases spelled with
    | plain each => exact fun c member => Numeral.isDecimal_of_each each (List.mem_of_mem_tail member)
    | plus each => exact fun c => Numeral.isDecimal_of_each each
    | minus each => exact fun c => Numeral.isDecimal_of_each each
  have apart {x : Char} (decimal : Text.isDecimal x) : (x == 'x' || x == 'X') = false := by
    simp only [Bool.or_eq_false_iff, beq_eq_false_iff_ne]
    constructor <;> rintro rfl <;> revert decimal <;> decide
  unfold isHexadecimal
  split
  · exact apart (later _ (by simp))
  · exact apart (later _ (by simp))
  · rfl

theorem isHexadecimal_of_spellsHex {t : Text} (spelled : Numeral.SpellsHex t v) : isHexadecimal t = true := by
  cases spelled with
  | plain mark => rcases mark with rfl | rfl <;> rfl
  | minus mark => rcases mark with rfl | rfl <;> rfl

theorem textInteger_padded {before t after : Text} (blank : ∀ c ∈ before ++ after, Text.isBlank c)
    (solid : t ≠ [] ∧ ∀ c ∈ t, Text.isBlank c = false) :
    textInteger (Text.raw (before ++ t ++ after)) =
      Numeral.read (if isHexadecimal t then .hexadecimal else .decimal) t := by
  rw [textInteger, RawText.trim_raw, Text.trim_padded blank solid.2 solid.1]
  simp only [RawText.legible_raw, Numeral.readRaw_raw]

theorem integer_of_spells (spelled : SpellsInteger v d) : integer d = .ok v := by
  cases spelled with
  | number => rfl
  | decimal blank spelled few =>
    rw [integer, textInteger_padded blank spelled.solid, if_neg (by simp [isHexadecimal_of_spells spelled]),
      Numeral.read_of_spells spelled few]
  | hexadecimal blank spelled =>
    rw [integer, textInteger_padded blank spelled.solid, if_pos (isHexadecimal_of_spellsHex spelled),
      Numeral.read_of_spellsHex spelled]

def truthWord (b : Bool) : Text := if b then "True".toList else "False".toList

theorem integer_bool (b : Bool) : integer (.bool b) = .error (.notInteger (truthWord b)) := by
  cases b <;> rfl

def SpellsName (name : RawText) (d : Datum) : Prop :=
  ∃ t : RawText, d = .text t ∧ t.capitals = name.capitals

theorem upper_of_spells {name t : RawText} (upper : name.upper = name) (same : t.capitals = name.capitals) :
    t.upper = name := by
  rw [← RawText.upper_capitals, same, RawText.upper_capitals, upper]

end Settings
end StageMachine
