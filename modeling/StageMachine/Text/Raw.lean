import StageMachine.Text.Blank
import StageMachine.Text.Quoted
import StageMachine.Text.Upper

/-! Texts in which a half of a surrogate pair may stand alone. No character is such a half, and no
encoding of text has room for one, but an escape in a document can name it. -/
namespace StageMachine

/-- A code point: a character, or a half of a surrogate pair that stands alone. -/
inductive CodePoint where
  | char (c : Char)
  | half (offset : Fin 0x800)
  deriving DecidableEq, Repr

namespace CodePoint

def toNat : CodePoint → Nat
  | char c => c.toNat
  | half offset => 0xD800 + offset

def ofNat? (n : Nat) : Option CodePoint :=
  if n.isValidChar then some (char (Char.ofNat n))
  else if h : 0xD800 ≤ n ∧ n < 0xE000 then some (half ⟨n - 0xD800, by omega⟩)
  else none

def char? : CodePoint → Option Char
  | char c => some c
  | half _ => none

/-- A character of a class; halves are in none. -/
def isIn (p : Char → Bool) (x : CodePoint) : Bool := x.char?.any p

end CodePoint

/-- A text, code point by code point, halves of pairs included. -/
abbrev RawText := List CodePoint

def Text.raw (t : Text) : RawText := t.map .char

namespace RawText

/-- The characters of a text that has no halves. -/
def toText? (t : RawText) : Option Text := t.mapM CodePoint.char?

/-- The text with a character of no class in the place of each half. -/
def legible (t : RawText) : Text := t.map fun x => x.char?.getD '\ufffd'

def trim (t : RawText) : RawText :=
  let ended := (t.dropWhile (·.isIn Text.isBlank)).reverse
  (ended.dropWhile (·.isIn Text.isBlank)).reverse

/-- The text in capitals; a half has no capital. -/
def upper (t : RawText) : RawText := t.flatMap fun
  | .char c => Text.raw (Text.upperChar c)
  | .half offset => [.half offset]

/-- The lines of a text. Only the line feed ends a line. -/
def lines (t : RawText) : List RawText := Text.splitWhen (· == .char '\n') t

/-- The text between quotes; halves are written as their numbers. -/
def quoted (t : RawText) : Text :=
  let mark := Text.quoteMark (t.filterMap CodePoint.char?)
  let shown : CodePoint → Text
    | .char c => Text.quotedChar mark c
    | x => Text.numbered x.toNat
  mark :: t.flatMap shown ++ [mark]

def printed (t : RawText) : Text := t.flatMap fun
  | .char c => [c]
  | x => Text.numbered x.toNat

@[simp] theorem toText?_raw (t : Text) : toText? t.raw = some t := by
  induction t with
  | nil => rfl
  | cons c rest ih =>
    simp only [toText?, Text.raw, List.map_cons, List.mapM_cons, CodePoint.char?] at ih ⊢
    simp [ih]

@[simp] theorem legible_raw (t : Text) : legible t.raw = t := by
  simp [legible, Text.raw, Function.comp_def, CodePoint.char?]

@[simp] theorem upper_raw (t : Text) : upper t.raw = (Text.upper t).raw := by
  simp [upper, Text.raw, Text.upper, List.flatMap_map, List.map_flatMap]

@[simp] theorem quoted_raw (t : Text) : quoted t.raw = t.quoted := by
  simp [quoted, Text.quoted, Text.raw, List.flatMap_map, List.filterMap_map, Function.comp_def,
    CodePoint.char?]

end RawText
end StageMachine
