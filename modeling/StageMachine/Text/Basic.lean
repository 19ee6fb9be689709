/-! Texts as lists of characters, each of which is one code point. Everything in this library cuts,
counts and compares texts by code point, so a text is a list and the list operations apply to it. -/
namespace StageMachine

/-- A text, character by character. -/
abbrev Text := List Char

namespace Text

def ofString (s : String) : Text := s.toList

def toString (t : Text) : String := String.ofList t

@[simp] theorem ofString_toString (t : Text) : ofString t.toString = t := by
  simp [ofString, toString]

/-- The pieces between the separators: one more piece than there are separators. -/
def splitWhen {α : Type} (separator : α → Bool) : List α → List (List α)
  | [] => [[]]
  | c :: rest =>
    match separator c, splitWhen separator rest with
    | true, pieces => [] :: pieces
    | false, [] => [[c]]
    | false, piece :: pieces => (c :: piece) :: pieces

theorem splitWhen_ne_nil {α : Type} (separator : α → Bool) (t : List α) : splitWhen separator t ≠ [] := by
  cases t with
  | nil => simp [splitWhen]
  | cons c rest => rw [splitWhen]; split <;> simp

/-- The lines of a text. Only the line feed ends a line. -/
def lines (t : Text) : List Text := splitWhen (· == '\n') t

def unifyNewlines : Text → Text
  | [] => []
  | '\r' :: '\n' :: rest => '\n' :: unifyNewlines rest
  | c :: rest => (if c = '\r' then '\n' else c) :: unifyNewlines rest

def joined (between : Text) : List Text → Text
  | [] => []
  | [t] => t
  | t :: rest => t ++ between ++ joined between rest

end Text
end StageMachine
