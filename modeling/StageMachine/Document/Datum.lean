import StageMachine.Document.Timestamp
import StageMachine.Numeral.Binary64

/-! Values of a configuration: what a document can hold, what a caller can hand over, and how such a
value is shown in a message. -/
namespace StageMachine

/-- A configuration value. The entries of a mapping keep their order, and no key occurs twice. -/
inductive Datum where
  | null
  | bool (b : Bool)
  | int (v : Int)
  | float (x : Float)
  | text (t : RawText)
  | timestamp (t : Document.Timestamp)
  | list (items : List Datum)
  | mapping (entries : List (Datum × Datum))

namespace Datum

instance : Inhabited Datum := ⟨null⟩

def kind : Datum → Text
  | null => "NoneType".toList
  | bool _ => "bool".toList
  | int _ => "int".toList
  | float _ => "float".toList
  | text _ => "str".toList
  | timestamp t => t.kind
  | list _ => "list".toList
  | mapping _ => "dict".toList

/-- Neither missing, false, zero nor empty. -/
def isGiven : Datum → Bool
  | null => false
  | bool b => b
  | int v => v != 0
  | float x => x != 0.0
  | text t => !t.isEmpty
  | timestamp _ => true
  | list items => !items.isEmpty
  | mapping entries => !entries.isEmpty

mutual

/-- A value as it is shown inside another one: texts are quoted. -/
def quoted : Datum → Except Fault Text
  | null => .ok "None".toList
  | bool true => .ok "True".toList
  | bool false => .ok "False".toList
  | int v => Numeral.decimal v
  | float x => .ok (Numeral.floatText x)
  | text t => .ok t.quoted
  | timestamp t => .ok t.quoted
  | list items => do return '[' :: Text.joined [',', ' '] (← quotedItems items) ++ [']']
  | mapping entries => do return '\x7b' :: Text.joined [',', ' '] (← quotedEntries entries) ++ ['\x7d']

def quotedItems : List Datum → Except Fault (List Text)
  | [] => .ok []
  | item :: rest => do
    let first ← quoted item
    return first :: (← quotedItems rest)

def quotedEntries : List (Datum × Datum) → Except Fault (List Text)
  | [] => .ok []
  | (key, value) :: rest => do
    let name ← quoted key
    let shown ← quoted value
    return (name ++ ": ".toList ++ shown) :: (← quotedEntries rest)

end

/-- A value other than a text as it is shown by itself: a date or time is shown as it is written. -/
def written : Datum → Except Fault Text
  | timestamp t => .ok t.text
  | d => d.quoted

/-- A value as it is shown by itself: a text is shown as it is. -/
def shown : Datum → Except Fault RawText
  | text t => .ok t
  | d => d.written.map Text.raw

def wholeNumber? (x : Float) : Option Int :=
  if x.isNaN || x.isInf then none
  else
    let b := Numeral.Binary.ofBits x.toBits
    let divisor := Nat.pow 2 (-b.exponent).toNat
    if b.mantissa % divisor = 0 then
      let magnitude : Int := b.mantissa / divisor * Nat.pow 2 b.exponent.toNat
      some (if x < 0.0 then -magnitude else magnitude)
    else none

/-- The integer that a value counts as when it is a key. -/
def keyNumber? : Datum → Option Int
  | bool b => some (if b then 1 else 0)
  | int v => some v
  | float x => wholeNumber? x
  | _ => none

/-- Two values are the same key. Numbers are, where their values are equal; what is no number is the same
as itself. -/
def sameKey (a b : Datum) : Bool :=
  match a, b with
  | null, null => true
  | text s, text t => s == t
  | timestamp s, timestamp t => s.isSame t
  | float x, float y => x == y || (x.isNaN && y.isNaN)
  | a, b =>
    match a.keyNumber?, b.keyNumber? with
    | some m, some n => m == n
    | _, _ => false

/-- Puts an entry into a mapping. A key that is there keeps its place and takes the new value. -/
def putEntry (key value : Datum) : List (Datum × Datum) → List (Datum × Datum)
  | [] => [(key, value)]
  | (k, v) :: rest => if k.sameKey key then (k, value) :: rest else (k, v) :: putEntry key value rest

def lookup? (name : Text) (entries : List (Datum × Datum)) : Option Datum :=
  (entries.find? fun entry => entry.1.sameKey (text name.raw)).map (·.2)

end Datum
end StageMachine
