import StageMachine.Document.Datum

/-! What a plain scalar stands for: nothing, a truth value, an integer in one of five notations, a
number with a point, a date or time, or else the text itself. -/
namespace StageMachine.Document

open Numeral (Base isDigitOf)

def isSpaced (base : Base) (c : Char) : Bool := c == '_' || isDigitOf base c

/-- The text without underscores. -/
def withoutGaps (t : Text) : Text := t.filter (· != '_')

/-- The text splits at colons into a first part and parts of one or two digits below sixty. -/
def sexagesimal? (t : Text) : Option (Text × List Text) :=
  let isPart : Text → Bool
    | [c] => isDigitOf .decimal c
    | [c, d] => '0' ≤ c && c ≤ '5' && isDigitOf .decimal d
    | _ => false
  match Text.splitWhen (· == ':') t with
  | first :: part :: parts => if (part :: parts).all isPart then some (first, part :: parts) else none
  | _ => none

/-- A part of a numeral of base sixty, or a numeral of another notation. -/
inductive IntegerForm where
  | based (base : Base) (digits : Text)
  | sexagesimal (parts : List Text)

/-- The notation of an integer without its sign. -/
def integerForm? (t : Text) : Option IntegerForm :=
  let digits := withoutGaps t
  match t with
  | ['0'] => some (.based .decimal digits)
  | '0' :: 'b' :: c :: rest =>
    if (c :: rest).all fun c => c == '0' || c == '1' || c == '_' then
      some (.based .binary (withoutGaps (c :: rest)))
    else none
  | '0' :: 'x' :: c :: rest =>
    if (c :: rest).all (isSpaced .hexadecimal) then
      some (.based .hexadecimal (withoutGaps (c :: rest)))
    else none
  | '0' :: rest =>
    if rest.all (isSpaced .octal) then
      some (.based (if digits = ['0'] then .decimal else .octal) digits)
    else none
  | c :: rest =>
    if isDigitOf .decimal c then
      if rest.all (isSpaced .decimal) then some (.based .decimal digits)
      else
        match sexagesimal? (c :: rest) with
        | some (first, parts) =>
          if first.all (isSpaced .decimal) then some (.sexagesimal (withoutGaps first :: parts))
          else none
        | none => none
    else none
  | [] => none

/-- The value of an integer without its sign. -/
def IntegerForm.value : IntegerForm → Except Fault Int
  | .based base digits => Numeral.read base digits
  | .sexagesimal parts => do
    let values ← parts.mapM (Numeral.read .decimal)
    return values.foldl (fun value part => 60 * value + part) 0

/-- A number with a point: digits before and after it and a power of ten. -/
structure PointForm where
  whole : Text
  fraction : Text
  exponent : Int := 0

def exponent? : Text → Option Int
  | [] => some 0
  | e :: sign :: c :: rest =>
    if (e = 'e' ∨ e = 'E') ∧ (sign = '+' ∨ sign = '-') ∧ (c :: rest).all (isDigitOf .decimal) then
      let power := Numeral.digitsValue 10 (Numeral.leadingDigits (c :: rest))
      some (if sign = '-' then -power else power)
    else none
  | _ => none

/-- The notation of a number with a point, without its sign. At least one digit is needed, in front of
the point unless the number has no sign. -/
def pointForm? (isSigned : Bool) (t : Text) : Option PointForm :=
  let whole := t.takeWhile (isSpaced .decimal)
  match t.dropWhile (isSpaced .decimal) with
  | '.' :: rest =>
    let fraction := rest.takeWhile (isSpaced .decimal)
    let begins (digits : Text) : Bool := digits.head?.any (isDigitOf .decimal)
    if begins whole || (whole.isEmpty && !isSigned && begins fraction) then
      (exponent? (rest.dropWhile (isSpaced .decimal))).map fun exponent =>
        { whole := withoutGaps whole, fraction := withoutGaps fraction, exponent }
    else none
  | _ => none

def PointForm.value (p : PointForm) : Float :=
  let digits := Numeral.leadingDigits (p.whole ++ p.fraction)
  let mantissa := Numeral.digitsValue 10 digits
  let scale : Int := p.exponent - p.fraction.length
  let magnitude : Int := scale + (digits.dropWhile (· == 0)).length
  if mantissa = 0 ∨ magnitude < -400 then 0.0
  else if 400 < magnitude then 1.0 / 0.0
  else Float.ofScientific mantissa (scale < 0) scale.natAbs

/-- The value of the parts of a number of base sixty, from the last part to the first. -/
def sexagesimalValue : List Float → Nat → Float → Except Fault Float
  | [], _, value => .ok value
  | part :: parts, base, value => do
    sexagesimalValue parts (60 * base) (value + part * (← Numeral.nearest base))

/-- A number of base sixty whose last part has a point. -/
def sexagesimalPoint? (t : Text) : Option (Except Fault Float) := do
  let (first, parts) ← sexagesimal? (t.takeWhile (· != '.'))
  let isNumber := first.head?.any (isDigitOf .decimal) && first.all (isSpaced .decimal)
  match t.dropWhile (· != '.') with
  | '.' :: fraction =>
    if isNumber && fraction.all (isSpaced .decimal) then
      let last : PointForm := { whole := parts.getLastD [], fraction := withoutGaps fraction }
      let others : List PointForm :=
        (withoutGaps first :: parts.dropLast).map ({ whole := ·, fraction := [] })
      some (sexagesimalValue ((others ++ [last]).reverse.map PointForm.value) 1 0.0)
    else none
  | _ => none

/-- The double that a text stands for. The places of a number of base sixty may be too many. -/
def float? (t : Text) : Option (Except Fault Float) :=
  let (negative, rest) := Numeral.signed t
  let isSigned := rest.length < t.length
  let sign (x : Float) : Float := if negative then -1.0 * x else x
  if [".inf".toList, ".Inf".toList, ".INF".toList].contains rest then some (.ok (sign (1.0 / 0.0)))
  else if [".nan".toList, ".NaN".toList, ".NAN".toList].contains t then some (.ok (0.0 / 0.0))
  else
    match pointForm? isSigned rest with
    | some p => some (.ok (sign p.value))
    | none => (sexagesimalPoint? rest).map (·.map sign)

/-- The integer that a text stands for. Its digits may still be too many, or none at all. -/
def integer? (t : Text) : Option (Except Fault Int) :=
  let (negative, rest) := Numeral.signed t
  (integerForm? rest).map fun form => form.value.map fun v => if negative then -v else v

def nulls : List Text := ["".toList, "~".toList, "null".toList, "Null".toList, "NULL".toList]

def truths : List Text :=
  ["yes".toList, "Yes".toList, "YES".toList, "true".toList, "True".toList, "TRUE".toList,
    "on".toList, "On".toList, "ON".toList]

def falsehoods : List Text :=
  ["no".toList, "No".toList, "NO".toList, "false".toList, "False".toList, "FALSE".toList,
    "off".toList, "Off".toList, "OFF".toList]

def mergeMark : Text := "<<".toList

def defaultMark : Text := "=".toList

/-- What a plain scalar stands for. The marks that are kept for keys have no value. -/
def plainValue (t : Text) : Except Fault Datum :=
  if nulls.contains t then .ok .null
  else if truths.contains t then .ok (.bool true)
  else if falsehoods.contains t then .ok (.bool false)
  else if t == mergeMark || t == defaultMark then .error .malformedDocument
  else
    match float? t, integer? t, timestamp? t with
    | some x, _, _ => x.map .float
    | none, some v, _ => v.map .int
    | none, none, some time => time.check.map .timestamp
    | none, none, none => .ok (.text t.raw)

end StageMachine.Document
