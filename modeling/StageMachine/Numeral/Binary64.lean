import StageMachine.Fault

/-! Double precision numbers in decimal. A number is written with the fewest digits that read back as
the same number, and among those with the nearest; positionally from 0.0001 up to below 10 to the 16,
else with an exponent. -/
namespace StageMachine.Numeral

/-- A positive number m · 2 ^ q, and whether the gap below it is half the gap above it. -/
structure Binary where
  mantissa : Nat
  exponent : Int
  narrowBelow : Bool

def Binary.ofBits (bits : UInt64) : Binary :=
  let fraction : Nat := bits.toNat % Nat.pow 2 52
  let biased : Nat := bits.toNat / Nat.pow 2 52 % Nat.pow 2 11
  if biased = 0 then ⟨fraction, -1074, false⟩
  else ⟨Nat.pow 2 52 + fraction, (biased : Int) - 1075, fraction = 0 && biased ≠ 1⟩

/-- Four times the number over a common denominator, with the ends of the interval that reads back. -/
structure Interval where
  low : Nat
  value : Nat
  high : Nat
  denominator : Nat
  closed : Bool

def Binary.interval (b : Binary) : Interval :=
  let scale := Nat.pow 2 b.exponent.toNat
  { low := (4 * b.mantissa - if b.narrowBelow then 1 else 2) * scale
    value := 4 * b.mantissa * scale
    high := (4 * b.mantissa + 2) * scale
    denominator := 4 * Nat.pow 2 (-b.exponent).toNat
    closed := b.mantissa % 2 = 0 }

/-- The multiple of 10 ^ k that reads back, if there is one: the nearest of the two neighbours, the
even one of two equally near. -/
def Interval.onGrid? (i : Interval) (k : Int) : Option Nat :=
  let unit := Nat.pow 10 k.toNat * i.denominator
  let scale := Nat.pow 10 (-k).toNat
  let reads (c : Nat) : Bool :=
    if i.closed then i.low * scale ≤ c * unit && c * unit ≤ i.high * scale
    else i.low * scale < c * unit && c * unit < i.high * scale
  let below := i.value * scale / unit
  let above := below + 1
  match reads below, reads above with
  | false, false => none
  | true, false => some below
  | false, true => some above
  | true, true =>
    let down := i.value * scale - below * unit
    let up := above * unit - i.value * scale
    some (if down < up || (down = up && below % 2 = 0) then below else above)

/-- The coarsest grid with a multiple that reads back, and the multiple. -/
def Interval.shortest (i : Interval) : Nat → Int → Nat × Int
  | 0, k => (0, k)
  | fuel + 1, k =>
    match i.onGrid? k with
    | some c => (c, k)
    | none => i.shortest fuel (k - 1)

/-- The digits with the decimal point after the first `point` of them. -/
def layout (digits : Text) (point : Int) : Text :=
  if -4 < point ∧ point ≤ 16 then
    if point ≤ 0 then "0.".toList ++ List.replicate (-point).toNat '0' ++ digits
    else if digits.length ≤ point then
      digits ++ List.replicate (point.toNat - digits.length) '0' ++ ".0".toList
    else digits.take point.toNat ++ '.' :: digits.drop point.toNat
  else
    let power := (point - 1).natAbs
    let tail := if power < 10 then '0' :: Nat.toDigits 10 power else Nat.toDigits 10 power
    let lead := match digits with
      | first :: second :: rest => first :: '.' :: second :: rest
      | _ => digits
    lead ++ 'e' :: (if point - 1 < 0 then '-' else '+') :: tail

/-- The least integer whose nearest neighbour of 53 bits is 2 ^ 1024, which is no double. -/
def beyondFloat : Int := Int.pow 2 1024 - Int.pow 2 970

def nearest (n : Nat) : Except Fault Float :=
  if beyondFloat ≤ n then .error .beyondFloat else .ok (Float.ofScientific n false 0)

def floatText (x : Float) : Text :=
  if x.isNaN then "nan".toList
  else
    let sign : Text := if x.toBits.toNat / Nat.pow 2 63 = 1 then ['-'] else []
    if x.isInf then sign ++ "inf".toList
    else
      let b := Binary.ofBits x.toBits
      if b.mantissa = 0 then sign ++ "0.0".toList
      else
        let (c, k) := b.interval.shortest 700 310
        let digits := Nat.toDigits 10 c
        sign ++ layout digits (digits.length + k)

end StageMachine.Numeral
