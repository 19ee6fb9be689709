import StageMachine.Numeral.Basic

/-! Dates and times of day. A date alone is written with all its digits; in front of a time of day the
month and the day may have one. A time may say how far it is ahead of universal time, and two times that
both say so are the same where they are the same moment. -/
namespace StageMachine.Document

open Numeral (isDigitOf)

/-- A time of day, to the millionth of a second. -/
structure DayTime where
  hour : Nat
  minute : Nat
  second : Nat
  micro : Nat := 0
  /-- The minutes that it is ahead of universal time, where that is known. -/
  offset : Option Int := none
  deriving DecidableEq, Repr

/-- A date, with or without a time of day. -/
structure Timestamp where
  year : Nat
  month : Nat
  day : Nat
  time : Option DayTime := none
  deriving DecidableEq, Repr

/-! ### Reading -/

def digits? (least most : Nat) (t : Text) : Option (Nat × Text) :=
  let found := (t.take most).takeWhile (isDigitOf .decimal)
  if least ≤ found.length then
    some (Numeral.digitsValue 10 (Numeral.leadingDigits found), t.drop found.length)
  else none

def after? (mark : Char) : Text → Option Text
  | c :: rest => if c = mark then some rest else none
  | [] => none

/-- The millionths of a second that the digits after a point stand for; further digits are cut off. -/
def micros (digits : Text) : Nat :=
  Numeral.digitsValue 10 (Numeral.leadingDigits ((digits ++ List.replicate 6 '0').take 6))

/-- The distance to universal time at the end of a time of day: none, the letter Z, or hours and
minutes with a sign. -/
def offset? (t : Text) : Option (Option Int) :=
  match t.dropWhile (· == ' ') with
  | [] => if t.isEmpty then some none else none
  | ['Z'] => some (some 0)
  | sign :: rest => do
    let (hours, rest) ← digits? 1 2 rest
    let minutes ← if rest.isEmpty then pure 0 else do
      let (minutes, rest) ← digits? 2 2 (← after? ':' rest)
      if rest.isEmpty then pure minutes else none
    let length : Int := 60 * hours + minutes
    if sign = '+' then some (some length) else if sign = '-' then some (some (-length)) else none

def dayTime? (t : Text) : Option DayTime := do
  let (hour, rest) ← digits? 1 2 t
  let (minute, rest) ← digits? 2 2 (← after? ':' rest)
  let (second, rest) ← digits? 2 2 (← after? ':' rest)
  let (fraction, rest) := match rest with
    | '.' :: rest => (rest.takeWhile (isDigitOf .decimal), rest.dropWhile (isDigitOf .decimal))
    | _ => ([], rest)
  return { hour, minute, second, micro := micros fraction, offset := ← offset? rest }

/-- What stands between a date and a time of day: a letter or spaces. -/
def afterDate? : Text → Option Text
  | 'T' :: rest | 't' :: rest => some rest
  | ' ' :: rest => some (rest.dropWhile (· == ' '))
  | _ => none

/-- The timestamp that is written in a text. It need not exist. -/
def timestamp? (t : Text) : Option Timestamp := do
  let (year, rest) ← digits? 4 4 t
  let monthAndDay ← after? '-' rest
  let (month, rest) ← digits? 1 2 monthAndDay
  let (day, rest) ← digits? 1 2 (← after? '-' rest)
  if rest.isEmpty then
    if monthAndDay.length = 5 then some { year, month, day } else none
  else return { year, month, day, time := some (← dayTime? (← afterDate? rest)) }

/-! ### The calendar -/

def isLeapYear (year : Nat) : Bool := year % 4 == 0 && (year % 100 != 0 || year % 400 == 0)

def monthLengths (year : Nat) : List Nat :=
  [31, if isLeapYear year then 29 else 28, 31, 30, 31, 30, 31, 31, 30, 31, 30, 31]

/-- The number of days before a date, counted from the beginning of the year one. -/
def dayNumber (t : Timestamp) : Nat :=
  let years := t.year - 1
  365 * years + years / 4 - years / 100 + years / 400 +
    ((monthLengths t.year).take (t.month - 1)).foldl (· + ·) 0 + (t.day - 1)

namespace Timestamp

def checkTime (time : DayTime) : Except Fault Unit := do
  if 24 ≤ time.hour then throw (.noSuchTime .hour)
  if 60 ≤ time.minute then throw (.noSuchTime .minute)
  if 60 ≤ time.second then throw (.noSuchTime .second)

def checkOffset (offset : Int) : Except Fault Unit :=
  if 1440 ≤ offset.natAbs then .error (.noSuchTime (.offset offset)) else .ok ()

def check (t : Timestamp) : Except Fault Timestamp := do
  if let some offset := t.time.bind (·.offset) then checkOffset offset
  if t.year = 0 then throw (.noSuchTime (.year t.year))
  if t.month = 0 ∨ 12 < t.month then throw (.noSuchTime .month)
  if t.day = 0 ∨ (monthLengths t.year).getD (t.month - 1) 0 < t.day then throw (.noSuchTime .day)
  if let some time := t.time then checkTime time
  return t

/-- The moment as millionths of a second of universal time, where the distance to it is known. -/
def instant? (t : Timestamp) : Option Int := do
  let time ← t.time
  let offset ← time.offset
  let minutes : Int := 1440 * dayNumber t + 60 * time.hour + time.minute - offset
  return (60 * minutes + time.second) * 1000000 + time.micro

def isSame (s t : Timestamp) : Bool :=
  match s.instant?, t.instant? with
  | some a, some b => a == b
  | _, _ => s == t

/-! ### Writing -/

def padded (places n : Nat) : Text :=
  let digits := Nat.toDigits 10 n
  List.replicate (places - digits.length) '0' ++ digits

def dateText (t : Timestamp) : Text :=
  padded 4 t.year ++ '-' :: padded 2 t.month ++ '-' :: padded 2 t.day

def offsetText (offset : Int) : Text :=
  (if offset < 0 then '-' else '+') :: padded 2 (offset.natAbs / 60) ++ ':' :: padded 2 (offset.natAbs % 60)

def timeText (time : DayTime) : Text :=
  padded 2 time.hour ++ ':' :: padded 2 time.minute ++ ':' :: padded 2 time.second ++
    (if time.micro = 0 then [] else '.' :: padded 6 time.micro) ++
    (time.offset.map offsetText).getD []

def text (t : Timestamp) : Text :=
  match t.time with
  | none => dateText t
  | some time => dateText t ++ ' ' :: timeText time

def kind (t : Timestamp) : Text :=
  if t.time.isSome then "datetime".toList else "date".toList

def quotedOffset (offset : Int) : Text :=
  if offset = 0 then "datetime.timezone.utc".toList
  else "datetime.timezone(".toList ++ durationText offset ++ [')']

/-- The parts of a time of day as they are shown inside another value: seconds and millionths where there
are any. -/
def quotedTime (time : DayTime) : List Text :=
  let numbers :=
    if time.micro ≠ 0 then [time.hour, time.minute, time.second, time.micro]
    else if time.second ≠ 0 then [time.hour, time.minute, time.second]
    else [time.hour, time.minute]
  numbers.map (Nat.toDigits 10) ++
    (time.offset.map fun offset => "tzinfo=".toList ++ quotedOffset offset).toList

def quoted (t : Timestamp) : Text :=
  let parts := [t.year, t.month, t.day].map (Nat.toDigits 10) ++ (t.time.map quotedTime).getD []
  "datetime.".toList ++ t.kind ++ '(' :: Text.joined [',', ' '] parts ++ [')']

end Timestamp
end StageMachine.Document
