import StageMachine.Fault
import StageMachine.Text.Blank
import StageMachine.Text.Digit

/-! Numerals. Writing is plain decimal with a bound on the number of digits. Reading takes a base,
white space at the ends, one sign, the base's own mark and single underscores between digits; digits
of any script count by their value. -/
namespace StageMachine.Numeral

/-- The most decimal digits that are read or written. -/
def digitLimit : Nat := 4300

/-- The least number that is too long to be written. -/
def ceiling : Nat := Nat.pow 10 digitLimit

def plain : Int → Text
  | .ofNat n => Nat.toDigits 10 n
  | .negSucc n => '-' :: Nat.toDigits 10 (n + 1)

/-- An integer in decimal digits, if it has no more of them than the limit. -/
def decimal (v : Int) : Except Fault Text :=
  if v.natAbs < ceiling then .ok (plain v) else .error .numberTooLong

/-- The value of a list of digits, the first one being the highest. -/
def digitsValue (base : Nat) (digits : List Nat) : Nat :=
  digits.foldl (fun value digit => base * value + digit) 0

def leadingDigits : Text → List Nat
  | [] => []
  | c :: rest =>
    match Text.digitValue? c with
    | some digit => digit :: leadingDigits rest
    | none => []

def signed : Text → Bool × Text
  | '-' :: rest => (true, rest)
  | '+' :: rest => (false, rest)
  | rest => (false, rest)

/-- The integer with the given sign and digits, if there are not too many of them. -/
def ofDigits (negative : Bool) (digits : List Nat) : Except Fault Int :=
  if digitLimit < digits.length then .error (.numeralTooLong digits.length)
  else .ok (if negative then -digitsValue 10 digits else digitsValue 10 digits)

/-- The signed decimal integer a text starts with, after white space; what follows it is ignored. -/
def leadingInt? (t : Text) : Except Fault (Option Int) :=
  let (negative, rest) := signed (Text.trimStart t)
  match leadingDigits rest with
  | [] => .ok none
  | digits => (ofDigits negative digits).map some

/-- The bases of numerals that are read. -/
inductive Base where
  | binary | octal | decimal | hexadecimal
  deriving DecidableEq, Repr

namespace Base

def radix : Base → Nat
  | binary => 2
  | octal => 8
  | decimal => 10
  | hexadecimal => 16

def isMark : Base → Char → Bool
  | binary, c => c == 'b' || c == 'B'
  | octal, c => c == 'o' || c == 'O'
  | decimal, _ => false
  | hexadecimal, c => c == 'x' || c == 'X'

end Base

def digitIn? (base : Base) (c : Char) : Option Nat :=
  let value :=
    if 'a' ≤ c && c ≤ 'z' then some (c.toNat - 'a'.toNat + 10)
    else if 'A' ≤ c && c ≤ 'Z' then some (c.toNat - 'A'.toNat + 10)
    else Text.digitValue? c
  value.filter (· < base.radix)

def asciiDigit? (base : Base) (c : Char) : Option Nat :=
  if c.toNat < 0x80 then digitIn? base c else none

def isDigitOf (base : Base) (c : Char) : Bool := (asciiDigit? base c).isSome

/-- White space around a numeral: the information separators do not count. -/
def isPadding (c : Char) : Bool :=
  Text.isBlank c && !(0x1C ≤ c.toNat && c.toNat ≤ 0x1F)

/-- What stands before a place in a numeral. -/
inductive Before where
  | start | digit | underscore
  deriving DecidableEq, Repr

/-- The digits of a numeral with single underscores between them, and what follows the last digit.
Nothing is returned where an underscore has no digit on one of its sides. -/
def groupedDigits (base : Base) (before : Before) : Text → Option (List Nat × Text)
  | [] => if before = .underscore then none else some ([], [])
  | c :: rest =>
    if c = '_' then
      if before = .digit then groupedDigits base .underscore rest else none
    else
      match digitIn? base c with
      | some digit => (groupedDigits base .digit rest).map fun found => (digit :: found.1, found.2)
      | none => if before = .underscore then none else some ([], c :: rest)

/-- Skips the mark of the base, a zero and a letter, with an underscore after it. -/
def dropMark (base : Base) : Text → Text
  | lead :: mark :: rest =>
    if Text.digitValue? lead = some 0 ∧ base.isMark mark then
      match rest with
      | '_' :: more => more
      | _ => rest
    else lead :: mark :: rest
  | t => t

/-- Reads an integer in the given base. What is refused is shown as the given text. -/
def readAs (shown : RawText) (base : Base) (t : Text) : Except Fault Int :=
  let refuse : Except Fault Int := .error (.notNumeral base.radix shown)
  let (negative, rest) := signed (t.dropWhile (isPadding))
  match groupedDigits base .start (dropMark base rest) with
  | none => refuse
  | some (digits, after) =>
    if base = .decimal ∧ digitLimit < digits.length then .error (.numeralTooLong digits.length)
    else if digits.isEmpty || !(after.all (isPadding)) then refuse
    else
      let value : Int := digitsValue base.radix digits
      .ok (if negative then -value else value)

def read (base : Base) (t : Text) : Except Fault Int := readAs t.raw base t

/-- Reads an integer in the given base; a half of a pair is no part of one. -/
def readRaw (base : Base) (t : RawText) : Except Fault Int := readAs t base t.legible

theorem readRaw_raw (base : Base) (t : Text) : readRaw base t.raw = read base t := by
  simp [readRaw, read]

end StageMachine.Numeral
