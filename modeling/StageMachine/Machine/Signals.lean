import StageMachine.Fault

/-! The control unit. Four bits of the instruction word switch the parts of the machine on; no other
bit, and nothing of the machine's state, plays a part. -/
namespace StageMachine

/-- The control signals. -/
structure Signals where
  /-- The second operand is an immediate. -/
  mb : Bool := false
  /-- A register takes its value from memory. -/
  md : Bool := false
  /-- A register is written. -/
  rw : Bool := false
  /-- Memory is written. -/
  mw : Bool := false
  /-- The program counter is loaded by a jump or a branch. -/
  pl : Bool := false
  /-- The load is a jump. -/
  jb : Bool := false
  /-- The polarity of a branch; decoded, but no branch looks at it. -/
  bc : Bool := false
  deriving DecidableEq, Repr

namespace Signals

/-- The signals by name, in the order in which they are shown. -/
def toList (s : Signals) : List (Text × Bool) :=
  [("MB".toList, s.mb), ("MD".toList, s.md), ("RW".toList, s.rw), ("MW".toList, s.mw),
    ("PL".toList, s.pl), ("JB".toList, s.jb), ("BC".toList, s.bc)]

def active (s : Signals) : List Text := (s.toList.filter (·.2)).map (·.1)

def ofActive (names : List Text) : Signals where
  mb := names.contains "MB".toList
  md := names.contains "MD".toList
  rw := names.contains "RW".toList
  mw := names.contains "MW".toList
  pl := names.contains "PL".toList
  jb := names.contains "JB".toList
  bc := names.contains "BC".toList

/-- The signals that the bits 15, 14, 13 and 9 of a word stand for. -/
def ofBits (b15 b14 b13 b9 : Bool) : Signals where
  mb := b15
  md := b13
  rw := !b14
  mw := b14 && !b15
  pl := b15 && b14
  jb := b13
  bc := b9

/-- The signals of an instruction word. Only the first seven characters are looked at. -/
def decode : Text → Except Fault Signals
  | b15 :: b14 :: b13 :: _ :: _ :: _ :: b9 :: _ =>
    .ok (ofBits (b15 == '1') (b14 == '1') (b13 == '1') (b9 == '1'))
  | _ => .error .shortWord

end Signals
end StageMachine
