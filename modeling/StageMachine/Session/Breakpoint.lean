import StageMachine.Machine.Engine

/-! Breakpoints. One on the program counter stops a run before an instruction; the others look at the
step that was just made. -/
namespace StageMachine

/-- What a breakpoint waits for. -/
inductive BreakpointKind where
  /-- The instruction at a place is fetched next. -/
  | pcMatch
  /-- An address of data memory was written. -/
  | memoryWrite
  /-- A register has a value. -/
  | registerValue
  /-- A register has another value than before. -/
  | registerChange
  deriving DecidableEq, Repr

namespace BreakpointKind

def all : List BreakpointKind := [pcMatch, memoryWrite, registerValue, registerChange]

def name : BreakpointKind → Text
  | pcMatch => "PC_MATCH".toList
  | memoryWrite => "MEMORY_WRITE".toList
  | registerValue => "REGISTER_VALUE".toList
  | registerChange => "REGISTER_CHANGE".toList

def ofName? (t : Text) : Option BreakpointKind := all.find? (·.name == t)

end BreakpointKind

/-- A condition on which a run stops. -/
structure Breakpoint where
  kind : BreakpointKind
  /-- The place of an instruction, or the value of a register. -/
  value : Option Int := none
  /-- An address of data memory. -/
  address : Option Int := none
  /-- The name of a register. -/
  register : Option Text := none
  enabled : Bool := true
  deriving DecidableEq, Repr

/-- The number that a register name stands for: the letter R and digits, with white space around and in
either case. A name of another form stands for no register; digit forms that are no decimal digits are
a fault. -/
def registerNumber? (name : Option Text) : Except Fault (Option Int) :=
  match Text.upper (Text.trim (name.getD [])) with
  | 'R' :: digits =>
    if !digits.isEmpty && digits.all Text.isDigitForm then
      (Numeral.read .decimal digits).map some
    else .ok none
  | _ => .ok none

namespace Breakpoint

def stopsBefore (s : State) (b : Breakpoint) : Bool :=
  s.stage == .fetch && b.enabled && b.kind == .pcMatch && b.value == some s.pc

/-- The breakpoint stops a run after a step, given the moment after it and the state before it. -/
def stopsAfter (after : Snapshot) (before : State) (b : Breakpoint) : Except Fault Bool :=
  if !b.enabled then .ok false
  else
    match b.kind with
    | .pcMatch => .ok false
    | .memoryWrite =>
      .ok (after.stage == .writeBack && after.state.signals.mw && b.address == some after.state.alu)
    | .registerValue =>
      (registerNumber? b.register).map fun
        | none => false
        | some i => b.value == some (after.state.register i)
    | .registerChange =>
      (registerNumber? b.register).map fun
        | none => false
        | some i => after.state.register i != before.register i

/-- One of the breakpoints stops a run after a step. They are asked in turn, up to the first that
stops. -/
def anyStopsAfter (after : Snapshot) (before : State) : List Breakpoint → Except Fault Bool
  | [] => .ok false
  | b :: rest => do
    if ← b.stopsAfter after before then return true else anyStopsAfter after before rest

end Breakpoint
end StageMachine
