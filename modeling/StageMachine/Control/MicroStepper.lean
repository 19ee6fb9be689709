import StageMachine.Session.Basic

/-! Micro-steps: a display reveals a committed stage in several positions before the next stage is
made. The stepper counts positions and nothing else; the machine does not know of it. -/
namespace StageMachine

/-- The position of a display within the latest stage. -/
structure MicroStepper where
  enabled : Bool := false
  position : Nat := 0
  deriving DecidableEq, Repr

/-- The last position of a moment; a session without one has only the first. -/
def lastPosition : Option Snapshot → Nat
  | none => 0
  | some m => m.microSteps - 1

/-- A session with the stepper of its display. -/
structure Display where
  session : Session
  stepper : MicroStepper := {}

namespace Display

/-- The latest stage has been shown to its end. -/
def isRevealed (d : Display) : Bool :=
  !d.stepper.enabled || lastPosition d.session.last ≤ d.stepper.position

def setPosition (position : Nat) : Act Display Unit :=
  modify fun d => { d with stepper := { d.stepper with position } }

def onSession {α : Type} (act : Act Session α) : Act Display α :=
  Act.on Display.session (fun d session => { d with session }) act

/-- Makes a step and shows its first position. -/
def forward : Act Display Snapshot := do
  setPosition 0
  onSession Session.step

/-- Shows the next position of the latest stage, or makes the next step where it has been shown. -/
def advance : Act Display Snapshot := do
  let d ← get
  match d.session.last with
  | some m =>
    if d.isRevealed then forward
    else
      setPosition (d.stepper.position + 1)
      return m
  | none => forward

/-- Switches micro-steps on or off, and goes to the first position. -/
def setEnabled (enabled : Bool) : Act Display Unit :=
  modify fun d => { d with stepper := { enabled } }

end Display
end StageMachine
