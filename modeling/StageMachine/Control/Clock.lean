import StageMachine.Control.MicroStepper

/-! The clock: while it runs, every tick advances the display. A tick at the end of the program, after
its last stage was shown, stops the clock. -/
namespace StageMachine

/-- A display with a clock. -/
structure Clock where
  display : Display
  isRunning : Bool := false

/-- What a tick tells. -/
inductive Emission where
  | stepped (moment : Snapshot)
  | halted
  deriving DecidableEq, Repr

namespace Clock

def onDisplay {α : Type} (act : Act Display α) : Act Clock α :=
  Act.on Clock.display (fun c display => { c with display }) act

/-- Starts the clock. The interval of the session is used where none is given. -/
def start (interval : Option Int) : Act Clock Unit := do
  let interval ← Act.ofExcept (chosenInterval interval (← get).display.session.clockInterval)
  if interval < 0 then
    let _ ← Act.ofExcept (Numeral.decimal interval)
    throw (.negativeClockInterval interval)
  else modify fun c => { c with isRunning := true }

def pause : Act Clock Unit := modify fun c => { c with isRunning := false }

def tick : Act Clock Emission := do
  let c ← get
  if c.display.session.engine.isHalted && c.display.isRevealed then
    pause
    discard (onDisplay (Display.onSession Session.step))
    return .halted
  else return .stepped (← onDisplay Display.advance)

def tickIfRunning : Act Clock (Option Emission) := do
  if (← get).isRunning then some <$> tick else return none

end Clock
end StageMachine
