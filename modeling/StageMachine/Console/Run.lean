import StageMachine.Console.Arguments
import StageMachine.Console.Display
import StageMachine.Control.Clock
import StageMachine.Settings.Build

/-! The console: builds a session as the command line says, lets the clock tick until the program ends
or has made its steps, and shows what happened. -/
namespace StageMachine.Console

/-- A console at work: its clock, and what it has shown. -/
structure Terminal where
  clock : Clock
  quiet : Bool
  maxSteps : Option Int
  /-- The lines shown, latest first. -/
  shown : List Text := []
  closed : Bool := false

/-- How a command line ended. -/
inductive Outcome where
  | refused (refusal : Refusal)
  | failed (fault : Fault)
  | finished (shown : List Text) (log : List RawText)
  deriving DecidableEq, Repr

def showLine (t : Text) : Act Terminal Unit := modify fun c => { c with shown := t :: c.shown }

def close : Act Terminal Unit := modify fun c => { c with closed := true }

/-- The number of steps after which the console stops; one is needed to compare with. -/
def stepLimit (c : Terminal) : Except Fault Int :=
  match c.maxSteps with
  | some limit => .ok limit
  | none => .error .emptyNumber

def onClock {α : Type} (act : Act Clock α) : Act Terminal α :=
  Act.on Terminal.clock (fun c clock => { c with clock }) act

/-- After a step or micro-step: shows its line, and closes after the last step that is allowed. -/
def onStepped (m : Snapshot) : Act Terminal Unit := do
  let c ← get
  let stepper := c.clock.display.stepper
  if !c.quiet then
    showLine (← Act.ofExcept (momentLine m (if stepper.enabled then some stepper.position else none)))
  let limit ← Act.ofExcept (stepLimit c)
  if limit ≤ m.stepCount && c.clock.display.isRevealed then
    onClock Clock.pause
    showLine ("Stopped after ".toList ++ Nat.toDigits 10 m.stepCount ++
      " stage steps (limit reached).".toList)
    close

def onHalted : Act Terminal Unit := do
  showLine "Program complete.".toList
  close

def turn : Act Terminal Unit := do
  match ← onClock Clock.tickIfRunning with
  | some (.stepped m) => onStepped m
  | some .halted => onHalted
  | none => return

section
variable (outlives : Bool)

/-- The event loop: turns until the console is closed. A fault in one of them ends the loop too, unless the
loop outlives it and goes on with the next turn. There is an outcome exactly where this comes to an end. -/
def turns (c : Terminal) : Option (EStateM.Result Fault Terminal Unit) :=
  if c.closed then some (.ok () c)
  else
    match turn c with
    | .ok () c => by
      apply turns
      exact c
    | .error fault c =>
      if outlives then by
        apply turns
        exact c
      else some (.error fault c)
partial_fixpoint

/-- The turns as an action. Turns without an end have no outcome of their own, and count as a fault. -/
def loop : Act Terminal Unit := fun c =>
  match turns outlives c with
  | some outcome => outcome
  | none => .error .unfinished c

end

def rank? (level : Text) : Option Nat :=
  [("CRITICAL".toList, 50), ("FATAL".toList, 50), ("ERROR".toList, 40), ("WARN".toList, 30),
    ("WARNING".toList, 30), ("INFO".toList, 20), ("DEBUG".toList, 10), ("NOTSET".toList, 0)].lookup
    level

def logRank : Option Text → Except Fault Nat
  | none => .error .emptyLevel
  | some level =>
    match rank? (Text.upper level) with
    | some rank => .ok rank
    | none => .error (.unknownLevel (Text.upper level))

def settingsFile? (a : Arguments) : Option Text := a.config.filter (!·.isEmpty)

/-- The settings of a command line, with the interval of the clock. An interval without a value counts as
zero where no settings are named. -/
def settings (h : Host) (a : Arguments) : Report (Settings × Option Int) := do
  let (settings, interval) ← match settingsFile? a with
    | some path => do
      let settings ← Settings.ofFile h path.raw
      pure (settings, a.interval.getD settings.clockInterval)
    | none => pure ({}, some (a.interval.join.getD 0))
  match a.source.filter (!·.isEmpty) with
  | some path => return ({ settings with program := .text path.raw }, interval)
  | none => return (settings, interval)

def play (outlives : Bool) (interval : Option Int) : Act Terminal Unit := do
  onClock (Clock.start (some (← Act.ofExcept (chosenInterval interval none))))
  loop outlives
  let state := (← get).clock.display.session.engine.state
  for line in ← Act.ofExcept (stateLines state) do
    showLine line

def perform (h : Host) (a : Arguments) : Report (List Text) := do
  let (settings, interval) ← settings h a
  let session ← Session.build h settings
  let display : Display := { session, stepper := { enabled := a.micro || settings.microStepping } }
  let start : Terminal := { clock := { display }, quiet := a.quiet, maxSteps := a.maxSteps }
  match play h.outlivesFaults interval start with
  | .ok _ c => ⟨c.clock.display.session.journal.reverse, .ok c.shown.reverse⟩
  | .error fault c => ⟨c.clock.display.session.journal.reverse, .error fault⟩

def run (h : Host) (line : List Text) : Outcome :=
  match Arguments.parse line with
  | .error refusal => .refused refusal
  | .ok a =>
    match logRank a.logLevel with
    | .error fault => .failed fault
    | .ok rank =>
      let report := perform h a
      match report.outcome with
      | .error fault => .failed fault
      | .ok shown =>
        let logged := report.remarks.filter fun r => rank ≤ r.level.rank
        .finished shown ((logged.filterMap Remark.line?).flatMap RawText.lines)

end StageMachine.Console
