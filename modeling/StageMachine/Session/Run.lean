import StageMachine.Numeral.Binary64
import StageMachine.Session.Basic

/-! Running: step after step until the program ends, a breakpoint is met, a limit is reached or someone
pauses the session. A breakpoint on the program counter does not hold a run that starts on it. -/
namespace StageMachine.Session

/-- How far a run has come. -/
structure Progress where
  /-- Steps made. -/
  steps : Nat := 0
  /-- Waits between steps. -/
  sleeps : Nat := 0
  /-- The latest moment, before the first step that of the step before the run. -/
  snapshot : Option Snapshot := none
  deriving Repr

/-- Whether a run goes on. -/
inductive Verdict where
  | stop | go
  deriving DecidableEq, Repr

/-- Waits, unless the interval is zero or the run was paused. An interval has to be in the range of floating
point numbers; that one can sleep for so long is taken for granted. -/
def wait (interval : Int) (p : Progress) : Act Session Progress := do
  if interval ≠ 0 ∧ (← get).running then
    if Numeral.beyondFloat ≤ interval then throw .beyondFloat
    else return { p with sleeps := p.sleeps + 1 }
  else return p

/-- The end of a run at the end of its program: the halted machine is stepped once more. -/
def finish (p : Progress) : Act Session Progress := do
  let m ← step
  note (.completeAfter (← get).engine.stepCount)
  return { p with snapshot := some m }

def stride (interval : Int) (maxSteps : Option Int) (p : Progress) :
    Act Session (Progress × Verdict) := do
  let before := (← get).engine.state
  let m ← step
  let p := { p with snapshot := some m, steps := p.steps + 1 }
  if ← Act.ofExcept (Breakpoint.anyStopsAfter m before (← get).breakpoints) then
    note (.breakpointHit m.state.pc)
    return (p, .stop)
  else if maxSteps.any (fun limit => limit ≤ (p.steps : Int)) then return (p, .stop)
  else return (← wait interval p, .go)

def turn (interval : Int) (maxSteps : Option Int) (p : Progress) :
    Act Session (Progress × Verdict) := do
  let s ← get
  if s.engine.isHalted then return (← finish p, .stop)
  else if p.steps ≠ 0 ∧ s.breakpoints.any (·.stopsBefore s.engine.state) then
    note (.breakpointHit s.engine.state.pc)
    return (p, .stop)
  else stride interval maxSteps p

section
variable (interval : Int) (maxSteps : Option Int)

/-- Takes turns until one of them stops the run or someone pauses it. There is an outcome exactly where
this comes to an end. -/
def turns (p : Progress) (s : Session) : Option (EStateM.Result Fault Session Progress) :=
  if s.running then
    match turn interval maxSteps p s with
    | .ok (p, .stop) s => some (.ok p s)
    | .ok (p, .go) s => by
      apply turns
      · exact p
      · exact s
    | .error fault s => some (.error fault s)
  else some (.ok p s)
partial_fixpoint

/-- The turns as an action. Turns without an end have no outcome of their own, and count as a fault. -/
def loop (p : Progress) : Act Session Progress := fun s =>
  match turns interval maxSteps p s with
  | some outcome => outcome
  | none => .error .unfinished s

end

/-- Runs the program. The interval of the session is used where none is given; without a limit on the
steps the run may be endless. -/
def run (interval maxSteps : Option Int) : Act Session Progress := do
  let s ← get
  let interval ← Act.ofExcept (chosenInterval interval s.clockInterval)
  if interval < 0 then
    let _ ← Act.ofExcept (Numeral.decimal interval)
    throw (.negativeRunInterval interval)
  else
    modify fun s => { s with running := true }
    let p ← loop interval maxSteps { snapshot := s.last }
    modify fun s => { s with running := false }
    return p

/-- The limit on the steps of a run to the end of the program. -/
def completionLimit : Int := 100000

/-- Runs the program to its end without waiting. -/
def runToCompletion (maxSteps : Option Int := some completionLimit) : Act Session Progress :=
  run (some 0) maxSteps

end StageMachine.Session
