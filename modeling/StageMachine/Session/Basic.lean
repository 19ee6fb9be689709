import StageMachine.Action
import StageMachine.Instruction.Assembly
import StageMachine.Machine.Engine
import StageMachine.Session.Breakpoint
import StageMachine.Session.History

/-! A session: one machine under control. A session loads programs, steps the machine forward and
back, and tells its listeners of every step. Listeners may act on the session while they are told, also
by stepping it again, so that steps nest. -/
namespace StageMachine

/-- What a listener does when it is told of a step. -/
inductive Reaction where
  /-- Nothing beyond noting the step. -/
  | record
  | pause
  | reset
  | step
  | stepBack
  | load (source : Text)
  /-- Stops listening. -/
  | leave
  | addBreakpoint (breakpoint : Breakpoint)
  deriving DecidableEq, Repr

/-- A listener: it notes every step, and reacts to some. -/
structure Listener where
  name : Text
  reaction : Reaction := .record
  /-- The step count at which it reacts; at every step where none is given. -/
  trigger : Option Int := none
  deriving DecidableEq, Repr

def Listener.reactsTo (l : Listener) (m : Snapshot) : Bool :=
  match l.trigger with
  | none => true
  | some count => count == m.stepCount

/-- A step that a listener was told of. -/
structure Delivery where
  listener : Text
  snapshot : Snapshot
  deriving DecidableEq, Repr

/-- A machine under control. -/
structure Session where
  engine : Engine := {}
  history : History
  /-- The moment of the latest step, until the state changes in another way. -/
  last : Option Snapshot := none
  /-- A run is going on. -/
  running : Bool := false
  source : Text := []
  breakpoints : List Breakpoint := []
  /-- Who is told of steps, in order. -/
  listeners : List Listener := []
  /-- The time between two steps of a run, in milliseconds, if one is set. -/
  clockInterval : Option Int := some 1000
  /-- What listeners were told, latest first. -/
  deliveries : List Delivery := []
  /-- What was remarked on, latest first. -/
  journal : List Remark := []

def chosenInterval (asked set : Option Int) : Except Fault Int :=
  match asked, set with
  | some interval, _ | none, some interval => .ok interval
  | none, none => .error .noInterval

namespace Session

def create (engine : Engine) (clockInterval historyLimit : Option Int) : Except Fault Session :=
  (History.create historyLimit).map fun history => { engine, history, clockInterval }

/-- The present moment: that of the latest step, or else the machine as it stands. -/
def snapshot (s : Session) : Except Fault Snapshot :=
  match s.last with
  | some m => .ok m
  | none => s.engine.snapshot

def note (r : Remark) : Act Session Unit := modify fun s => { s with journal := r :: s.journal }

def ofReport {α : Type} (r : Report α) : Act Session α := do
  modify fun s => { s with journal := r.remarks.reverse ++ s.journal }
  Act.ofExcept r.outcome

def pause : Act Session Unit := modify fun s => { s with running := false }

/-- Puts a new engine in place of a moment that is no longer present. -/
def restart (s : Session) (engine : Engine) : Session :=
  { s with engine, history := s.history.clear, last := none }

def reset : Act Session Unit := do
  pause
  modify fun s => s.restart s.engine.reset

def load (source : Text) : Act Session Unit := do
  pause
  modify fun s => { s with source }
  let program ← ofReport (Assembly.assemble source)
  modify fun s => s.restart (s.engine.load program)
  note (.loaded program.length)

/-- Adds a breakpoint that is not there yet. -/
def addBreakpoint (b : Breakpoint) : Act Session Unit :=
  modify fun s => if b ∈ s.breakpoints then s else { s with breakpoints := s.breakpoints ++ [b] }

def removeBreakpoint (b : Breakpoint) : Act Session Unit :=
  modify fun s => { s with breakpoints := s.breakpoints.erase b }

/-- Adds a listener that is not listening yet. -/
def addListener (l : Listener) : Act Session Unit :=
  modify fun s => if l ∈ s.listeners then s else { s with listeners := s.listeners ++ [l] }

def removeListener (l : Listener) : Act Session Unit :=
  modify fun s => { s with listeners := s.listeners.erase l }

def stepBack : Act Session (Option Snapshot) := do
  match (← get).history.pop? with
  | none => return none
  | some (m, history) =>
    modify fun s =>
      { s with
        engine := { s.engine with state := m.state, stepCount := m.stepCount }
        history
        last := none }
    some <$> Act.ofExcept (← get).engine.snapshot

/-- Steps the engine, past the history and the latest moment. -/
def drive : Act Session Unit := do
  let s ← get
  let engine ← Act.ofExcept s.engine.step
  set { s with engine, journal := s.engine.stepRemarks.reverse ++ s.journal }

/-- The session after its engine has moved from an earlier state to a new moment. A halted engine has not
moved, and leaves nothing to go back to. -/
def settled (s : Session) (before : Engine) (m : Snapshot) : Session :=
  { s with
    history := if m.halted then s.history else s.history.push ⟨before.state, before.stepCount⟩
    last := some m }

def commit : Act Session Snapshot := do
  let before := (← get).engine
  drive
  let m ← Act.ofExcept ((← get).engine.snapshotAt before.state.stage before.isHalted)
  modify fun s => s.settled before m
  return m

/-- A step that nests too deep. It is stopped where a step goes deepest, in showing the new moment: the engine
has moved by then, and the history and the latest moment have not. -/
def overrun : Act Session Snapshot := do
  drive
  throw .nestingTooDeep

/-- Lets a listener react; `step` is how it steps the session. -/
def react (step : Act Session Snapshot) (l : Listener) : Act Session Unit :=
  match l.reaction with
  | .record => return
  | .pause => pause
  | .reset => reset
  | .step => discard step
  | .stepBack => discard stepBack
  | .load source => load source
  | .leave => removeListener l
  | .addBreakpoint b => addBreakpoint b

def tell (step : Act Session Snapshot) (m : Snapshot) (l : Listener) : Act Session Unit := do
  modify fun s => { s with deliveries := ⟨l.name, m⟩ :: s.deliveries }
  if l.reactsTo m then react step l else return

def tellAll (step : Act Session Snapshot) (m : Snapshot) : List Listener → Act Session Unit
  | [] => return
  | l :: rest => do
    tell step m l
    tellAll step m rest

/-- Makes a step and tells everyone who was listening before it. Steps within steps nest no deeper
than the given number. -/
def stepWithin : Nat → Act Session Snapshot
  | 0 => overrun
  | depth + 1 => do
    let m ← commit
    tellAll (stepWithin depth) m (← get).listeners
    return m

/-- How deep steps nest, about: it depends on how deep the first of them was made. -/
def nestingLimit : Nat := 490

def step : Act Session Snapshot := stepWithin nestingLimit

end Session
end StageMachine
