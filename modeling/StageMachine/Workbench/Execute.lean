import StageMachine.Console.Display
import StageMachine.Workbench.Command

/-! The commands of a workbench carried out. -/
namespace StageMachine

/-- A session with all that is around it. -/
structure Workbench where
  workspace : Workspace
  session : Session
  stepper : MicroStepper := {}
  /-- The stepper of the clock, where it is not the one of the display. -/
  clockStepper : Option MicroStepper := none
  isClockRunning : Bool := false
  /-- States put aside, latest first. -/
  saved : List (Text × Moment) := []
  /-- Listeners by name, as they were first known. -/
  known : List Listener := []

namespace Workbench

/-- Sets up a workbench. Its clock may have a stepper of its own, that is never switched on. -/
def create (h : Host) (setup : Setup) (micro sharedStepper : Bool) : Report Workbench := do
  let session ← match setup with
    | .bare width clockInterval historyLimit => do
      let engine ← Engine.create h.capacity width
      monadLift (Session.create engine clockInterval historyLimit)
    | .configured configuration => do
      Session.build h (← configuration.decode h)
  return {
    workspace := h.toWorkspace
    session
    stepper := { enabled := micro }
    clockStepper := if sharedStepper then none else some {} }

def onSession {α : Type} (act : Act Session α) : Act Workbench α :=
  Act.on Workbench.session (fun b session => { b with session }) act

def display (b : Workbench) : Display := { session := b.session, stepper := b.stepper }

def onDisplay {α : Type} (act : Act Display α) : Act Workbench α :=
  Act.on display (fun b d => { b with session := d.session, stepper := d.stepper }) act

def clock (b : Workbench) : Clock where
  display := { session := b.session, stepper := b.clockStepper.getD b.stepper }
  isRunning := b.isClockRunning

def withClock (b : Workbench) (c : Clock) : Workbench :=
  let b := { b with session := c.display.session, isClockRunning := c.isRunning }
  match b.clockStepper with
  | none => { b with stepper := c.display.stepper }
  | some _ => { b with clockStepper := some c.display.stepper }

def onClock {α : Type} (act : Act Clock α) : Act Workbench α := Act.on clock withClock act

/-- An action a number of times over. -/
def repeated {σ α : Type} (act : Act σ α) : Nat → Act σ (List α)
  | 0 => return []
  | times + 1 => do
    let first ← act
    return first :: (← repeated act times)

/-- The listener that is known by the name of the given one, which is known from now on. -/
def knownListener (l : Listener) : Act Workbench Listener := do
  match (← get).known.find? (·.name == l.name) with
  | some known => return known
  | none =>
    modify fun b => { b with known := b.known ++ [l] }
    return l

/-- Steps the machine past the session: no history, no listeners. -/
def stepEngine : Act Session Snapshot := do
  let before ← get
  Session.drive
  Act.ofExcept ((← get).engine.snapshotAt before.engine.state.stage before.engine.isHalted)

def pokeState (p : Poke) (s : State) : Except Fault State :=
  match p with
  | .register i value =>
    let place := if i < 0 then i + s.registers.length else i
    if s.hasRegister place then .ok { s with registers := s.registers.set place.toNat value }
    else .error .noSuchRegister
  | .memory address value => .ok { s with memory := s.memory.write address value }
  | .pc pc => .ok { s with pc }
  | .index index => .ok { s with index }
  | .alu alu => .ok { s with alu }
  | .stage stage => .ok { s with stage }

def setState (state : State) : Act Session Unit := Session.modifyState fun _ => state

/-- Puts a state back that was put aside, with its step count or without it. -/
def restore (slot : Text) (withCount : Bool) : Act Workbench Unit := do
  match (← get).saved.lookup slot with
  | none => throw .nothingSaved
  | some m =>
    onSession do
      setState m.state
      if withCount then
        modify fun s => { s with engine := { s.engine with stepCount := m.stepCount } }

/-- Advances the display and tells where it stands. -/
def advance : Act Display Shown := do
  let m ← Display.advance
  let d ← get
  return { hearing := m.hearing, position := d.stepper.position, isRevealed := d.isRevealed }

/-- The moments that a listener was told of, in order. -/
def heard (name : Text) (s : Session) : List Hearing :=
  (s.deliveries.reverse.filter (·.listener == name)).map (·.snapshot.hearing)

/-- The line of the present moment, with the position of the display while micro-steps are shown. -/
def traceLine (b : Workbench) : Except Fault Text := do
  let m ← b.session.snapshot
  Console.momentLine m (if b.stepper.enabled then some b.stepper.position else none)

/-- An action without an answer of its own. -/
def silent (act : Act Workbench Unit) : Act Workbench Answer := do
  act
  return .nothing

def execute : Command → Act Workbench Answer
  | .load source => silent (onSession (Session.load source))
  | .loadFile path => do
    let w := (← get).workspace
    silent (onSession (Session.loadFile w path.raw))
  | .reset => silent (onSession Session.reset)
  | .pause => silent (onSession Session.pause)
  | .loadProgram program => silent <| onSession <|
    modify fun s => { s with engine := s.engine.load program }
  | .resetEngine => silent <| onSession <| modify fun s => { s with engine := s.engine.reset }
  | .step times => do
    return .snapshots ((← onSession (repeated Session.step times)).map some)
  | .stepEngine times => do
    return .snapshots ((← onSession (repeated stepEngine times)).map some)
  | .stepBack times => return .snapshots (← onSession (repeated Session.stepBack times))
  | .run interval maxSteps => return .progress (← onSession (Session.run interval maxSteps))
  | .runToCompletion maxSteps =>
    return .progress (← onSession (Session.runToCompletion maxSteps))
  | .snapshot => return .snapshot (some (← Act.ofExcept (← get).session.snapshot))
  | .engineSnapshot => return .snapshot (some (← Act.ofExcept (← get).session.engine.snapshot))
  | .lastSnapshot => return .snapshot (← get).session.last
  | .source => return .text (← get).session.source
  | .program => return .program (← get).session.engine.state.program
  | .interval => return .number (← get).session.clockInterval
  | .setInterval clockInterval => silent <| onSession <| modify fun s => { s with clockInterval }
  | .addBreakpoint b => silent (onSession (Session.addBreakpoint b))
  | .removeBreakpoint b => silent (onSession (Session.removeBreakpoint b))
  | .breakpoints => return .breakpoints (← get).session.breakpoints
  | .addListener l => do
    let l ← knownListener l
    silent (onSession (Session.addListener l))
  | .removeListener l => do
    let l ← knownListener l
    silent (onSession (Session.removeListener l))
  | .recorded name => return .hearings (heard name (← get).session)
  | .registerMap => return .values (← get).session.engine.registerMap
  | .signals => return .switches (← get).session.engine.state.signals.toList
  | .registerLayout => return .layout (← get).session.engine.registerLayout
  | .registerWidth => return .number ((← get).session.engine.bits.map Int.ofNat)
  | .disassemble start length => do
    return .listing (← Act.ofExcept (listing (← get).session.engine.state.program start length))
  | .poke p => do
    let state ← Act.ofExcept (pokeState p (← get).session.engine.state)
    silent (onSession (setState state))
  | .save slot => silent <| modify fun b =>
    { b with saved := (slot, ⟨b.session.engine.state, b.session.engine.stepCount⟩) :: b.saved }
  | .restore slot withCount => silent (restore slot withCount)
  | .applyInitial initial => silent (onSession (Session.applyInitial initial))
  | .advance times => return .shown (← onDisplay (repeated advance times))
  | .enableMicro enabled => silent (onDisplay (Display.setEnabled enabled))
  | .resetMicro => silent (onDisplay (Display.setPosition 0))
  | .microState => do
    let d := (← get).display
    return .microState d.stepper.enabled d.stepper.position d.isRevealed
  | .startClock interval => silent (onClock (Clock.start interval))
  | .pauseClock => silent (onClock Clock.pause)
  | .isClockRunning => return .truth (← get).isClockRunning
  | .tick times => do
    return .emissions ((← onClock (repeated Clock.tickIfRunning times)).filterMap id)
  | .trace => return .text (← Act.ofExcept (traceLine (← get)))
  | .stateLines => do
    return .texts (← Act.ofExcept (Console.stateLines (← get).session.engine.state))

end Workbench
end StageMachine
