import StageMachine.Control.Clock
import StageMachine.Session.Run
import StageMachine.Settings.Build

/-! A workbench: a session with its display and its clock, listeners that are known by name, and states
that were put aside. It is worked by commands, each of which has an answer. -/
namespace StageMachine

/-- Where settings come from. -/
inductive Configuration where
  | document (text : Text)
  | file (path : Text)
  | datum (value : Datum)
  | given (settings : Settings)

def Configuration.decode (h : Host) : Configuration → Report Settings
  | document text => Settings.ofDocument h (.text text)
  | file path => Settings.ofFile h path.raw
  | datum value => Settings.ofDatum value
  | given settings => return settings

/-- How a workbench is set up. -/
inductive Setup where
  | bare (width clockInterval historyLimit : Option Int)
  | configured (configuration : Configuration)

/-- A change of the machine's state from outside. -/
inductive Poke where
  /-- A register; registers also count from the last one back, as minus one and so on. -/
  | register (i value : Int)
  | memory (address value : Int)
  | pc (value : Int)
  | index (value : Int)
  | alu (value : Int)
  | stage (stage : Stage)
  deriving DecidableEq, Repr

/-- What can be asked of a workbench. -/
inductive Command where
  | load (source : Text)
  | loadFile (path : Text)
  | reset
  | pause
  | loadProgram (program : List Instruction)
  | resetEngine
  | step (times : Nat)
  | stepEngine (times : Nat)
  | stepBack (times : Nat)
  | run (interval maxSteps : Option Int)
  | runToCompletion (maxSteps : Option Int := some Session.completionLimit)
  | snapshot
  | engineSnapshot
  | lastSnapshot
  | source
  | program
  | interval
  | setInterval (interval : Option Int)
  | addBreakpoint (breakpoint : Breakpoint)
  | removeBreakpoint (breakpoint : Breakpoint)
  | breakpoints
  /-- Adds the listener that was first known by the name. -/
  | addListener (listener : Listener)
  /-- Takes the listener away that was first known by the name. -/
  | removeListener (listener : Listener)
  | recorded (listener : Text)
  | registerMap
  | signals
  | registerLayout
  | registerWidth
  | disassemble (start length : Int)
  | poke (poke : Poke)
  | save (slot : Text)
  | restore (slot : Text) (withCount : Bool)
  | applyInitial (initial : InitialState)
  | advance (times : Nat)
  | enableMicro (enabled : Bool)
  | resetMicro
  | microState
  | startClock (interval : Option Int)
  | pauseClock
  | isClockRunning
  | tick (times : Nat)
  | trace
  | stateLines

/-- A moment as a listener notes it. -/
structure Hearing where
  stepCount : Nat
  stage : Stage
  halted : Bool
  deriving DecidableEq, Repr

def Snapshot.hearing (m : Snapshot) : Hearing := ⟨m.stepCount, m.stage, m.halted⟩

/-- A display after it was advanced. -/
structure Shown where
  hearing : Hearing
  position : Nat
  isRevealed : Bool
  deriving DecidableEq, Repr

/-- The answer to a command. -/
inductive Answer where
  | nothing
  | snapshot (moment : Option Snapshot)
  | snapshots (moments : List (Option Snapshot))
  | progress (progress : Session.Progress)
  | text (text : Text)
  | texts (texts : List Text)
  | number (value : Option Int)
  | truth (value : Bool)
  | program (program : List Instruction)
  | breakpoints (breakpoints : List Breakpoint)
  | hearings (hearings : List Hearing)
  | values (values : List (Text × Int))
  | switches (values : List (Text × Bool))
  | layout (groups : List (Text × List (Text × Nat)))
  | listing (lines : List ListingLine)
  | shown (positions : List Shown)
  | microState (enabled : Bool) (position : Nat) (isRevealed : Bool)
  | emissions (emissions : List Emission)

end StageMachine
