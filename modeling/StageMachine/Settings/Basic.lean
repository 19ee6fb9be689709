import StageMachine.Host
import StageMachine.Report
import StageMachine.Text.Upper

/-! Settings: how the machine is built and what it starts with. They are decoded from a configuration
value, in which an integer may also be written as a text, in decimal or hexadecimal. -/
namespace StageMachine

/-- What registers, memory and program counter start with. -/
structure InitialState where
  /-- Values by register name, in the order in which they are put in. -/
  registers : List (RawText × Int) := []
  memory : List (Int × Int) := []
  pc : Int := 0
  deriving DecidableEq, Repr

/-- How the machine is built. -/
structure Settings where
  clockInterval : Option Int := some 1000
  registerWidth : Option Int := none
  microStepping : Bool := false
  /-- How many steps can be taken back; as many as can be counted where no limit is set. -/
  historyLimit : Option Int := some 10000
  /-- The path of the program; any other value than a text is kept, and refused when it is used. -/
  program : Datum := .null
  initial : InitialState := {}

/-- Puts a value under a key. A key that is there keeps its place and takes the new value. -/
def putPair {κ ν : Type} [DecidableEq κ] (key : κ) (value : ν) : List (κ × ν) → List (κ × ν)
  | [] => [(key, value)]
  | pair :: rest => if pair.1 = key then (key, value) :: rest else pair :: putPair key value rest

/-- Pairs put in one after the other, so that of equal keys the last one gives the value. -/
def ofPairs {κ ν : Type} [DecidableEq κ] (pairs : List (κ × ν)) : List (κ × ν) :=
  pairs.foldl (fun found pair => putPair pair.1 pair.2 found) []

namespace Settings

def isHexadecimal : Text → Bool
  | '-' :: '0' :: x :: _ => x == 'x' || x == 'X'
  | '0' :: x :: _ => x == 'x' || x == 'X'
  | _ => false

def textInteger (t : RawText) : Except Fault Int :=
  let trimmed := t.trim
  Numeral.readRaw (if isHexadecimal trimmed.legible then .hexadecimal else .decimal) trimmed

/-- The integer that a value stands for. A truth value stands for none. -/
def integer : Datum → Except Fault Int
  | .int v => .ok v
  | .text t => textInteger t
  | d => do throw (.notInteger (← d.written))

def optionalInteger : Datum → Except Fault (Option Int)
  | .null => .ok none
  | d => (integer d).map some

/-- The entries of a section; a section that is not given has none. -/
def entries (d : Datum) : Except Fault (List (Datum × Datum)) :=
  match d with
  | .mapping found => .ok found
  | d => if d.isGiven then .error .sectionNotMapping else .ok []

def sectionOf (name : Text) (found : List (Datum × Datum)) : Except Fault (List (Datum × Datum)) :=
  entries ((Datum.lookup? name found).getD .null)

/-- Register values by name; names count in capitals. -/
def registers (found : List (Datum × Datum)) : Except Fault (List (RawText × Int)) := do
  let pairs ← found.mapM fun (name, value) => do
    let shown ← name.shown
    return (shown.upper, ← integer value)
  return ofPairs pairs

def memory (found : List (Datum × Datum)) : Except Fault (List (Int × Int)) := do
  let pairs ← found.mapM fun (address, value) => do
    let place ← integer address
    return (place, ← integer value)
  return ofPairs pairs

def initialState (found : List (Datum × Datum)) : Except Fault InitialState := do
  let parts ← sectionOf "initial_state".toList found
  let registers ← registers (← sectionOf "registers".toList parts)
  let memory ← memory (← sectionOf "data_memory".toList parts)
  let pc ← integer ((Datum.lookup? "pc".toList parts).getD (.int 0))
  return { registers, memory, pc }

def knownNames : List Text :=
  ["clock_interval_ms".toList, "register_width".toList, "micro_stepping".toList,
    "history_limit".toList, "program".toList, "initial_state".toList]

/-- Remarks on every entry that is not read. -/
def noteUnknown : List (Datum × Datum) → Report Unit
  | [] => return
  | (key, _) :: rest => do
    if !knownNames.any fun name => key.sameKey (.text name.raw) then
      Report.note (.unknownSetting key.shown.toOption)
    noteUnknown rest

def ofEntries (found : List (Datum × Datum)) : Except Fault Settings := do
  let get (name : String) : Option Datum := Datum.lookup? name.toList found
  let initial ← initialState found
  let clockInterval ← integer ((get "clock_interval_ms").getD (.int 1000))
  let registerWidth ← optionalInteger ((get "register_width").getD .null)
  let microStepping := (get "micro_stepping").any Datum.isGiven
  let historyLimit ← integer ((get "history_limit").getD (.int 10000))
  let program := (get "program").getD .null
  return {
    clockInterval := some clockInterval
    registerWidth, microStepping
    historyLimit := some historyLimit
    program, initial }

def ofDatum : Datum → Report Settings
  | .mapping found => do
    noteUnknown found
    ofEntries found
  | d => throw (.rootNotMapping d.kind)

/-- The settings that a document holds. One that holds nothing stands for the defaults. -/
def ofDocument (h : Host) (document : Document) : Report Settings := do
  let d ← h.read document
  ofDatum (if d.isGiven then d else .mapping [])

/-- The settings of a file. The path of its program is meant relative to the file. -/
def ofFile (h : Host) (path : PathName) : Report Settings := do
  let settings ← ofDocument h (.bytes (← h.readBytes path))
  if settings.program.isGiven then
    match settings.program with
    | .text program => return { settings with program := .text (h.beside path program) }
    | _ => throw .pathNotText
  else return settings

end Settings
end StageMachine
