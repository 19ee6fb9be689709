import StageMachine.Session.Basic
import StageMachine.Settings.Basic

/-! Building a session from settings: the machine, its program, and the initial state, which is put in
once and is not kept for a later reset. -/
namespace StageMachine

/-- The program that is loaded where no other is named. -/
def sampleProgram : Text :=
  "LDI R1, 5\nLDI R2, 10\nADD R3, R1, R2\nADDI R4, R3, 2\nSUB R5, R4, R1\nST R1, R5\nLD R6, R1\nBRZ R6, -2".toList

namespace Session

def loadFile (w : Workspace) (path : PathName) : Act Session Unit := do
  load (← Act.ofExcept (w.readText path))

/-- The register that a name in capitals stands for: R and digits. -/
def initialRegister? (name : RawText) : Except Fault (Option Int) :=
  match name.toText? with
  | some ('R' :: digits) =>
    if !digits.isEmpty && digits.all Text.isDigitForm then
      (Numeral.read .decimal digits).map some
    else .ok none
  | _ => .ok none

def modifyState (change : State → State) : Act Session Unit :=
  modify fun s => { s with engine := { s.engine with state := change s.engine.state } }

/-- Puts a value into a register. A name that stands for no register of the machine is remarked on. -/
def applyRegister (name : RawText) (value : Int) : Act Session Unit := do
  let state := (← get).engine.state
  match ← Act.ofExcept (initialRegister? name) with
  | some i =>
    if i < state.registers.length then
      modifyState fun s => { s with registers := s.registers.set i.toNat value }
    else note (.unknownRegister name)
  | none => note (.unknownRegister name)

def applyRegisters : List (RawText × Int) → Act Session Unit
  | [] => return
  | (name, value) :: rest => do
    applyRegister name value
    applyRegisters rest

def applyInitial (initial : InitialState) : Act Session Unit := do
  modifyState fun s => { s with pc := initial.pc }
  applyRegisters initial.registers
  modifyState fun s => { s with memory := s.memory.update initial.memory }

def lastFileNumber : Int := Int.pow 2 31 - 1

/-- Why there is no file where a program is named by something else than a path. An integer of moderate
size counts the files that are open, and none is. -/
def noFile : Datum → Fault
  | .bool _ => .notOpen
  | .int n =>
    if n < -lastFileNumber - 1 ∨ lastFileNumber < n then .pathNotText
    else if n < 0 then .negativeFileNumber
    else .notOpen
  | _ => .pathNotText

/-- Loads the program of the settings, or the sample where they name none, and puts the initial state
in. -/
def prepare (w : Workspace) (settings : Settings) : Act Session Unit := do
  if settings.program.isGiven then
    match settings.program with
    | .text path => loadFile w path
    | d => throw (noFile d)
  else load sampleProgram
  applyInitial settings.initial

def report (act : Act Session Unit) (s : Session) : Report Session :=
  match act s with
  | .ok _ s => ⟨s.journal.reverse, .ok { s with journal := [] }⟩
  | .error fault s => ⟨s.journal.reverse, .error fault⟩

def build (h : Host) (settings : Settings) : Report Session := do
  let engine ← Engine.create h.capacity settings.registerWidth
  let s ← create engine settings.clockInterval settings.historyLimit
  report (prepare h.toWorkspace settings) s

end Session
end StageMachine
