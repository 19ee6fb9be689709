import StageMachine.Machine.Engine

/-! What the console shows: a line for a stage, and the state of the machine at the end. -/
namespace StageMachine.Console

def padded (width : Nat) (t : Text) : Text := t ++ List.replicate (width - t.length) ' '

/-- What a stage has to show beyond the instruction: the signals it switched on, or its result. -/
def stageDetail (stage : Stage) (s : State) : Except Fault Text :=
  match stage with
  | .decode =>
    let active := s.signals.active
    .ok ("  signals=".toList ++ if active.isEmpty then ['-'] else Text.joined [','] active)
  | .execute => return "  alu=".toList ++ (← Numeral.decimal s.alu)
  | _ => .ok []

/-- The line of a stage: the count of steps, with the micro-step where one is shown, the stage, the
program counter and the instruction. -/
def traceLine (count : Int) (micro : Option Int) (stage : Stage) (s : State) (disassembly : Text) :
    Except Fault Text := do
  let shownMicro ← match micro with
    | none => pure []
    | some position => (Numeral.decimal position).map ('.' :: ·)
  let shownCount := (← Numeral.decimal count).leftpad 5 ' '
  let shownPc := padded 4 (← Numeral.decimal s.pc)
  let detail ← stageDetail stage s
  return '[' :: shownCount ++ shownMicro ++ "] ".toList ++ padded 10 stage.name ++ " PC=".toList ++
    shownPc ++ ' ' :: disassembly ++ detail

def momentLine (m : Snapshot) (micro : Option Nat) : Except Fault Text :=
  traceLine m.stepCount (micro.map Int.ofNat) m.stage m.state m.disassembly

/-- The state of the machine: registers, program counter, and memory in the order of its addresses. -/
def stateLines (s : State) : Except Fault (List Text) := do
  let registers ← s.registers.zipIdx.mapM fun (value, i) =>
    return 'R' :: Nat.toDigits 10 i ++ '=' :: (← Numeral.decimal value)
  let pc ← Numeral.decimal s.pc
  let cells ← s.memory.cells.mapM fun (address, value) => do
    let place ← Numeral.decimal address
    return '[' :: place ++ "]=".toList ++ (← Numeral.decimal value)
  return ["Registers: ".toList ++ Text.joined [' '] registers, "PC: ".toList ++ pc,
    "Data memory: ".toList ++ if cells.isEmpty then "(empty)".toList else Text.joined [' '] cells]

end StageMachine.Console
