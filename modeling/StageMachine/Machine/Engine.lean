import StageMachine.Instruction.Listing
import StageMachine.Machine.Advance
import StageMachine.Report

/-! The engine: the machine's state, its register width and the count of the stages it has gone
through. A halted engine stays as it is when it is stepped. A snapshot records one moment for display;
it names the stage that just ran, or before any step the stage that runs next. -/
namespace StageMachine

/-- A moment of the machine. -/
structure Snapshot where
  state : State
  stage : Stage
  instruction : Option Instruction := none
  microSteps : Nat := 0
  wires : List Wire := []
  halted : Bool := false
  stepCount : Nat := 0
  disassembly : Text := []
  deriving DecidableEq, Repr

/-- The machine at work. -/
structure Engine where
  /-- The width of a register; unbounded where it is not given. -/
  width : Option Width := none
  state : State := {}
  stepCount : Nat := 0
  deriving DecidableEq, Repr

namespace Engine

/-- A new engine. A width has to be positive. -/
def create (c : Capacity) (width : Option Int) : Except Fault Engine :=
  match width with
  | none => .ok {}
  | some w =>
    if positive : 0 < w then
      .ok { width := some { bits := w.toNat, positive := Int.pos_iff_toNat_pos.1 positive, roomy := c.mask w.toNat } }
    else .error .widthNotPositive

/-- The number of bits of a register. -/
def bits (e : Engine) : Option Nat := e.width.map (·.bits)

def load (e : Engine) (program : List Instruction) : Engine :=
  { e with state := { program }, stepCount := 0 }

def reset (e : Engine) : Engine := e.load e.state.program

def isHalted (e : Engine) : Bool := e.state.isHalted

def step (e : Engine) : Except Fault Engine :=
  if e.isHalted then .ok e
  else (e.state.advance e.width).map fun state => { e with state, stepCount := e.stepCount + 1 }

def stepRemarks (e : Engine) : List Remark :=
  if e.isHalted then [.complete e.state.pc]
  else e.state.droppedWrite?.toList.map .ignoredWrite

/-- The moment at which the given stage ran. It fails only where the instruction in work has a number
too long to be written. -/
def snapshotAt (e : Engine) (stage : Stage) (halted : Bool) : Except Fault Snapshot :=
  if halted then .ok { state := e.state, stage, halted, stepCount := e.stepCount }
  else do
    let disassembly ← match e.state.current? with
      | some i => i.render
      | none => pure []
    return {
      state := e.state
      stage
      instruction := e.state.current?
      microSteps := stage.microSteps
      wires := stage.wires
      stepCount := e.stepCount
      disassembly }

def snapshot (e : Engine) : Except Fault Snapshot := e.snapshotAt e.state.stage e.isHalted

/-- The registers by name, with the program counter and the last result. -/
def registerMap (e : Engine) : List (Text × Int) :=
  e.state.registers.zipIdx.map (fun (value, i) => ('R' :: Nat.toDigits 10 i, value)) ++
    [("PC".toList, e.state.pc), ("ALU".toList, e.state.alu)]

/-- The names of the registers in groups, with their widths; zero stands for no width. -/
def registerLayout (e : Engine) : List (Text × List (Text × Nat)) :=
  let width := e.bits.getD 0
  [("General".toList, (List.range 8).map fun i => ('R' :: Nat.toDigits 10 i, width)),
    ("Control".toList, [("PC".toList, 0), ("ALU".toList, width)])]

end Engine
end StageMachine
