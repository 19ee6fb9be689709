import StageMachine.Instruction.Basic
import StageMachine.Machine.Memory
import StageMachine.Machine.Signals
import StageMachine.Machine.Stage

/-! The state of the machine: what a program can see (registers, data memory, program counter) and the
working registers that carry the results of one stage to the next. -/
namespace StageMachine

/-- The state of the machine. -/
structure State where
  registers : List Int := List.replicate 8 0
  /-- The program counter: the place of the next instruction. -/
  pc : Int := 0
  memory : Memory := {}
  program : List Instruction := []
  /-- The stage that runs next. -/
  stage : Stage := .fetch
  signals : Signals := {}
  /-- The result of the last execute stage. -/
  alu : Int := 0
  /-- The place of the instruction fetched last. -/
  index : Int := 0
  deriving DecidableEq, Repr

namespace State

/-- The instruction in work, if the fetched place is one of the program's. -/
def current? (s : State) : Option Instruction :=
  if s.index < 0 then none else s.program[s.index.toNat]?

/-- The value of a register; zero where none is named or there is none. -/
def register (s : State) : Option Int → Int
  | none => 0
  | some i => if i < 0 then 0 else s.registers.getD i.toNat 0

/-- The program counter is past the program and no instruction is in work. -/
def isHalted (s : State) : Bool := s.stage == .fetch && s.program.length ≤ s.pc

end State
end StageMachine
