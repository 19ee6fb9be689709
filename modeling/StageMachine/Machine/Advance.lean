import StageMachine.Machine.Alu

/-! One stage of the machine. Fetch notes the place of the instruction, decode its control signals,
execute its result; only write-back changes registers, memory and the program counter. -/
namespace StageMachine.State

def fetch (s : State) : State := { s with index := s.pc }

/-- Switches on the signals of the instruction, or none where there is no instruction. -/
def decode (s : State) : Except Fault State :=
  match s.current? with
  | none => .ok { s with signals := {} }
  | some i => (Signals.decode i.binary).map fun signals => { s with signals }

def execute (width : Option Width) (s : State) : Except Fault State :=
  match s.current? with
  | none => .ok { s with alu := 0 }
  | some i => (Alu.compute width i s).map fun alu => { s with alu }

/-- Memory after the instruction: its second source goes to the address that was computed. -/
def storedMemory (s : State) (i : Instruction) : Memory :=
  if s.signals.mw then s.memory.write s.alu (s.register i.src2) else s.memory

/-- The value that a register would take, given memory after the instruction. -/
def writtenValue (s : State) (memory : Memory) : Int :=
  if s.signals.md then memory.read s.alu else s.alu

def hasRegister (s : State) (i : Int) : Bool := 0 ≤ i && i < s.registers.length

/-- Registers after the instruction. A result for a register that does not exist is dropped. -/
def writtenRegisters (s : State) (i : Instruction) (memory : Memory) : List Int :=
  match i.dest with
  | some d =>
    if s.signals.rw && s.hasRegister d then s.registers.set d.toNat (s.writtenValue memory)
    else s.registers
  | none => s.registers

/-- The program counter after the instruction. A branch is taken if the value it tests is zero; a jump
goes where its register points after the registers were written. -/
def nextPc (s : State) (i : Instruction) : Int :=
  if s.signals.pl then
    if s.signals.jb then s.register i.src1
    else if s.alu = 0 then s.pc + i.address.getD 0
    else s.pc + 1
  else s.pc + 1

/-- Ends the instruction: memory, then registers, then the program counter. -/
def writeBack (s : State) : State :=
  match s.current? with
  | none => { s with pc := s.pc + 1 }
  | some i =>
    let memory := s.storedMemory i
    let written := { s with memory, registers := s.writtenRegisters i memory }
    { written with pc := written.nextPc i }

def work (width : Option Width) (s : State) : Except Fault State :=
  match s.stage with
  | .fetch => .ok s.fetch
  | .decode => s.decode
  | .execute => s.execute width
  | .writeBack => .ok s.writeBack

/-- The state after the stage that runs next. It fails where decode meets a short word, and where
execute has to cut its result to a width that it cannot cut to. -/
def advance (width : Option Width) (s : State) : Except Fault State :=
  (s.work width).map fun t => { t with stage := s.stage.next }

/-- The register outside of the register file that write-back would write to. -/
def droppedWrite? (s : State) : Option Int := do
  let i ← s.current?
  let d ← i.dest
  if s.stage = .writeBack ∧ s.signals.rw ∧ ¬s.hasRegister d then some d else none

end StageMachine.State
