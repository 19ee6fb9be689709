import StageMachine.Text.Basic

/-! The four stages of an instruction, with what a display of the data path shows for each. -/
namespace StageMachine

/-- The stages in the order in which an instruction goes through them. -/
inductive Stage where
  | fetch | decode | execute | writeBack
  deriving DecidableEq, Repr

/-- A wire of the data path. -/
inductive Wire where
  | pcToMemory | memoryToDecoder | memoryToExtender
  | decoderToWriteEnable | decoderToMuxB | decoderToAlu | decoderToMemoryWrite
  | registerToAluA | registerToMuxB | muxBToAlu | aluOut
  | muxDToRegister | memoryToMuxD
  deriving DecidableEq, Repr

def Wire.name : Wire → Text
  | pcToMemory => "pc-mem".toList
  | memoryToDecoder => "mem-dec".toList
  | memoryToExtender => "mem-ext".toList
  | decoderToWriteEnable => "dec-reg-rw".toList
  | decoderToMuxB => "dec-mux-b".toList
  | decoderToAlu => "dec-alu".toList
  | decoderToMemoryWrite => "dec-mem-mw".toList
  | registerToAluA => "reg-alu-a".toList
  | registerToMuxB => "reg-mux-b".toList
  | muxBToAlu => "mux-b-alu".toList
  | aluOut => "alu-out".toList
  | muxDToRegister => "mux-d-reg".toList
  | memoryToMuxD => "mem-mux-d".toList

namespace Stage

def all : List Stage := [fetch, decode, execute, writeBack]

def name : Stage → Text
  | fetch => "FETCH".toList
  | decode => "DECODE".toList
  | execute => "EXECUTE".toList
  | writeBack => "WRITE_BACK".toList

def ofName? (t : Text) : Option Stage := all.find? (·.name == t)

/-- The stage that follows; the last one is followed by the first one of the next instruction. -/
def next : Stage → Stage
  | fetch => decode
  | decode => execute
  | execute => writeBack
  | writeBack => fetch

def microSteps : Stage → Nat
  | decode => 4
  | _ => 3

def wires : Stage → List Wire
  | fetch => [.pcToMemory, .memoryToDecoder, .memoryToExtender]
  | decode => [.decoderToWriteEnable, .decoderToMuxB, .decoderToAlu, .decoderToMemoryWrite]
  | execute => [.registerToAluA, .registerToMuxB, .muxBToAlu, .aluOut]
  | writeBack => [.muxDToRegister, .memoryToMuxD]

end Stage
end StageMachine
