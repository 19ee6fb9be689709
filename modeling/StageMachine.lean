import StageMachine.Main
import StageMachine.Proofs.Console.Run
import StageMachine.Proofs.Instruction.Reading
import StageMachine.Proofs.Machine.Relisting
import StageMachine.Proofs.Machine.Relocation
import StageMachine.Proofs.Machine.Width
import StageMachine.Proofs.Session.Current
import StageMachine.Proofs.Session.Ending
import StageMachine.Proofs.Session.Load
import StageMachine.Proofs.Session.Phase
import StageMachine.Proofs.Session.Range
import StageMachine.Proofs.Session.Undo
import StageMachine.Workbench.Execute
import StageMachine.Proofs.Machine.Unread
import StageMachine.Proofs.Session.Forward
import StageMachine.Proofs.Session.Watching
import StageMachine.Proofs.Instruction.Encoding
import StageMachine.Proofs.Session.Completed
import StageMachine.Proofs.Text.Capitals
import StageMachine.Proofs.Text.LineEnds
import StageMachine.Proofs.Instruction.Appearance
import StageMachine.Proofs.Session.File
import StageMachine.Proofs.Session.Announcing
import StageMachine.Proofs.Control.Revealing
import StageMachine.Proofs.Control.Position
import StageMachine.Proofs.Session.Reloading
import StageMachine.Proofs.Machine.Change
import StageMachine.Proofs.Session.Atomic
import StageMachine.Proofs.Numeral.Reading
import StageMachine.Proofs.Session.Initial
import StageMachine.Proofs.Session.Budget
import StageMachine.Proofs.Settings.Spelling
import StageMachine.Proofs.Settings.Decoding
import StageMachine.Proofs.Instruction.Naming
import StageMachine.Proofs.Instruction.Field
