import StageMachine.Document.Datum
import StageMachine.Instruction.Field
import StageMachine.Workspace

/-! What the machine finds around it. It reads files, but it has no notation for documents of its own, no
memory of its own, and no event loop of its own. -/
namespace StageMachine

/-- A document as it is handed to a reader. -/
inductive Document where
  | text (text : Text)
  | bytes (contents : ByteArray)

/-- A place to run at. -/
structure Host extends Workspace where
  /-- The value that a document holds. -/
  read : Document → Except Fault Datum
  capacity : Capacity
  /-- The event loop goes on when a fault stopped what the timer called. -/
  outlivesFaults : Bool

end StageMachine
