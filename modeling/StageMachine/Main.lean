import StageMachine.Console.Run
import StageMachine.Document.Reader

/-! The program: reads the files that the command line needs, runs the console and prints. -/
open StageMachine

/-- The machine in a workspace, with the reader of documents that comes with it. -/
def hostAt (w : Workspace) : Host :=
  { w with read := Document.read, capacity := .upTo (Nat.pow 2 38), outlivesFaults := false }

def addFile (w : Workspace) (path : PathName) : IO Workspace := do
  match (w.absolute path).toText? with
  | none => return w
  | some place =>
    try
      let bytes ← IO.FS.readBinFile (Text.toString place)
      return { w with files := (place, bytes) :: w.files }
    catch _ => return w

/-- The working directory with the files that a command line reads: its settings and its program. -/
def filesFor (line : List Text) : IO Workspace := do
  let directory ← IO.currentDir
  let w : Workspace := { directory := directory.toString.toList }
  match Console.Arguments.parse line with
  | .error _ => return w
  | .ok a =>
    let w ← match Console.settingsFile? a with
      | some path => addFile w path.raw
      | none => pure w
    match (Console.settings (hostAt w) a).outcome with
    | .ok ({ program := .text path, .. }, _) => addFile w path
    | _ => return w

def main (args : List String) : IO UInt32 := do
  let line := args.map Text.ofString
  let w ← filesFor line
  match Console.run (hostAt w) line with
  | .finished shown log =>
    for text in log do IO.eprintln (Text.toString text.printed)
    for text in shown do IO.println (Text.toString text)
    return 0
  | .failed fault =>
    IO.eprintln s!"stage-machine: {Text.toString fault.message}"
    return 1
  | .refused .help =>
    IO.println ("usage: stage-machine [-h] [--config FILE] [--interval N] [--micro] " ++
      "[--max-steps N] [--quiet] [--log-level LEVEL] [source]")
    return 0
  | .refused .wrong =>
    IO.eprintln "stage-machine: wrong usage, see --help"
    return 2
