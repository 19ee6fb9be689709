import StageMachine.Document.Node
import StageMachine.Document.Scalar
import StageMachine.Host

/-! Reading a document to the end: text, tokens, tree, value. The parts of a tree are valued level by
level, so that of several faults the least deep one is found, and the first one of its level. -/
namespace StageMachine.Document

/-! ### Merged mappings -/

def Node.isMerge : Node → Bool
  | .plain t => t == mergeMark
  | _ => false

def Node.entries? : Node → Option (List (Node × Node))
  | .mapping entries => some entries
  | _ => none

/-- The entries that a node lends to a mapping it is merged into. Of a sequence of mappings the last one
comes first, so that the first one has the last word. -/
def Node.lent? : Node → Option (List (Node × Node))
  | .sequence items => (items.reverse.mapM entries?).map List.flatten
  | node => node.entries?

mutual

/-- The tree with the entries of merged mappings in front of those of the mapping they are merged into.
The merge of a node that is no mapping stays as it is. -/
def Node.merged : Node → Node
  | .plain t => .plain t
  | .quoted t => .quoted t
  | .sequence items => .sequence (mergedItems items)
  | .mapping entries =>
    let (lent, own) := mergedEntries entries
    .mapping (lent ++ own)

def mergedItems : List Node → List Node
  | [] => []
  | item :: rest => item.merged :: mergedItems rest

def mergedEntries : List (Node × Node) → List (Node × Node) × List (Node × Node)
  | [] => ([], [])
  | (key, value) :: rest =>
    let (lent, own) := mergedEntries rest
    let value := value.merged
    if key.isMerge then
      match value.lent? with
      | some entries => (entries ++ lent, own)
      | none => ((key, value) :: lent, own)
    else (lent, (key.merged, value) :: own)

end

/-! ### Values -/

/-- A value, or the fault that is found first with the number of levels above it. -/
abbrev Valued (α : Type) := Except (Nat × Fault) α

def Valued.here {α : Type} : Except Fault α → Valued α := Except.mapError (0, ·)

def Valued.below {α : Type} : Valued α → Valued α :=
  Except.mapError fun (level, fault) => (level + 1, fault)

def Valued.both {α β γ : Type} (join : α → β → γ) : Valued α → Valued β → Valued γ
  | .ok a, .ok b => .ok (join a b)
  | .ok _, .error found => .error found
  | .error found, .ok _ => .error found
  | .error first, .error second => .error (if first.1 ≤ second.1 then first else second)

/-- The value of a key: one without parts is needed. -/
def keyValue : Node → Except Fault Datum
  | .plain t => if t == defaultMark then .ok (.text t.raw) else plainValue t
  | .quoted t => .ok (.text t)
  | _ => .error .malformedDocument

mutual

def value : Node → Valued Datum
  | .plain t => .here (plainValue t)
  | .quoted t => .ok (.text t)
  | .sequence items => (values items).below.map .list
  | .mapping entries =>
    if entries.any (·.1.isMerge) then Valued.below (.here (.error .malformedDocument))
    else (entryValues entries).below.map fun read =>
      .mapping (read.foldl (fun known (key, value) => Datum.putEntry key value known) [])

def values : List Node → Valued (List Datum)
  | [] => .ok []
  | item :: rest => .both (· :: ·) (value item) (values rest)

def entryValues : List (Node × Node) → Valued (List (Datum × Datum))
  | [] => .ok []
  | (k, v) :: rest => .both (· :: ·) (.both (·, ·) (.here (keyValue k)) (value v)) (entryValues rest)

end

/-- The value that a source holds; nothing where it holds no document. -/
def readSource (source : Source) : Except Fault Datum := do
  match ← Node.ofTokens? (tokens source) with
  | none => return .null
  | some node => (value node.merged).mapError (·.2)

/-- A reader of documents in a plain notation. -/
def read : Document → Except Fault Datum
  | .text t => readSource (.ofText t)
  | .bytes contents => readSource (.ofBytes contents)

end StageMachine.Document
