import StageMachine.Document.Token

/-! The tree of a document: scalars, sequences and mappings. An item, a key or a value that is left
out stands for an empty plain scalar. -/
namespace StageMachine.Document

/-- A part of a document. -/
inductive Node where
  /-- A scalar without quotes. -/
  | plain (text : Text)
  | quoted (text : RawText)
  | sequence (items : List Node)
  | mapping (entries : List (Node × Node))

instance : Inhabited Node := ⟨.plain []⟩

/-- What is not written. -/
def Node.missing : Node := .plain []

def startsWith (heads : List Token) : List Token → Bool
  | [] => false
  | t :: _ => heads.contains t

def nestingLimit : Nat := 490

def enter : Nat → Except Fault Nat
  | 0 => .error .nestingTooDeep
  | room + 1 => .ok room

/-- The next token stands where it cannot stand. -/
def unexpected {α : Type} : List Token → Except Fault α
  | .broken fault :: _ => .error fault
  | _ => .error .malformedDocument

mutual

/-- Reads a node outside of brackets. The items of a sequence that is the value of a key need not be
further in than the key. -/
def blockNode (besideKey : Bool) : Nat → Nat → List Token → Except Fault (Node × List Token)
  | 0, _, ts => unexpected ts
  | fuel + 1, room, ts =>
    match ts with
    | .sequenceStart :: rest => do
      let (items, rest) ← blockItems fuel (← enter room) rest
      return (.sequence items, rest)
    | .mappingStart :: rest => do
      let (entries, rest) ← blockEntries fuel (← enter room) rest
      return (.mapping entries, rest)
    | .dash :: _ => do
      if besideKey then
        let (items, rest) ← looseItems fuel (← enter room) ts
        return (.sequence items, rest)
      else unexpected ts
    | _ => flowNode fuel room ts
termination_by structural fuel => fuel

def blockItems : Nat → Nat → List Token → Except Fault (List Node × List Token)
  | 0, _, ts => unexpected ts
  | fuel + 1, room, ts =>
    match ts with
    | .blockEnd :: rest => return ([], rest)
    | .dash :: rest => do
      let (item, rest) ←
        if startsWith [.dash, .blockEnd] rest then pure (.missing, rest)
        else blockNode false fuel room rest
      let (items, rest) ← blockItems fuel room rest
      return (item :: items, rest)
    | _ => unexpected ts
termination_by structural fuel => fuel

/-- Reads items up to the first token that is no dash. -/
def looseItems : Nat → Nat → List Token → Except Fault (List Node × List Token)
  | 0, _, ts => unexpected ts
  | fuel + 1, room, ts =>
    match ts with
    | .dash :: rest => do
      let (item, rest) ←
        if startsWith [.dash, .key, .colon, .blockEnd] rest then pure (.missing, rest)
        else blockNode false fuel room rest
      let (items, rest) ← looseItems fuel room rest
      return (item :: items, rest)
    | _ => return ([], ts)
termination_by structural fuel => fuel

def blockPart : Nat → Nat → List Token → Except Fault (Node × List Token)
  | 0, _, ts => unexpected ts
  | fuel + 1, room, ts =>
    if startsWith [.key, .colon, .blockEnd] ts then return (.missing, ts)
    else blockNode true fuel room ts
termination_by structural fuel => fuel

def blockEntries : Nat → Nat → List Token → Except Fault (List (Node × Node) × List Token)
  | 0, _, ts => unexpected ts
  | fuel + 1, room, ts =>
    match ts with
    | .blockEnd :: rest => return ([], rest)
    | .key :: rest => do
      let (key, rest) ← blockPart fuel room rest
      let (value, rest) ← match rest with
        | .colon :: rest => blockPart fuel room rest
        | _ => pure (.missing, rest)
      let (entries, rest) ← blockEntries fuel room rest
      return ((key, value) :: entries, rest)
    | _ => unexpected ts
termination_by structural fuel => fuel

def flowNode : Nat → Nat → List Token → Except Fault (Node × List Token)
  | 0, _, ts => unexpected ts
  | fuel + 1, room, ts =>
    match ts with
    | .plain text :: rest => return (.plain text, rest)
    | .quoted text :: rest => return (.quoted text, rest)
    | .listOpen :: rest => do
      let (items, rest) ← flowItems fuel (← enter room) rest
      return (.sequence items, rest)
    | .mapOpen :: rest => do
      let (entries, rest) ← flowEntries fuel (← enter room) rest
      return (.mapping entries, rest)
    | _ => unexpected ts
termination_by structural fuel => fuel

/-- Reads a node in brackets that ends at one of the given tokens if it is left out. -/
def flowPart (ends : List Token) : Nat → Nat → List Token → Except Fault (Node × List Token)
  | 0, _, ts => unexpected ts
  | fuel + 1, room, ts =>
    if startsWith ends ts then return (.missing, ts) else flowNode fuel room ts
termination_by structural fuel => fuel

def flowValue (close : Token) : Nat → Nat → List Token → Except Fault (Node × List Token)
  | 0, _, ts => unexpected ts
  | fuel + 1, room, ts =>
    match ts with
    | .colon :: rest => flowPart [.comma, close] fuel room rest
    | _ => return (.missing, ts)
termination_by structural fuel => fuel

/-- Reads the items of a bracketed sequence; an item with a key is a mapping of one entry. -/
def flowItems : Nat → Nat → List Token → Except Fault (List Node × List Token)
  | 0, _, ts => unexpected ts
  | fuel + 1, room, ts =>
    match ts with
    | .listClose :: rest => return ([], rest)
    | _ => do
      let (item, rest) ← match ts with
        | .key :: rest => do
          let room ← enter room
          let (key, rest) ← flowPart [.colon, .comma, .listClose] fuel room rest
          let (value, rest) ← flowValue .listClose fuel room rest
          pure (Node.mapping [(key, value)], rest)
        | _ => flowNode fuel room ts
      match rest with
      | .comma :: rest => do
        let (items, rest) ← flowItems fuel room rest
        return (item :: items, rest)
      | .listClose :: rest => return ([item], rest)
      | _ => unexpected rest
termination_by structural fuel => fuel

/-- Reads the entries of a bracketed mapping; a node without a key mark is a key without a value. -/
def flowEntries : Nat → Nat → List Token → Except Fault (List (Node × Node) × List Token)
  | 0, _, ts => unexpected ts
  | fuel + 1, room, ts =>
    match ts with
    | .mapClose :: rest => return ([], rest)
    | _ => do
      let (entry, rest) ← match ts with
        | .key :: rest => do
          let (key, rest) ← flowPart [.colon, .comma, .mapClose] fuel room rest
          let (value, rest) ← flowValue .mapClose fuel room rest
          pure ((key, value), rest)
        | _ => do
          let (key, rest) ← flowNode fuel room ts
          pure ((key, Node.missing), rest)
      match rest with
      | .comma :: rest => do
        let (entries, rest) ← flowEntries fuel room rest
        return (entry :: entries, rest)
      | .mapClose :: rest => return ([entry], rest)
      | _ => unexpected rest
termination_by structural fuel => fuel

end

def checkOver (ts : List Token) : Except Fault Unit :=
  match ts.dropWhile (· == .documentEnd) with
  | [] => .ok ()
  | rest => unexpected rest

/-- The one tree that the tokens make up, with nothing after it. -/
def Node.ofContent? (ts : List Token) : Except Fault Node := do
  let (node, rest) ← blockNode false (5 * ts.length + 5) nestingLimit ts
  checkOver rest
  return node

/-- The tree of a document. A text without a document has none; a document without content is an empty
scalar. -/
def Node.ofTokens? : List Token → Except Fault (Option Node)
  | [] => return none
  | .documentStart :: rest => do
    if rest.isEmpty || startsWith [.documentStart, .documentEnd] rest then
      checkOver rest
      return some .missing
    else return some (← ofContent? rest)
  | ts => return some (← ofContent? ts)

end StageMachine.Document
