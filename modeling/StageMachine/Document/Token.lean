import StageMachine.Action
import StageMachine.Document.Source
import StageMachine.Numeral.Basic

/-! Tokens of a document. Indentation opens and closes blocks; a scalar or a bracket that may turn out
to be a key is remembered until a colon follows it on the same line, and the tokens of the key are then
put in front of it. A fault is the last token: what stands before it is read first.

Nothing behind a code point is looked at before it has to be, so that a fault behind the readable text is
found no earlier than there; going on to a code point looks at it. -/
namespace StageMachine.Document

/-- The parts of a document, without the white space between them. -/
inductive Token where
  | documentStart | documentEnd
  | sequenceStart | mappingStart | blockEnd
  | listOpen | listClose | mapOpen | mapClose
  | dash
  | comma
  | key
  | colon
  /-- A scalar without quotes. -/
  | plain (text : Text)
  /-- A scalar between quotes, in which an escape may name any code point. -/
  | quoted (text : RawText)
  /-- The text cannot be read any further. -/
  | broken (fault : Fault)
  deriving DecidableEq, Repr

/-- A place where a key may have begun. -/
structure PossibleKey where
  token : Nat
  required : Bool
  index : Nat
  line : Nat
  column : Nat
  deriving DecidableEq, Repr

/-- How far the reading of a document has come. -/
structure Scan where
  rest : Text
  /-- What is found behind the text if it is not over. -/
  fault : Option Fault := none
  index : Nat := 0
  line : Nat := 0
  column : Nat := 0
  flow : Nat := 0
  /-- The column of the innermost block, less than zero before the first. -/
  indent : Int := -1
  outer : List Int := []
  keyAllowed : Bool := true
  /-- Places where a key may have begun, by the number of brackets around them. -/
  possible : List (Nat × PossibleKey) := []
  /-- The tokens so far, the last one first. -/
  found : List Token := []
  count : Nat := 0

/-- Reading a part of a document. -/
abbrev Reading := Act Scan

def isBreak (c : Char) : Bool :=
  c == '\n' || c == '\r' || c == '\u0085' || c == '\u2028' || c == '\u2029'

def isSpace (c : Char) : Bool := c == ' ' || c == '\t' || isBreak c

def endsWord : Text → Bool
  | [] => true
  | c :: _ => isSpace c

namespace Scan

def pass (s : Scan) : Scan :=
  match s.rest with
  | [] => s
  | c :: rest =>
    let index := s.index + 1
    if isBreak c && !(c == '\r' && rest.head? == some '\n') then
      { s with rest, index, line := s.line + 1, column := 0 }
    else { s with rest, index, column := if c == '\ufeff' then s.column else s.column + 1 }

def passMany : Nat → Scan → Scan
  | 0, s => s
  | n + 1, s => passMany n s.pass

def push (s : Scan) (t : Token) : Scan := { s with found := t :: s.found, count := s.count + 1 }

def insertAfter (s : Scan) (number : Nat) (t : Token) : Scan :=
  let (behind, before) := s.found.splitAt (s.count - number)
  { s with found := behind ++ t :: before, count := s.count + 1 }

def indentTo (s : Scan) (column : Nat) : Option Scan :=
  if s.indent < column then some { s with indent := column, outer := s.indent :: s.outer } else none

def dedentTo (column : Int) : List Int → Scan → Scan
  | [], s => s
  | outer :: more, s =>
    if column < s.indent then
      dedentTo column more ({ s with indent := outer, outer := more }.push .blockEnd)
    else s

def possibleHere? (s : Scan) : Option PossibleKey := s.possible.lookup s.flow

def keyReach : Nat := 1024

/-- A place where a key may have begun is on another line or too far away. -/
def isStale (s : Scan) (k : PossibleKey) : Bool :=
  k.line != s.line || keyReach < s.index - k.index

/-- The tokens in front of every place where a key may still have begun; nothing can be put between
them any more. -/
def settled (s : Scan) : List Token :=
  let alive := s.possible.filter fun (_, k) => !s.isStale k
  let settled := alive.foldl (fun count (_, k) => min count k.token) s.count
  (s.found.drop (s.count - settled)).reverse

end Scan

def malformed {α : Type} : Reading α := throw .malformedDocument

def emit (t : Token) : Reading Unit := modify (·.push t)

def look (distance : Nat) : Reading Unit := do
  let s ← get
  if let some fault := s.fault then
    if (s.rest.drop distance).isEmpty then throw fault

def take (n : Nat) : Reading Text := do
  look n
  let s ← get
  set (Scan.passMany n s)
  return s.rest.take n

def takeWhile (p : Char → Bool) : Reading Text := do
  take ((← get).rest.takeWhile p).length

def isAtMark : Reading Bool := do
  look 2
  let t := (← get).rest
  if t.take 3 == "---".toList || t.take 3 == "...".toList then
    look 3
    return endsWord (t.drop 3)
  else return false

/-- Goes over the end of a line, if there is one, and returns what stands for it in a scalar. -/
def lineBreak : Reading Text := do
  match (← get).rest with
  | '\r' :: '\n' :: _ =>
    let _ ← take 2
    return ['\n']
  | c :: _ =>
    if c == '\u2028' || c == '\u2029' then take 1
    else if isBreak c then
      let _ ← take 1
      return ['\n']
    else return []
  | [] => return []

/-- Goes over spaces, comments and ends of lines. A key may begin on a new line outside of brackets. -/
def skipToToken : Nat → Reading Unit
  | 0 => malformed
  | fuel + 1 => do
    let _ ← takeWhile (· == ' ')
    if (← get).rest.head? == some '#' then
      let _ ← takeWhile (!isBreak ·)
    if (← lineBreak).isEmpty then return
    modify fun s => { s with keyAllowed := s.keyAllowed || s.flow == 0 }
    skipToToken fuel

def dropStale : Reading Unit := do
  let s ← get
  if s.possible.any fun (_, k) => s.isStale k && k.required then malformed
  else set { s with possible := s.possible.filter fun (_, k) => !s.isStale k }

def dropPossible : Reading Unit := do
  let s ← get
  match s.possibleHere? with
  | none => return
  | some k =>
    if k.required then malformed
    else set { s with possible := s.possible.filter (·.1 != s.flow) }

/-- Remembers this place as one where a key may have begun. -/
def savePossible : Reading Unit := do
  let s ← get
  if s.keyAllowed then
    dropPossible
    let k : PossibleKey :=
      { token := s.count, required := s.flow == 0 && s.indent == s.column
        index := s.index, line := s.line, column := s.column }
    modify fun s => { s with possible := (s.flow, k) :: s.possible }

def allowKey (allowed : Bool) : Reading Unit := modify fun s => { s with keyAllowed := allowed }

/-- Closes the blocks that are further in than a column; brackets hide indentation. -/
def dedent (column : Int) : Reading Unit := modify fun s =>
  if s.flow == 0 then Scan.dedentTo column s.outer s else s

def readMark (t : Token) : Reading Unit := do
  dedent (-1)
  dropPossible
  allowKey false
  let _ ← take 3
  emit t

def readOpen (t : Token) : Reading Unit := do
  savePossible
  modify fun s => { s with flow := s.flow + 1, keyAllowed := true }
  let _ ← take 1
  emit t

def readClose (t : Token) : Reading Unit := do
  dropPossible
  let _ ← take 1
  if (← get).flow = 0 then malformed
  modify fun s => { s with flow := s.flow - 1, keyAllowed := false }
  emit t

def readComma : Reading Unit := do
  allowKey true
  dropPossible
  let _ ← take 1
  emit .comma

/-- Opens a block here with the given token, unless the present block has this column. -/
def openBlock (t : Token) : Reading Unit := do
  let s ← get
  if s.flow = 0 then
    if !s.keyAllowed then malformed
    match s.indentTo s.column with
    | some s => set (s.push t)
    | none => return

def readDash : Reading Unit := do
  openBlock .sequenceStart
  allowKey true
  dropPossible
  let _ ← take 1
  emit .dash

def readKeyMark : Reading Unit := do
  openBlock .mappingStart
  allowKey ((← get).flow == 0)
  dropPossible
  let _ ← take 1
  emit .key

def readColon : Reading Unit := do
  let s ← get
  match s.possibleHere? with
  | some k =>
    let s := { s with possible := s.possible.filter (·.1 != s.flow), keyAllowed := false }
    let s := s.insertAfter k.token .key
    let opened := if s.flow = 0 then s.indentTo k.column else none
    match opened with
    | some s => set (s.insertAfter k.token .mappingStart)
    | none => set s
  | none =>
    openBlock .mappingStart
    allowKey (s.flow == 0)
    dropPossible
  let _ ← take 1
  emit .colon

/-! ### Plain scalars -/

/-- The number of code points up to where a plain scalar may be interrupted. -/
def plainLength (inBrackets : Bool) : Text → Nat
  | [] => 0
  | c :: rest =>
    let opens := "[]\x7b\x7d,".toList
    let colon := c == ':' &&
      (endsWord rest || (inBrackets && rest.head?.any fun next => opens.contains next))
    if isSpace c || colon || (inBrackets && (c == '?' || opens.contains c)) then 0
    else plainLength inBrackets rest + 1

/-- Empty lines inside a plain scalar, added to those found, the last one first; nothing is returned at a
mark between documents. -/
def plainBreaks : Nat → Text → Reading (Option Text)
  | 0, _ => malformed
  | fuel + 1, found => do
    match (← get).rest with
    | ' ' :: _ =>
      let _ ← take 1
      plainBreaks fuel found
    | c :: _ =>
      if isBreak c then
        let found := (← lineBreak) ++ found
        if ← isAtMark then return none else plainBreaks fuel found
      else return some found.reverse
    | [] => return some found.reverse

/-- A line end between words counts as a space, further ones stand for themselves. -/
def folded (first breaks : Text) : Text :=
  if first != ['\n'] then first ++ breaks
  else if breaks.isEmpty then [' ']
  else breaks

def plainSpaces (fuel : Nat) : Reading Text := do
  let spaces ← takeWhile (· == ' ')
  if (← get).rest.head?.any isBreak then
    let first ← lineBreak
    allowKey true
    if ← isAtMark then return []
    match ← plainBreaks fuel [] with
    | none => return []
    | some breaks => return folded first breaks
  else return spaces

/-- A plain scalar: words with the space between them, as long as they are indented. What was found is
kept with its end first. -/
def plainScalar (indent : Int) : Nat → (found spaces : Text) → Reading Text
  | 0, _, _ => malformed
  | fuel + 1, found, spaces => do
    let s ← get
    if s.rest.head? == some '#' then return found.reverse
    let length := plainLength (s.flow != 0) s.rest
    -- a colon ends the word by what follows it
    look (if (s.rest.drop length).head? == some ':' then length + 1 else length)
    if length = 0 then return found.reverse
    allowKey false
    let found := (spaces ++ (← take length)).reverse ++ found
    let spaces ← plainSpaces fuel
    let s ← get
    if spaces.isEmpty || s.rest.head? == some '#' || (s.flow == 0 && s.column < indent) then
      return found.reverse
    plainScalar indent fuel found spaces

/-! ### Quoted scalars -/

def escape? : Char → Option Char
  | '0' => some '\x00'
  | 'a' => some '\x07'
  | 'b' => some '\x08'
  | 't' | '\t' => some '\t'
  | 'n' => some '\n'
  | 'v' => some '\x0b'
  | 'f' => some '\x0c'
  | 'r' => some '\r'
  | 'e' => some '\x1b'
  | ' ' => some ' '
  | '"' => some '"'
  | '\\' => some '\\'
  | '/' => some '/'
  | 'N' => some '\u0085'
  | '_' => some '\u00a0'
  | 'L' => some '\u2028'
  | 'P' => some '\u2029'
  | _ => none

def escapeLength? : Char → Option Nat
  | 'x' => some 2
  | 'u' => some 4
  | 'U' => some 8
  | _ => none

/-- The code point of a number. A number of more than 31 bits is too large to be looked up. -/
def codePoint (code : Nat) : Except Fault CodePoint :=
  match CodePoint.ofNat? code with
  | some x => .ok x
  | none => .error (if code < Nat.pow 2 31 then .noCodePoint else .codePointTooLarge)

def escapedByCode (count : Nat) : Reading CodePoint := do
  let s ← get
  let digits := (s.rest.take count).map (Numeral.asciiDigit? .hexadecimal)
  let values := (digits.takeWhile Option.isSome).reduceOption
  look (min values.length (count - 1))
  if values.length < count then malformed
  let value ← Act.ofExcept (codePoint (Numeral.digitsValue 16 values))
  let _ ← take count
  return value

/-- Line ends after the first, with the spaces around them left out, added to those found, the last one
first. -/
def quotedBreaks : Nat → Text → Reading Text
  | 0, _ => malformed
  | fuel + 1, found => do
    if ← isAtMark then malformed
    let _ ← takeWhile fun c => c == ' ' || c == '\t'
    if (← get).rest.head?.any isBreak then quotedBreaks fuel ((← lineBreak) ++ found)
    else return found.reverse

def quotedSpaces (fuel : Nat) : Reading Text := do
  let spaces ← takeWhile fun c => c == ' ' || c == '\t'
  match (← get).rest with
  | [] => malformed
  | c :: _ =>
    if isBreak c then
      let first ← lineBreak
      return folded first (← quotedBreaks fuel [])
    else return spaces

def escaped (fuel : Nat) : Reading RawText := do
  let _ ← take 1
  match (← get).rest with
  | [] => malformed
  | c :: _ =>
    if let some value := escape? c then
      let _ ← take 1
      return [.char value]
    else if let some count := escapeLength? c then
      let _ ← take 1
      return [← escapedByCode count]
    else if isBreak c then
      let _ ← lineBreak
      return (← quotedBreaks fuel []).raw
    else malformed

/-- A quoted scalar after its opening mark, up to and with the closing one. What was found is kept with
its end first. -/
def quotedScalar (double : Bool) : Nat → RawText → Reading RawText
  | 0, _ => malformed
  | fuel + 1, found => do
    let word ← takeWhile fun c => !isSpace c && c != '\'' && c != '"' && c != '\\'
    let found := word.raw.reverse ++ found
    match (← get).rest with
    | [] => malformed
    | '\'' :: next =>
      if double then
        quotedScalar double fuel ((← take 1).raw ++ found)
      else if next.head? == some '\'' then
        let _ ← take 2
        quotedScalar double fuel (.char '\'' :: found)
      else
        let _ ← take 1
        return found.reverse
    | '"' :: _ =>
      let mark ← take 1
      if double then return found.reverse else quotedScalar double fuel (mark.raw ++ found)
    | '\\' :: _ =>
      if double then quotedScalar double fuel ((← escaped fuel).reverse ++ found)
      else quotedScalar double fuel ((← take 1).raw ++ found)
    | _ => quotedScalar double fuel ((← quotedSpaces fuel).raw.reverse ++ found)

/-! ### All tokens -/

def readPlain (fuel : Nat) : Reading Unit := do
  savePossible
  allowKey false
  let text ← plainScalar ((← get).indent + 1) fuel [] []
  emit (.plain text)

def readQuoted (double : Bool) (fuel : Nat) : Reading Unit := do
  savePossible
  allowKey false
  let _ ← take 1
  emit (.quoted (← quotedScalar double fuel []))

/-- A code point that cannot begin a plain scalar, or only before a letter. -/
def isIndicator (c : Char) : Bool := "-?:,[]\x7b\x7d#&*!|>'\"%@\x60".toList.contains c

/-- Reads what begins with a space or with a code point that begins a plain scalar only before a letter. -/
def readIndicator (c : Char) (fuel : Nat) : Reading Unit := do
  look 1
  let alone := endsWord ((← get).rest.drop 1)
  match c with
  | '-' => if alone then readDash else readPlain fuel
  | '?' => if alone then readKeyMark else readPlain fuel
  | ':' => if alone then readColon else readPlain fuel
  | _ => malformed

/-- Reads one token; the end of the text has none. -/
def readToken (fuel : Nat) : Reading Bool := do
  dropStale
  skipToToken fuel
  dropStale
  dedent (← get).column
  let s ← get
  let inBrackets := s.flow != 0
  match s.rest with
  | [] =>
    dedent (-1)
    dropPossible
    return false
  | c :: _ =>
    let marked ← if s.column = 0 && (c == '-' || c == '.') then isAtMark else pure false
    if marked then readMark (if c == '-' then .documentStart else .documentEnd)
    else if c == '[' then readOpen .listOpen
    else if c == '\x7b' then readOpen .mapOpen
    else if c == ']' then readClose .listClose
    else if c == '\x7d' then readClose .mapClose
    else if c == ',' then readComma
    else if c == '?' && inBrackets then readKeyMark
    else if c == ':' && inBrackets then readColon
    else if c == '\'' then readQuoted false fuel
    else if c == '"' then readQuoted true fuel
    else if isSpace c || isIndicator c then readIndicator c fuel
    else readPlain fuel
    return true

/-- Reads tokens to the end of the text, or to the first fault. -/
def readTokens : Nat → Scan → List Token
  | 0, s => s.settled ++ [.broken .malformedDocument]
  | fuel + 1, s =>
    match readToken (fuel + 1) s with
    | .ok true next => readTokens fuel next
    | .ok false next => next.found.reverse
    | .error fault _ => s.settled ++ [.broken fault]

def tokens (source : Source) : List Token :=
  let start : Scan := { rest := source.text, fault := source.fault }
  readTokens (source.text.length + 2)
    (if source.text.head? == some '\ufeff' then start.pass else start)

end StageMachine.Document
