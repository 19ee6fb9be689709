import StageMachine.Fault

/-! The text of a document as far as it can be read. A text that is at hand is checked as a whole; bytes
are read in pieces, and a fault in a piece is found when the first code point of the piece is asked for.
Bytes are fetched in blocks, and a block is decoded at once, so that a fault takes the code points in
front of it along. -/
namespace StageMachine.Document

/-- A text, and what is found behind it if it is not over. -/
structure Source where
  text : Text
  fault : Option Fault := none
  deriving DecidableEq, Repr

/-- What a document may hold; anything else is a fault wherever it stands. -/
def isAllowed (c : Char) : Bool :=
  c == '\t' || c == '\n' || c == '\r' || (' ' ≤ c && c ≤ '~') || c == '\u0085' ||
  ('\u00a0' ≤ c && c ≤ '\ud7ff') || ('\ue000' ≤ c && c ≤ '\ufffd') || 0x10000 ≤ c.toNat

/-- The source of pieces, each of which is checked when it is reached. -/
def Source.ofPieces (fault : Option Fault) : List Text → Source
  | [] => { text := [], fault }
  | piece :: rest =>
    if piece.all isAllowed then
      let behind := ofPieces fault rest
      { behind with text := piece ++ behind.text }
    else { text := [], fault := some .malformedDocument }

def Source.ofText (t : Text) : Source := ofPieces none [t]

/-! ### Blocks -/

/-- Bytes that begin a code point: others can complete them. What may follow a byte always includes the
least or the greatest of the bytes that continue a code point. A surrogate is refused only with its third
byte. -/
def isBeginning (bytes : ByteArray) : Bool :=
  match bytes.toList with
  | [0xED, second] => 0x80 ≤ second && second ≤ 0xBF
  | _ =>
    [0x80, 0xBF].any fun next => [1, 2, 3].any fun count =>
      (String.fromUTF8? (bytes ++ ⟨Array.replicate count next⟩)).isSome

/-- The text of bytes up to the given number of bytes at their end, if those begin a code point. -/
def decodeUpTo? (bytes : ByteArray) (left : Nat) : Option (Text × ByteArray) := do
  let cut := bytes.size - left
  let s ← String.fromUTF8? (bytes.extract 0 cut)
  let beginning := bytes.extract cut bytes.size
  if left = 0 || isBeginning beginning then some (s.toList, beginning) else none

def decodeBlock (bytes : ByteArray) : Except Fault (Text × ByteArray) :=
  match [0, 1, 2, 3].findSome? (decodeUpTo? bytes) with
  | some found => .ok found
  | none => .error .notUtf8

/-- Bytes that are read as text. -/
structure Stream where
  bytes : ByteArray
  position : Nat := 0
  /-- The beginning of a code point at the end of the last block. -/
  unfinished : ByteArray := .empty
  /-- A carriage return ends the last block, and a line feed may follow it. -/
  holdsReturn : Bool := false
  /-- Text that was decoded and not taken yet. -/
  ready : Text := []
  /-- The bytes for each code point of the last block. -/
  density : Float := 0.0

namespace Stream

def blockSize : Nat := 8192

def pieceLength : Nat := 4096

/-- The number of bytes that are fetched where so many code points are wanted. -/
def sizeFor (s : Stream) (wanted : Nat) : Nat :=
  let density := if s.density < 1.0 then 1.0 else s.density
  max blockSize (density * wanted.toFloat).toUInt64.toNat

/-- The stream with more text decoded, all line ends as line feeds. A carriage return at the end is held
back. -/
def accept (s : Stream) (bytes : Nat) (decoded : Text) : Stream :=
  let decoded := if s.holdsReturn then '\r' :: decoded else decoded
  let holdsReturn := decoded.getLast? == some '\r'
  let text := Text.unifyNewlines (if holdsReturn then decoded.dropLast else decoded)
  { s with
    holdsReturn
    ready := s.ready ++ text
    density := if text.isEmpty then 0.0 else bytes.toFloat / text.length.toFloat }

/-- Fetches a block. Nothing is returned at the end. -/
def fetch? (s : Stream) (wanted : Nat) : Except Fault (Option Stream) :=
  let block := s.bytes.extract s.position (s.position + s.sizeFor wanted)
  if block.isEmpty then
    if !s.unfinished.isEmpty then .error .notUtf8
    else if s.holdsReturn then
      .ok (some { s with holdsReturn := false, ready := s.ready ++ ['\n'], density := 0.0 })
    else .ok none
  else do
    let (decoded, unfinished) ← decodeBlock (s.unfinished ++ block)
    let s := { s with position := s.position + block.size, unfinished }
    return some (s.accept block.size decoded)

def fill : Nat → Stream → Except Fault Stream
  | 0, s => .ok s
  | fuel + 1, s =>
    if pieceLength ≤ s.ready.length then .ok s
    else do
      match ← s.fetch? (pieceLength - s.ready.length) with
      | some next => fill fuel next
      | none => return s

/-- The pieces up to the end of the bytes, or to the first fault. -/
def pieces : Nat → Stream → List Text × Option Fault
  | 0, _ => ([], none)
  | fuel + 1, s =>
    match s.fill (s.bytes.size + 2) with
    | .error fault => ([], some fault)
    | .ok s =>
      if s.ready.isEmpty then ([], none)
      else
        let (rest, fault) := pieces fuel { s with ready := s.ready.drop pieceLength }
        (s.ready.take pieceLength :: rest, fault)

end Stream

/-- The source of bytes. The first two pieces are read at once. -/
def Source.ofBytes (bytes : ByteArray) : Source :=
  match Stream.pieces (bytes.size + 1) { bytes } with
  | (first :: second :: rest, fault) => ofPieces fault ((first ++ second) :: rest)
  | (_, some fault) => { text := [], fault := some fault }
  | (pieces, none) => ofPieces none pieces

end StageMachine.Document
