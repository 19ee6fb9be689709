import StageMachine.Instruction.Assembly
import StageMachine.Text.Basic

/-! The files that a session can read: a directory and the files below it. Paths go through the
directories one step after the other, so a step up is only possible from a directory that is there.
Names of files are bytes: those of the characters of a path, and single bytes that a path can name by
halves of surrogate pairs. -/
namespace StageMachine

/-- A path. -/
abbrev PathName := RawText

namespace PathName

def slash : CodePoint := .char '/'

def dot : CodePoint := .char '.'

/-- The bytes of a code point in a path. The halves from U+DC80 to U+DCFF stand for the bytes that belong
to no character; other halves have no bytes. -/
def bytes? : CodePoint → Option (List UInt8)
  | .char c => some (String.utf8EncodeChar c)
  | .half offset =>
    if 0x480 ≤ offset.val && offset.val < 0x500 then some [UInt8.ofNat (offset.val - 0x400)] else none

def isEncodable (path : PathName) : Bool := path.all fun x => (bytes? x).isSome

def encode (path : PathName) : List UInt8 := path.flatMap fun x => (bytes? x).getD []

end PathName

/-- A place below the root: the names on the way to it. -/
abbrev Place := List (List UInt8)

/-- A directory with files below it. -/
structure Workspace where
  directory : Text := ['/']
  /-- Files with their contents, by their path, from the directory or from the root. -/
  files : List (Text × ByteArray) := []

namespace Workspace

open PathName (slash dot encode isEncodable)

def steps (path : PathName) : List PathName := Text.splitWhen (· == slash) path

def names (path : PathName) : List PathName := (steps path).filter fun step => !step.isEmpty && step != [dot]

def isRooted (path : PathName) : Bool := path.head? == some slash

def origin (w : Workspace) (path : PathName) : List PathName :=
  if isRooted path then [] else names w.directory.raw

def home (w : Workspace) : Place := (names w.directory.raw).map encode

def places (w : Workspace) : List (Place × ByteArray) :=
  w.files.map fun (path, bytes) => ((w.origin path.raw ++ names path.raw).map encode, bytes)

def file? (w : Workspace) (place : Place) : Option ByteArray := w.places.lookup place

/-- A place is a directory if it leads to the workspace or to a file. -/
def isDirectory (w : Workspace) (place : Place) : Bool :=
  place.isPrefixOf w.home || w.places.any fun (other, _) =>
    place.length < other.length && place.isPrefixOf other

def longestName : Nat := 255

def longestPath : Nat := 4095

def walk (w : Workspace) (path : PathName) : Place → List PathName → Except Fault Place
  | place, [] => .ok place
  | place, step :: rest =>
    if w.isDirectory place then
      if longestName < (encode step).length then .error .pathTooLong
      else
        let next :=
          if step.isEmpty || step = [dot] then place
          else if step = [dot, dot] then place.dropLast
          else place ++ [encode step]
        w.walk path next rest
    else if (w.file? place).isSome then .error .notDirectory
    else .error (.missingFile path)

def readBytes (w : Workspace) (path : PathName) : Except Fault ByteArray := do
  if !isEncodable path then throw .pathNotEncodable
  if path.contains (.char '\x00') then throw .nulInPath
  if path.isEmpty then throw (.missingFile path)
  if longestPath < (encode path).length then throw .pathTooLong
  let place ← w.walk path ((w.origin path).map encode) (steps path)
  match w.file? place with
  | some bytes => return bytes
  | none => throw (if w.isDirectory place then .isDirectory else .missingFile path)

def decode (bytes : ByteArray) : Except Fault Text :=
  match String.fromUTF8? bytes with
  | some s => .ok (Text.unifyNewlines s.toList)
  | none => .error .notUtf8

def readText (w : Workspace) (path : PathName) : Except Fault Text := do
  decode (← w.readBytes path)

/-- Assembles the text of a file. -/
def assembleFile (w : Workspace) (path : PathName) : Report (List Instruction) := do
  Assembly.assemble (← w.readText path)

/-- Goes up one directory for every two dots, as far as the root. -/
def withoutUps (names : List PathName) : List PathName :=
  names.foldl (fun place step => if step = [dot, dot] then place.dropLast else place ++ [step]) []

def rooted (names : List PathName) : PathName :=
  if names.isEmpty then [slash] else names.flatMap fun step => slash :: step

/-- A path from the root, without steps that lead nowhere. -/
def absolute (w : Workspace) (path : PathName) : PathName :=
  rooted (withoutUps (w.origin path ++ names path))

/-- A path that is meant relative to the directory of another file. -/
def beside (w : Workspace) (file path : PathName) : PathName :=
  if isRooted path then path
  else
    let directory := (names (w.absolute file)).dropLast
    directory.flatMap (slash :: ·) ++ slash :: path

end Workspace
end StageMachine
