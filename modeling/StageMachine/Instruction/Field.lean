import StageMachine.Fault

/-! Bit fields of an instruction word. A value is first taken modulo 2 to the 32, so a negative value
leaves the low bits of its two's complement, and then cut to the width of the field. -/
namespace StageMachine

/-- The lowest bits of a number, the highest of them first. -/
def lowBits : Nat → Nat → Text
  | 0, _ => []
  | width + 1, n => (if n.testBit width then '1' else '0') :: lowBits width n

def valueRange : Int := Int.pow 2 32

/-- The bits of a value in a field of the given width. Without a value all bits are zero. -/
def fieldBits (width : Nat) : Option Int → Text
  | none => List.replicate width '0'
  | some value => lowBits width (value % valueRange).toNat

/-- The longest text, by its length. -/
def longestText : Int := Int.pow 2 63 - 1

/-- The widest mask of ones that a number can be cut with. -/
def widestMask : Int := 30 * (Int.pow 2 61 - 8)

/-- What there is memory for: masks and texts, by their length. -/
structure Capacity where
  mask : Nat → Bool
  text : Nat → Bool

/-- Memory for every mask and every text up to a length. -/
def Capacity.upTo (length : Nat) : Capacity where
  mask := (· ≤ length)
  text := (· ≤ length)

/-- Whether there can be a mask of a width, if there is memory for it. -/
def checkWidth (roomy : Bool) (width : Int) : Except Fault Unit :=
  if width < 0 then .error .negativeShift
  else if widestMask < width then .error .tooManyPlaces
  else if !roomy then .error .noRoom
  else .ok ()

/-- The bits of a value where the width is not known to be a sensible one. No width can be shown in
fewer places than one. A value is cut with a mask first, and its text takes more memory than the mask. -/
def encodeField (c : Capacity) (value width : Option Int) : Except Fault Text :=
  match width, value with
  | none, _ => .error .noWidth
  | some w, none =>
    if longestText < w then .error .tooManyPlaces
    else if !c.text w.toNat then .error .noRoom
    else .ok (List.replicate w.toNat '0')
  | some w, some v => do
    checkWidth (c.mask w.toNat) w
    if longestText < w then throw .textTooLong
    else if !c.text w.toNat then throw .noRoom
    else return if w = 0 then ['0'] else fieldBits w.toNat (some v)

/-- Three bits name one of eight registers, or hold a small number. -/
def fieldWidth : Nat := 3

/-- An instruction word: the opcode and three fields. -/
def wordBits (opcode : Text) (dest src1 last : Option Int) : Text :=
  opcode ++ fieldBits fieldWidth dest ++ fieldBits fieldWidth src1 ++ fieldBits fieldWidth last

@[simp] theorem length_lowBits (width n : Nat) : (lowBits width n).length = width := by
  induction width with
  | zero => rfl
  | succ width ih => simp [lowBits, ih]

@[simp] theorem length_fieldBits (width : Nat) (value : Option Int) :
    (fieldBits width value).length = width := by
  cases value <;> simp [fieldBits]

end StageMachine
