import StageMachine.Machine.State

/-! The arithmetic unit. Integers are unbounded unless the machine has a register width; with a width
every result is taken modulo a power of two. -/
namespace StageMachine

/-- The bitwise conjunction of two integers in two's complement, without a bound on their length. -/
def bitAnd : Int → Int → Int
  | .ofNat m, .ofNat n => .ofNat (m &&& n)
  | .ofNat m, .negSucc n => .ofNat (m ^^^ (m &&& n))
  | .negSucc m, .ofNat n => .ofNat (n ^^^ (n &&& m))
  | .negSucc m, .negSucc n => .negSucc (m ||| n)

/-- The width of a register: its bits, and whether there is memory for a mask of so many ones. -/
structure Width where
  bits : Nat
  positive : 0 < bits
  roomy : Bool
  deriving DecidableEq, Repr

/-- Numbers can be cut to the width: its mask can be counted, and there is memory for it. -/
def Width.Masks (w : Width) : Prop := w.bits ≤ widestMask ∧ w.roomy = true

instance (w : Width) : Decidable w.Masks := inferInstanceAs (Decidable (_ ∧ _))

/-- What is wrong with a width that no number can be cut to. -/
def Width.fault (w : Width) : Fault := if widestMask < w.bits then .tooManyPlaces else .noRoom

/-- The lowest bits of a value. A value that has no others is not divided. -/
def wrap (bits : Nat) (value : Int) : Int :=
  if 0 ≤ value ∧ value.toNat.log2 < bits then value else value % Nat.pow 2 bits

@[simp] theorem wrap_eq_emod (bits : Nat) (value : Int) : wrap bits value = value % Nat.pow 2 bits := by
  rw [wrap, Nat.pow_eq]
  split
  · next fits =>
    obtain ⟨nonneg, short⟩ := fits
    rw [Int.emod_eq_of_lt nonneg]
    by_cases zero : value.toNat = 0
    · have := Nat.two_pow_pos bits
      omega
    · have := (Nat.log2_lt zero).1 short
      omega
  · rfl

/-- A value cut to a width of which nothing is known. -/
def wrapTo (roomy : Bool) (width value : Int) : Except Fault Int :=
  (checkWidth roomy width).map fun _ => wrap width.toNat value

namespace Alu

/-- The result of an instruction before it is cut: a sum, a difference, a conjunction, an immediate, an
address, or the value that a branch tests. There is no disjunction: `or` gives zero. -/
def raw (i : Instruction) (s : State) : Int :=
  let a := s.register i.src1
  let b := s.register i.src2
  let immediate := i.immediate.getD 0
  match i.opcode with
  | some .add => a + b
  | some .sub => a - b
  | some .addi => a + immediate
  | some .ldi | some .mov => immediate
  | some .and => bitAnd a b
  | some .load | some .store | some .brz => a
  | some .or | some .jmp | some .nop | none => 0

/-- The result of an instruction. It fails only where no number can be cut to the width. -/
def compute (width : Option Width) (i : Instruction) (s : State) : Except Fault Int :=
  match width with
  | none => .ok (raw i s)
  | some w => wrapTo w.roomy w.bits (raw i s)

end Alu
end StageMachine
