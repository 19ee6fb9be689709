import StageMachine.Proofs.Instruction.Encoding
import StageMachine.Proofs.Instruction.Remarking

/-! Which tokens are read as registers. The form of a register is the letter with a number behind it. The letter is
taken out wherever it stands, so a number alone is read as a register as well, and so is one with the letter
behind its sign, among its digits or at its end. Every other token is malformed. -/
namespace StageMachine.Assembly
open Numeral

inductive BeginsRegister : Text → Int → Prop where
  | of {letter : Char} {rest : Text} {m : Int} (marked : letter = 'r' ∨ letter = 'R')
      (begun : Begins rest m) : BeginsRegister (letter :: rest) m

/-- A token that passes for a register without the letter in front. -/
inductive PassesForRegister : Text → Int → Prop where
  /-- A number, and neither a digit nor the letter behind it. -/
  | unmarked {number rest : Text} {m : Int} (spelled : Spells number m)
      (ended : ∀ c ∈ rest.head?, Text.digitValue? c = none ∧ c ≠ 'r' ∧ c ≠ 'R') :
      PassesForRegister (number ++ rest) m
  /-- A number with the letter behind its sign, among its digits or at its end. -/
  | across {letter : Char} {before after rest : Text} {m : Int} (marked : letter = 'r' ∨ letter = 'R')
      (begun : before ≠ []) (spelled : Spells (before ++ after) m)
      (ended : ∀ c ∈ rest.head?, Text.digitValue? c = none) :
      PassesForRegister (before ++ letter :: (after ++ rest)) m

def Unlettered (t : Text) : Prop := ∀ c ∈ t, ¬ (c = 'r' ∨ c = 'R')

theorem unlettered_cons {c : Char} {t : Text} : Unlettered (c :: t) ↔ ¬ (c = 'r' ∨ c = 'R') ∧ Unlettered t :=
  List.forall_mem_cons

theorem unlettered_append {s t : Text} : Unlettered (s ++ t) ↔ Unlettered s ∧ Unlettered t :=
  List.forall_mem_append

theorem unlettered_of_spells {number : Text} {m : Int} (spelled : Spells number m) : Unlettered number := by
  have digits {digits : Text} {values : List Nat} (each : digits.map Text.digitValue? = values.map some) :
      Unlettered digits := by
    rintro c member (rfl | rfl) <;>
      · obtain ⟨d, digit⟩ := exists_digit_of_each each member
        cases digit
  cases spelled with
  | plain each => exact digits each
  | plus each => exact unlettered_cons.2 ⟨by decide, digits each⟩
  | minus each => exact unlettered_cons.2 ⟨by decide, digits each⟩

theorem ne_nil_of_spells {number : Text} {m : Int} (spelled : Spells number m) : number ≠ [] := by
  rintro rfl
  cases spelled with
  | plain each some => exact some (List.map_eq_nil_iff.1 each.symm)

section
variable {before rest token : Text} {letter : Char} {m : Int}

theorem PassesForRegister.unformed (passed : PassesForRegister token m) (n : Int) :
    ¬ BeginsRegister token n := by
  have apart {first rest : Text} (begun : first ≠ []) (unlettered : Unlettered first) :
      ¬ BeginsRegister (first ++ rest) n := by
    obtain ⟨c, more, rfl⟩ := List.exists_cons_of_ne_nil begun
    rintro ⟨marked, -⟩
    exact (unlettered_cons.1 unlettered).1 marked
  cases passed with
  | unmarked spelled => exact apart (ne_nil_of_spells spelled) (unlettered_of_spells spelled)
  | across _ begun spelled => exact apart begun (unlettered_append.1 (unlettered_of_spells spelled)).1

theorem PassesForRegister.of_begins (marked : letter = 'r' ∨ letter = 'R') (first : before ≠ [])
    (unlettered : Unlettered before) (begun : Begins (before ++ rest) m) :
    PassesForRegister (before ++ letter :: rest) m := by
  generalize whole : before ++ rest = text at begun
  cases begun with
  | @of number more _ spelled ended =>
    rcases List.append_eq_append_iff.1 whole with ⟨after, rfl, rfl⟩ | ⟨left, rfl, rfl⟩
    · exact .across marked first spelled ended
    · cases left with
      | nil =>
        rw [List.append_nil] at first ⊢
        exact .across marked first ((List.append_nil number).symm ▸ spelled : Spells (number ++ []) m) ended
      | cons c left =>
        -- the number ends before the letter, at a character that is neither a digit nor a letter
        have outside := (unlettered_cons.1 (unlettered_append.1 unlettered).2).1
        rw [List.append_assoc]
        refine .unmarked spelled fun d next => ?_
        obtain rfl : c = d := by simpa using next
        exact ⟨ended c rfl, not_or.1 outside⟩

theorem dropLetter_append (unlettered : Unlettered before) (rest : Text) :
    dropLetter (before ++ rest) = before ++ dropLetter rest := by
  induction before with
  | nil => rfl
  | cons c before ih =>
    obtain ⟨other, others⟩ := unlettered_cons.1 unlettered
    rw [List.cons_append, dropLetter, if_neg other, ih others, List.cons_append]

theorem dropLetter_of_unlettered (unlettered : Unlettered token) : dropLetter token = token := by
  have whole := dropLetter_append unlettered []
  rwa [List.append_nil, dropLetter, List.append_nil] at whole

theorem dropLetter_of_letter (marked : letter = 'r' ∨ letter = 'R') (rest : Text) :
    dropLetter (letter :: rest) = rest := if_pos marked

theorem unlettered_or_exists (token : Text) : Unlettered token ∨
    ∃ before letter rest, token = before ++ letter :: rest ∧ (letter = 'r' ∨ letter = 'R') ∧
      Unlettered before := by
  induction token with
  | nil => exact .inl nofun
  | cons c token ih =>
    by_cases marked : c = 'r' ∨ c = 'R'
    · exact .inr ⟨[], c, token, rfl, marked, nofun⟩
    · rcases ih with unlettered | ⟨before, letter, rest, rfl, first, unlettered⟩
      · exact .inl (unlettered_cons.2 ⟨marked, unlettered⟩)
      · exact .inr ⟨c :: before, letter, rest, rfl, first, unlettered_cons.2 ⟨marked, unlettered⟩⟩

theorem begins_dropLetter_of_passes (passed : PassesForRegister token m) : Begins (dropLetter token) m := by
  cases passed with
  | @unmarked _ rest _ spelled ended =>
    rw [dropLetter_append (unlettered_of_spells spelled)]
    cases rest with
    | nil => exact .of spelled nofun
    | cons c rest =>
      obtain ⟨digit, apart⟩ := ended c rfl
      rw [dropLetter, if_neg (not_or.2 apart)]
      exact .of spelled fun d next => Option.some.inj next ▸ digit
  | across marked _ spelled ended =>
    rw [dropLetter_append (unlettered_append.1 (unlettered_of_spells spelled)).1, dropLetter_of_letter marked,
      ← List.append_assoc]
    exact .of spelled ended

/-- What is left of a token without its letter begins with a number just where the token has the form of a
register or passes for one. -/
theorem begins_dropLetter_iff :
    Begins (dropLetter token) m ↔ BeginsRegister token m ∨ PassesForRegister token m := by
  constructor
  · intro begun
    rcases unlettered_or_exists token with unlettered | ⟨before, letter, rest, rfl, marked, unlettered⟩
    · rw [dropLetter_of_unlettered unlettered] at begun
      cases begun with
      | of spelled ended =>
        refine .inr (.unmarked spelled fun c next => ⟨ended c next, not_or.1 ?_⟩)
        exact (unlettered_append.1 unlettered).2 c (List.mem_of_mem_head? next)
    · rw [dropLetter_append unlettered, dropLetter_of_letter marked] at begun
      by_cases first : before = []
      · subst first
        exact .inl (.of marked begun)
      · exact .inr (.of_begins marked first unlettered begun)
  · rintro (⟨marked, begun⟩ | passed)
    · rwa [dropLetter_of_letter marked]
    · exact begins_dropLetter_of_passes passed

theorem dropLetter_sublist (token : Text) : (dropLetter token).Sublist token := by
  induction token with
  | nil => exact .slnil
  | cons c token ih =>
    rw [dropLetter]
    split
    · exact List.sublist_cons_self c token
    · exact ih.cons_cons c

theorem digits_eq_nil (solid : ∀ c ∈ token, Text.isBlank c = false) (unread : ∀ m, ¬ Begins (dropLetter token) m) :
    Operand.digits ⟨.register, token⟩ = [] := by
  have start : Text.trimStart (dropLetter token) = dropLetter token := Text.dropWhile_eq_self fun c first =>
    solid c ((dropLetter_sublist token).subset (List.mem_of_mem_head? first))
  by_contra found
  have found : leadingDigits (signed (Text.trimStart (dropLetter token))).2 ≠ [] := found
  rw [start] at found
  obtain ⟨m, begun⟩ := exists_begins found
  exact unread m begun

end

theorem roles_eq_map_slots (opcode : Option Opcode) : roles opcode = (slots opcode).map Slot.role := by
  cases opcode with
  | none => rfl
  | some op => cases op <;> rfl

section
variable {raw word : Text} {operands : List Text} {line index place : Nat} {slot : Slot} {token : Text}

theorem mem_lineOperands (read : tokens raw = word :: operands)
    (meant : (slots (lineInstruction raw line index).opcode)[place]? = some slot)
    (given : operands[place]? = some token) : ⟨slot.role, token⟩ ∈ lineOperands raw := by
  have opcode : (lineInstruction raw line index).opcode = opcode? (Text.upper word) := by
    simp [lineInstruction, read, instruction]
  rw [opcode] at meant
  have listed : lineOperands raw =
      List.zipWith Operand.mk ((slots (opcode? (Text.upper word))).map Slot.role) operands := by
    simp [lineOperands, read, operandsFrom, roles_eq_map_slots]
  rw [listed]
  apply List.mem_of_getElem? (i := place)
  simp [List.getElem?_zipWith, meant, given]

end

/-- What becomes of a token in the place of a register. Its number modulo 8 is put into the field if the token has
the form of a register, and also if it only passes for one; otherwise zero is, with a remark. -/
structure RegisterRead (line : Nat) (token : Text) (field : Option Int) (remarks : List Remark) : Prop where
  formed : ∀ m, BeginsRegister token m → field = some (m % 8) ∧ .malformedRegister line token ∉ remarks
  passed : ∀ m, PassesForRegister token m → (∀ n, ¬ BeginsRegister token n) ∧
    field = some (m % 8) ∧ .malformedRegister line token ∉ remarks
  malformed : (∀ m, ¬ BeginsRegister token m) → (∀ m, ¬ PassesForRegister token m) →
    field = some 0 ∧ .malformedRegister line token ∈ remarks ∧
      (Remark.malformedRegister line token).level = .debug

theorem registerRead_of_mem {source : Text} (short : ∀ o ∈ operandsRead source, o.isOverlong = false)
    {line : Nat} {token : Text}
    (listed : (⟨.register, token⟩, line) ∈ operandsOn (codeLines 1 (Text.lines source)))
    (solid : ∀ c ∈ token, Text.isBlank c = false) :
    RegisterRead line token (some (Operand.value ⟨.register, token⟩)) (assemble source).remarks := by
  have named {m : Int} (named : BeginsRegister token m ∨ PassesForRegister token m) :
      some (Operand.value ⟨.register, token⟩) = some (m % 8) ∧
        .malformedRegister line token ∉ (assemble source).remarks := by
    obtain ⟨found, value⟩ := digits_of_begins (begins_dropLetter_iff.2 named)
    exact ⟨congrArg some value, fun said => found ((malformedRegister_mem_iff short).1 said).2⟩
  refine ⟨fun m formed => named (.inl formed), fun m passed => ⟨passed.unformed, named (.inr passed)⟩,
    fun unformed unpassed => ?_⟩
  have unread := digits_eq_nil solid fun m begun =>
    (begins_dropLetter_iff.1 begun).elim (unformed m) (unpassed m)
  exact ⟨congrArg some (Operand.value_of_digits_eq_nil unread),
    (malformedRegister_mem_iff short).2 ⟨listed, unread⟩, rfl⟩

theorem exists_overlong {source : Text} {fault : Fault} (refused : (assemble source).outcome = .error fault) :
    ∃ o ∈ operandsRead source, o.isOverlong := by
  by_contra none
  have short : ∀ o ∈ operandsRead source, o.isOverlong = false := by simpa using none
  rw [assemble_eq_ok.2 ⟨short, rfl⟩] at refused
  cases refused

/-- Each token in the place of a register is read by its form. A source is refused for an operand with too many
digits, and is assembled otherwise. -/
theorem registers_read (source : Text) :
    ((∀ o ∈ operandsRead source, o.isOverlong = false) →
      (assemble source).outcome = .ok (program source) ∧
      ∀ i ∈ program source, ∃ line : Nat, i.line = line ∧ (i.raw, line) ∈ codeLines 1 (Text.lines source) ∧
        ∀ (word : Text) (operands : List Text), tokens i.raw = word :: operands →
          ∀ (place : Nat) (slot : Slot) (token : Text), (slots i.opcode)[place]? = some slot →
            slot.role = .register → operands[place]? = some token →
            RegisterRead line token (i.fields.get slot) (assemble source).remarks) ∧
    ((∃ o ∈ operandsRead source, o.isOverlong) →
      ∃ digits, digitLimit < digits ∧ (assemble source).outcome = .error (.numeralTooLong digits)) := by
  have outcome : (assemble source).outcome = reading (operandsRead source) (program source) :=
    assembleLines_reading 1 0 (Text.lines source)
  refine ⟨fun short => ⟨?_, fun i member => ?_⟩, fun refused => ?_⟩
  · exact assemble_eq_ok.2 ⟨short, rfl⟩
  · obtain ⟨⟨⟨raw, line⟩, index⟩, listed, rfl⟩ := List.mem_map.1 member
    have code : (raw, line) ∈ codeLines 1 (Text.lines source) := List.fst_mem_of_mem_zipIdx listed
    simp only [raw_lineInstruction, line_lineInstruction]
    refine ⟨line, rfl, code, ?_⟩
    intro word operands read place slot token meant role given
    have operand := mem_lineOperands read meant given
    have solid : ∀ c ∈ token, Text.isBlank c = false := fun c =>
      isBlank_of_mem_tokens (read ▸ List.mem_cons_of_mem word (List.mem_of_getElem? given))
    rw [get_lineInstruction read meant given]
    rw [role] at operand ⊢
    exact registerRead_of_mem short
      (List.mem_flatMap.2 ⟨(raw, line), code, List.mem_map_of_mem operand⟩) solid
  · obtain ⟨o, found⟩ := Option.isSome_iff_exists.1 (List.find?_isSome.2 refused)
    have long := List.find?_some found
    exact ⟨o.digits.length, by simpa [Operand.isOverlong] using long, by rw [outcome, reading, found]⟩

theorem registers_read_lettered :
    (∃ i : Instruction, (assemble "\nadd r٣x, -R2, Rx".toList).outcome = .ok [i] ∧
      i.dest = some 3 ∧ i.src1 = some 6 ∧ i.src2 = some 0 ∧
      .malformedRegister 2 "-R2".toList ∉ (assemble "\nadd r٣x, -R2, Rx".toList).remarks ∧
      .malformedRegister 2 "Rx".toList ∈ (assemble "\nadd r٣x, -R2, Rx".toList).remarks) ∧
    ∃ digits, digitLimit < digits ∧
      (assemble (numberLine ceiling)).outcome = .error (.numeralTooLong digits) := by
  have long : ¬ IsShort ceiling := not_isShort_of_le (Nat.le_refl ceiling)
  refine ⟨?_, (registers_read (numberLine ceiling)).2 (exists_overlong (assemble_of_long long))⟩
  let source := "\nadd r٣x, -R2, Rx".toList
  let i := instruction "ADD".toList "add r٣x, -R2, Rx".toList 2 0 (some .add)
    { dest := some 3, src1 := some 6, src2 := some 0 }
  have made : program source = [i] := by decide +kernel
  have read : tokens i.raw = ["add".toList, "r٣x".toList, "-R2".toList, "Rx".toList] := by decide +kernel
  have short : ∀ o ∈ operandsRead source, o.isOverlong = false := by decide +kernel
  obtain ⟨outcome, each⟩ := (registers_read source).1 short
  obtain ⟨line, number, -, operands⟩ := each i (made ▸ List.mem_singleton_self i)
  obtain rfl : line = 2 := by
    have : (line : Int) = 2 := number.symm
    omega
  have operands := operands _ _ read
  have three : "٣".toList.map Text.digitValue? = [3].map some := by decide
  have two : "2".toList.map Text.digitValue? = [2].map some := by decide
  have ended : ∀ c ∈ "x".toList.head?, Text.digitValue? c = none := by
    rintro c ⟨⟩
    rfl
  have formed : BeginsRegister ('r' :: ("٣".toList ++ "x".toList)) 3 :=
    .of (.inl rfl) (.of (.plain three (by simp)) ended)
  have passed : PassesForRegister ("-".toList ++ 'R' :: ("2".toList ++ [])) (-2) :=
    .across (.inr rfl) (by decide) (.minus two (by simp)) nofun
  have unread (m : Int) : ¬ (BeginsRegister "Rx".toList m ∨ PassesForRegister "Rx".toList m) := fun named =>
    (digits_of_begins (begins_dropLetter_iff.2 named)).1 (by decide)
  obtain ⟨first, -⟩ := (operands 0 .dest _ rfl rfl rfl).formed 3 formed
  obtain ⟨-, second, unsaid⟩ := (operands 1 .src1 _ rfl rfl rfl).passed (-2) passed
  obtain ⟨third, said, -⟩ := (operands 2 .src2 _ rfl rfl rfl).malformed
    (fun m formed => unread m (.inl formed)) fun m passed => unread m (.inr passed)
  exact ⟨i, made ▸ outcome, first, second, third, unsaid, said⟩

theorem not_only_formed_registers_read : ¬ ∀ (source : Text) (made : List Instruction),
    (assemble source).outcome = .ok made → ∀ i ∈ made, ∀ (word : Text) (operands : List Text),
      tokens i.raw = word :: operands → ∀ (place : Nat) (slot : Slot) (token : Text),
        (slots i.opcode)[place]? = some slot → slot.role = .register → operands[place]? = some token →
        (∀ m, ¬ BeginsRegister token m) →
        i.fields.get slot = some 0 ∧ ∃ line, .malformedRegister line token ∈ (assemble source).remarks := by
  intro only
  let i := instruction "LDI".toList "LDI 5, 1".toList 1 0 (some .ldi) { dest := some 5, immediate := some 1 }
  have made : (assemble "LDI 5, 1".toList).outcome = .ok [i] := by decide +kernel
  have read : tokens i.raw = ["LDI".toList, "5".toList, "1".toList] := by decide +kernel
  have unformed : ∀ m, ¬ BeginsRegister "5".toList m := by
    rintro m ⟨marked, -⟩
    exact absurd marked (by decide)
  have zero := (only _ _ made i (List.mem_singleton_self i) _ _ read 0 .dest _ rfl rfl rfl unformed).1
  cases zero

end StageMachine.Assembly
