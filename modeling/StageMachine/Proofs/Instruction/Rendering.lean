import StageMachine.Proofs.Instruction.Layout
import StageMachine.Proofs.Text.Words

/-! Instructions rendered and assembled again. A rendered instruction shows every operand that its
opcode takes, as a word that reads back as the number it was written for. -/
namespace StageMachine
namespace Assembly

def registerWord (register : Option Int) : Text := 'R' :: Numeral.plain (register.getD 0)

def numberWord (value : Option Int) : Text := Numeral.plain (value.getD 0)

def Fields.words (f : Fields) : Opcode → List Text
  | .add | .sub | .and | .or => [registerWord f.dest, registerWord f.src1, registerWord f.src2]
  | .addi => [registerWord f.dest, registerWord f.src1, numberWord f.immediate]
  | .ldi | .mov => [registerWord f.dest, numberWord f.immediate]
  | .load => [registerWord f.dest, registerWord f.src1]
  | .store => [registerWord f.src1, registerWord f.src2]
  | .brz => [registerWord f.src1, numberWord f.address]
  | .jmp => [registerWord f.src1]
  | .nop => []

def lineText (op : Opcode) : List Text → Text
  | [] => op.name
  | words => op.name ++ ' ' :: Text.joined [',', ' '] words

/-- The fields that are read from the operands that an opcode shows: none is left unset. -/
def Fields.filled (f : Fields) : Opcode → Fields
  | .add | .sub | .and | .or =>
    { dest := some (f.dest.getD 0), src1 := some (f.src1.getD 0), src2 := some (f.src2.getD 0) }
  | _ => f

structure Fields.Writable (f : Fields) : Prop where
  dest : ∀ i ∈ f.dest, IsRegister i
  src1 : ∀ i ∈ f.src1, IsRegister i
  src2 : ∀ i ∈ f.src2, IsRegister i
  immediate : ∀ v ∈ f.immediate, IsShort v
  address : ∀ v ∈ f.address, IsShort v

theorem Fields.Laid.writable {opcode : Option Opcode} {f : Fields} (laid : f.Laid opcode) :
    f.Writable := by
  cases laid with
  | ternary kind target first second => exact ⟨target, first, second, by simp, by simp⟩
  | addi target source short => constructor <;> simp [target, source, short]
  | immediate kind target short => constructor <;> simp [target, short]
  | load target source => constructor <;> simp [target, source]
  | store place source => constructor <;> simp [place, source]
  | brz source short => constructor <;> simp [source, short]
  | jmp source => constructor <;> simp [source]
  | idle kind => constructor <;> simp

theorem numberName_eq_ok {value : Option Int} (short : ∀ v ∈ value, IsShort v) :
    numberName value = .ok (numberWord value) := by
  have small : IsShort (value.getD 0) := by
    cases value with
    | none => exact isShort_zero
    | some v => exact short v rfl
  unfold IsShort at small
  rw [numberName, Numeral.decimal, if_pos small, numberWord]

theorem registerName_of_short {register : Option Int} (short : ∀ i ∈ register, IsShort i) :
    registerName register = .ok (registerWord register) := by
  have shown := numberName_eq_ok short
  rw [numberName] at shown
  rw [registerName, shown]
  rfl

theorem registerName_eq_ok {register : Option Int} (known : ∀ i ∈ register, IsRegister i) :
    registerName register = .ok (registerWord register) :=
  registerName_of_short fun i member => (known i member).short

theorem operands_eq {f : Fields} (w : f.Writable) (op : Opcode) :
    op.operands f.dest f.src1 f.src2 f.immediate f.address = (f.words op).map .ok := by
  have d := registerName_eq_ok w.dest
  have a := registerName_eq_ok w.src1
  have b := registerName_eq_ok w.src2
  have n := numberName_eq_ok w.immediate
  have o := numberName_eq_ok w.address
  cases op <;> simp [Opcode.operands, Fields.words, d, a, b, n, o]

theorem render_eq {f : Fields} (w : f.Writable) (op : Opcode) :
    op.render f.dest f.src1 f.src2 f.immediate f.address = .ok (lineText op (f.words op)) := by
  have all : ((f.words op).map Except.ok).mapM id = (.ok (f.words op) : Except Fault (List Text)) := by
    have each : (f.words op).mapM (fun t => (.ok t : Except Fault Text)) = .ok ((f.words op).map id) :=
      mapM_eq_ok fun t _ => rfl
    simpa [List.mapM_map] using each
  rw [Opcode.render, operands_eq w, all]
  cases f.words op <;> rfl

theorem isWord_plain (v : Int) : IsWord (Numeral.plain v) := by
  have digit {c : Char} (d : c.isDigit) : isSeparator c = false ∧ c ≠ ';' := by
    constructor
    · have apart : c ≠ ',' := by rintro rfl; exact absurd d (by decide)
      simp [isSeparator, Numeral.isBlank_eq_false_of_isDigit d, apart]
    · rintro rfl
      exact absurd d (by decide)
  have digits (n : Nat) : ∀ c ∈ Nat.toDigits 10 n, isSeparator c = false ∧ c ≠ ';' := fun c member =>
    digit (Nat.isDigit_of_mem_toDigits (by decide) (by decide) member)
  have all : ∀ c ∈ Numeral.plain v, isSeparator c = false ∧ c ≠ ';' := by
    cases v with
    | ofNat n => exact digits n
    | negSucc n =>
      intro c member
      rcases List.mem_cons.1 member with rfl | member
      · decide
      · exact digits (n + 1) c member
  refine ⟨?_, fun c member => (all c member).1, fun member => (all ';' member).2 rfl⟩
  cases v with
  | ofNat n => exact Nat.toDigits_ne_nil
  | negSucc n => simp [Numeral.plain]

theorem isWord_registerWord (register : Option Int) : IsWord (registerWord register) := by
  have tail := isWord_plain (register.getD 0)
  refine ⟨by simp [registerWord], ?_, ?_⟩
  · intro c member
    rcases List.mem_cons.1 member with rfl | member
    · decide
    · exact tail.solid c member
  · simp [registerWord, tail.spoken]

theorem isWord_name (op : Opcode) : IsWord op.name := by
  have solid : op.name.all (!isSeparator ·) = true := by cases op <;> decide
  refine ⟨?_, fun c member => ?_, ?_⟩
  · cases op <;> decide
  · simpa using List.all_eq_true.1 solid c member
  · cases op <;> decide

theorem isWord_of_mem_words {f : Fields} {op : Opcode} {word : Text} (member : word ∈ f.words op) :
    IsWord word := by
  have r := isWord_registerWord
  have n (value : Option Int) : IsWord (numberWord value) := isWord_plain _
  cases op <;> simp only [Fields.words, List.mem_cons, List.not_mem_nil, or_false] at member <;>
    rcases member with rfl | rfl | rfl <;> first | exact r _ | exact n _

theorem tokens_lineText {op : Opcode} {words : List Text} (solid : ∀ w ∈ words, IsWord w) :
    tokens (lineText op words) = op.name :: words := by
  cases words with
  | nil => exact (isWord_name op).tokens_eq
  | cons w words => exact tokens_words (isWord_name op) solid

theorem register_registerWord {line : Nat} {r : Option Int} (known : ∀ i ∈ r, IsRegister i) :
    register line (registerWord r) = pure (r.getD 0) := by
  have inside : IsRegister (r.getD 0) := by
    cases r with
    | none => exact ⟨by decide, by decide⟩
    | some i => exact known i rfl
  have kept : r.getD 0 % registerCount = r.getD 0 := Int.emod_eq_of_lt inside.1 inside.2
  have read : Numeral.leadingInt? (dropLetter (registerWord r)) = .ok (some (r.getD 0)) :=
    Numeral.leadingInt?_plain inside.short
  rw [register, read]
  show (if r.getD 0 % registerCount = r.getD 0 then pure (r.getD 0) else _ : Report Int) = _
  rw [if_pos kept]

theorem number_numberWord {line : Nat} {n : Option Int} (short : ∀ v ∈ n, IsShort v) :
    number line (numberWord n) = pure (n.getD 0) := by
  have small : IsShort (n.getD 0) := by
    cases n with
    | none => exact isShort_zero
    | some v => exact short v rfl
  rw [number, numberWord, Numeral.leadingInt?_plain small]
  rfl

theorem registerAt_words {line place : Nat} {operands : List Text} {r : Option Int}
    (found : operands[place]? = some (registerWord r)) (known : ∀ i ∈ r, IsRegister i) :
    registerAt line operands place = pure (some (r.getD 0)) := by
  simp only [registerAt, found, register_registerWord known]
  rfl

theorem registerAt?_words {line place : Nat} {operands : List Text} {r : Option Int}
    (found : operands[place]? = some (registerWord r)) (known : ∀ i ∈ r, IsRegister i) :
    registerAt? line operands place = pure (some (r.getD 0)) := by
  simp only [registerAt?, found, register_registerWord known]
  rfl

theorem numberAt_words {line place : Nat} {operands : List Text} {n : Option Int}
    (found : operands[place]? = some (numberWord n)) (short : ∀ v ∈ n, IsShort v) :
    numberAt line operands place = pure (some (n.getD 0)) := by
  simp only [numberAt, found, number_numberWord short]
  rfl

theorem fields_words {f : Fields} {op : Opcode} (laid : f.Laid (some op)) (line : Nat) :
    fields line (f.words op) (some op) = pure (f.filled op) := by
  have w := laid.writable
  cases laid with
  | ternary kind target first second =>
    rcases kind with rfl | rfl | rfl | rfl
    all_goals
      rw [fields, registerAt?_words (by rfl) w.dest, registerAt?_words (by rfl) w.src1,
        registerAt?_words (by rfl) w.src2]
      rfl
  | addi target source short =>
    rw [fields, registerAt_words (by rfl) w.dest, registerAt_words (by rfl) w.src1,
      numberAt_words (by rfl) w.immediate]
    rfl
  | immediate kind target short =>
    rcases kind with rfl | rfl
    all_goals
      rw [fields, registerAt_words (by rfl) w.dest, numberAt_words (by rfl) w.immediate]
      rfl
  | load target source =>
    rw [fields, registerAt_words (by rfl) w.dest, registerAt_words (by rfl) w.src1]
    rfl
  | store place source =>
    rw [fields, registerAt_words (by rfl) w.src1, registerAt_words (by rfl) w.src2]
    rfl
  | brz source short =>
    rw [fields, registerAt_words (by rfl) w.src1, numberAt_words (by rfl) w.address]
    rfl
  | jmp source =>
    rw [fields, registerAt_words (by rfl) w.src1]
    rfl
  | idle kind =>
    obtain rfl : op = .nop := by simpa using kind
    rfl

/-- A line that becomes an instruction as it stands. -/
structure IsLine (t : Text) : Prop where
  code : isCode t
  trimmed : Text.trim t = t
  single : '\n' ∉ t

theorem head?_lineText (op : Opcode) (words : List Text) :
    ∀ c ∈ (lineText op words).head?, Text.isBlank c = false ∧ c ≠ ';' := by
  have first : ∀ c ∈ op.name.head?, Text.isBlank c = false ∧ c ≠ ';' := by
    intro c found
    have member : c ∈ op.name := List.mem_of_mem_head? found
    refine ⟨(isWord_name op).isBlank_eq_false member, ?_⟩
    rintro rfl
    exact (isWord_name op).spoken member
  cases words with
  | nil => exact first
  | cons w words =>
    have some : op.name ≠ [] := (isWord_name op).ne_nil
    rw [lineText, List.head?_append_of_ne_nil _ some]
    · exact first
    · simp

theorem getLast?_lineText (op : Opcode) {words : List Text} (solid : ∀ w ∈ words, IsWord w) :
    ∃ w, IsWord w ∧ (lineText op words).getLast? = w.getLast? := by
  cases words with
  | nil => exact ⟨op.name, isWord_name op, rfl⟩
  | cons w words =>
    obtain ⟨last, inside, found⟩ : ∃ t ∈ w :: words,
        (Text.joined [',', ' '] (w :: words)).getLast? = t.getLast? :=
      Text.getLast?_joined (by simp) fun x member => (solid x member).ne_nil
    refine ⟨last, solid last inside, ?_⟩
    have ended : last.getLast? ≠ none := by simpa using (solid last inside).ne_nil
    rw [lineText, List.getLast?_append, List.getLast?_cons, found]
    · cases final : last.getLast? with
      | none => exact absurd final ended
      | some c => rfl
    · simp

theorem isLine_lineText (op : Opcode) {words : List Text} (solid : ∀ w ∈ words, IsWord w) :
    IsLine (lineText op words) := by
  have first := head?_lineText op words
  obtain ⟨last, word, found⟩ := getLast?_lineText op solid
  have some : lineText op words ≠ [] := by
    have := word.ne_nil
    rw [← List.getLast?_isSome, found]
    simpa using this
  refine ⟨?_, Text.trim_eq_self (fun c member => (first c member).1) ?_, ?_⟩
  · obtain ⟨c, rest, shown⟩ := List.exists_cons_of_ne_nil some
    have head := (first c (by simp [shown])).2
    simp [isCode, shown, head]
  · rw [found]
    exact fun c member => word.isBlank_eq_false (List.mem_of_getLast? member)
  · have unbroken {w : Text} (word : IsWord w) : '\n' ∉ w := fun member =>
      absurd (word.solid '\n' member) (by decide)
    cases words with
    | nil => exact unbroken (isWord_name op)
    | cons w words =>
      rw [lineText, List.mem_append, List.mem_cons]
      · rintro (member | member | member)
        · exact unbroken (isWord_name op) member
        · exact absurd member (by decide)
        · rcases Text.mem_joined member with member | ⟨t, inside, member⟩
          · exact absurd member (by decide)
          · exact unbroken (solid t inside) member
      · simp

theorem assembleLine_lineText {f : Fields} {op : Opcode} (laid : f.Laid (some op)) (line index : Nat) :
    assembleLine (lineText op (f.words op)) line index =
      pure (instruction op.name (lineText op (f.words op)) line index (some op) (f.filled op)) := by
  have upper : Text.upper op.name = op.name := by cases op <;> decide
  have named : opcode? op.name = some op := by cases op <;> decide
  rw [assembleLine, tokens_lineText fun w => isWord_of_mem_words]
  simp only [upper, named, fields_words laid]
  rfl

theorem assemble_line {t : Text} (line : IsLine t) :
    assemble t = (do return [← assembleLine t 1 0]) := by
  rw [assemble, Text.lines_eq_singleton line.single, assembleLines]
  simp only [line.trimmed]
  rw [if_pos line.code]
  rfl

theorem length_wordBits (op : Opcode) (dest src1 last : Option Int) :
    (wordBits op.bits dest src1 last).length = wordWidth := by
  have width : op.bits.length = opcodeWidth := by cases op <;> rfl
  simp only [wordBits, List.length_append, length_fieldBits, width]
  rfl

theorem fieldBits_filled (value : Option Int) :
    fieldBits fieldWidth (some (value.getD 0)) = fieldBits fieldWidth value := by
  cases value <;> rfl

section
variable {f : Fields} {op : Opcode} (laid : f.Laid (some op))

include laid

theorem Fields.Laid.numbers_filled :
    (f.filled op).immediate = f.immediate ∧ (f.filled op).address = f.address := by
  cases laid with
  | ternary kind => rcases kind with rfl | rfl | rfl | rfl <;> exact ⟨rfl, rfl⟩
  | immediate kind => rcases kind with rfl | rfl <;> exact ⟨rfl, rfl⟩
  | idle kind =>
    obtain rfl : op = .nop := by simpa using kind
    exact ⟨rfl, rfl⟩
  | addi | load | store | brz | jmp => exact ⟨rfl, rfl⟩

theorem Fields.Laid.wordBits_filled (bits : Text) :
    wordBits bits (f.filled op).dest (f.filled op).src1 (f.filled op).last =
      wordBits bits f.dest f.src1 f.last := by
  cases laid with
  | @ternary _ dest src1 src2 kind =>
    have filled : wordBits bits (some (dest.getD 0)) (some (src1.getD 0)) (some (src2.getD 0)) =
        wordBits bits dest src1 src2 := by
      simp only [wordBits, fieldBits_filled]
    have last : Fields.last { dest, src1, src2 } = src2 := by cases src2 <;> rfl
    rw [last, ← filled]
    rcases kind with rfl | rfl | rfl | rfl <;> rfl
  | immediate kind => rcases kind with rfl | rfl <;> rfl
  | idle kind =>
    obtain rfl : op = .nop := by simpa using kind
    rfl
  | addi | load | store | brz | jmp => rfl

end
end Assembly

namespace Instruction.IsAssembled
variable {i : Instruction} (assembled : i.IsAssembled)

include assembled

theorem render_eq {op : Opcode} (known : i.opcode = some op) :
    i.render = .ok (Assembly.lineText op (i.fields.words op)) := by
  rw [Instruction.render, known]
  exact Assembly.render_eq assembled.laid.writable op

theorem render_eq_ok : ∃ text, i.render = .ok text := by
  cases shown : i.opcode with
  | none => exact ⟨i.mnemonic, by simp [Instruction.render, shown]⟩
  | some op => exact ⟨_, assembled.render_eq shown⟩

end Instruction.IsAssembled

open Assembly

/-- What is shown of an instruction is again the source of one instruction: one of the same opcode, with the
same word and the same numbers. Its registers are the same too, except that those which a sum, a difference
or a bitwise operation left unset are now register 0. -/
theorem render_assembled {source : Text} {program : List Instruction}
    (assembled : (assemble source).outcome = .ok program) :
    ∀ i ∈ program, ∀ op, i.opcode = some op →
      ∃ text again, i.render = .ok text ∧ (assemble text).outcome = .ok [again] ∧
        again.opcode = some op ∧ again.binary = i.binary ∧ again.binary.length = wordWidth ∧
        again.immediate = i.immediate ∧ again.address = i.address ∧
        again.fields = i.fields.filled op := by
  intro i member op known
  have solid := isAssembled_of_assemble assembled i member
  have laid : i.fields.Laid (some op) := known ▸ solid.laid
  let text := lineText op (i.fields.words op)
  let again := instruction op.name text 1 0 (some op) (i.fields.filled op)
  have made : (assemble text).outcome = .ok [again] := by
    rw [assemble_line (isLine_lineText op fun w => isWord_of_mem_words), assembleLine_lineText laid]
    rfl
  have word : again.binary = i.binary := by
    rw [solid.binary_eq, known]
    exact laid.wordBits_filled op.bits
  obtain ⟨immediate, address⟩ := laid.numbers_filled
  exact ⟨text, again, solid.render_eq known, made, rfl, word, length_wordBits op _ _ _, immediate, address,
    rfl⟩

theorem render_assembled_unset :
    ∃ (i again : Instruction) (text : Text),
      (assemble "\tand r-٣ ; to register 5".toList).outcome = .ok [i] ∧ i.render = .ok text ∧
        (assemble text).outcome = .ok [again] ∧ again.binary = i.binary ∧
        i.fields = { dest := some 5 } ∧
        again.fields = { dest := some 5, src1 := some 0, src2 := some 0 } := by
  let i := instruction "AND".toList "and r-٣ ; to register 5".toList 1 0 (some .and) { dest := some 5 }
  have made : (assemble "\tand r-٣ ; to register 5".toList).outcome = .ok [i] := by decide +kernel
  obtain ⟨text, again, shown, read, -, word, -, -, -, fields⟩ :=
    render_assembled made i (by simp) .and rfl
  exact ⟨i, again, text, made, shown, read, word, rfl, fields⟩

end StageMachine
