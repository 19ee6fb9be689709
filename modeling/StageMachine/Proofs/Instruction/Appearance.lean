import StageMachine.Proofs.Instruction.Joining
import StageMachine.Proofs.Text.Capitals
import StageMachine.Proofs.Text.LineEnds

/-! What assembly does not see of a source: comments behind a line, what it is that separates two tokens, the
case of letters, and carriage returns at the ends of lines. A line is assembled by its tokens in capitals, and
no edit of its appearance changes those. -/
namespace StageMachine

def Instruction.SameButRaw (i j : Instruction) : Prop := j = { i with raw := j.raw }

namespace Assembly
open Text

structure IsGap (gap : Text) : Prop where
  ne_nil : gap ≠ []
  separators : ∀ c ∈ gap, isSeparator c

/-- A line, and the same line with another appearance. -/
inductive Edited : Text → Text → Prop where
  /-- A line that is not blank gets a comment. -/
  | remark {line : Text} (visible : trim line ≠ []) (words : Text) : Edited line (line ++ ';' :: words)
  /-- Behind a token and before any comment, a gap takes the place of another. -/
  | gap {before first second after : Text} (spoken : ';' ∉ before)
      (word : ∃ c ∈ before, isSeparator c = false) (one : IsGap first) (two : IsGap second) :
      Edited (before ++ first ++ after) (before ++ second ++ after)
  /-- ASCII letters change their case. -/
  | letters {line other : Text} (same : capitals line = capitals other) : Edited line other
  | trans {line between other : Text} (first : Edited line between) (second : Edited between other) :
      Edited line other

/-- Two lines that are both code or both not, with the same tokens up to the case of letters. -/
structure LineAlike (line other : Text) : Prop where
  code : isCode (trim other) = isCode (trim line)
  tokens_eq : (tokens other).map capitals = (tokens line).map capitals

theorem tokens_between {before gap : Text} (spoken : ';' ∉ before) (separating : IsGap gap) (after : Text) :
    tokens (before ++ gap ++ after) = tokens before ++ tokens after := by
  obtain ⟨some, separators⟩ := separating
  obtain ⟨c, rest, rfl⟩ := List.exists_cons_of_ne_nil some
  rw [List.append_assoc, List.cons_append, tokens_append spoken (separators c (by simp)),
    tokens_gap fun d member => separators d (by simp [member])]

theorem isCode_trim_append {line : Text} (visible : ∃ c ∈ line, isBlank c = false) (after : Text) :
    isCode (trim (line ++ after)) = isCode (trim line) := by
  obtain ⟨c, member, solid⟩ := visible
  have found : (line.find? (!isBlank ·)).isSome := List.find?_isSome.2 ⟨c, member, by simp [solid]⟩
  rw [isCode_trim, isCode_trim, List.find?_append, Option.or_of_isSome found]

theorem exists_solid_of_trim {line : Text} (visible : trim line ≠ []) : ∃ c ∈ line, isBlank c = false := by
  obtain ⟨c, rest, shown⟩ := List.exists_cons_of_ne_nil visible
  have found : line.find? (!isBlank ·) = some c := by rw [← head?_trim, shown]; rfl
  exact ⟨c, List.mem_of_find?_eq_some found, by simpa using List.find?_some found⟩

theorem isCode_trim_capitals (line : Text) : isCode (trim (capitals line)) = isCode (trim line) := by
  rw [isCode_trim, isCode_trim, find?_solid_capitals, Option.any_map]
  exact congrArg (Option.any · _) (funext ne_semicolon_toUpper)

theorem Edited.lineAlike {line other : Text} (edited : Edited line other) : LineAlike line other := by
  induction edited with
  | @remark line visible words =>
    exact ⟨isCode_trim_append (exists_solid_of_trim visible) _, by rw [tokens_remark]⟩
  | @gap before first second after spoken word one two =>
    obtain ⟨c, member, inside⟩ := word
    have solid : ∃ c ∈ before, isBlank c = false := by
      simp only [isSeparator, Bool.or_eq_false_iff] at inside
      exact ⟨c, member, inside.1⟩
    refine ⟨?_, by rw [tokens_between spoken one, tokens_between spoken two]⟩
    rw [List.append_assoc, List.append_assoc, isCode_trim_append solid, isCode_trim_append solid]
  | @letters line other same =>
    refine ⟨?_, by rw [← tokens_capitals, ← tokens_capitals, same]⟩
    rw [← isCode_trim_capitals, ← same, isCode_trim_capitals]
  | trans _ _ ih ih' => exact ⟨ih'.code.trans ih.code, ih'.tokens_eq.trans ih.tokens_eq⟩

namespace Operand

def capital (o : Operand) : Operand := { o with token := capitals o.token }

variable (o : Operand)

theorem text_capital : o.capital.text = capitals o.text := by
  obtain ⟨role, token⟩ := o
  cases role with
  | register => exact dropLetter_capitals token
  | number => rfl

theorem parts_capital : o.capital.parts = o.parts.map id capitals := by
  rw [parts, text_capital, trimStart_capitals, Numeral.signed_capitals, parts]

@[simp] theorem digits_capital : o.capital.digits = o.digits := by
  rw [digits, parts_capital]
  exact Numeral.leadingDigits_capitals _

@[simp] theorem value_capital : o.capital.value = o.value := by
  have number : o.capital.number = o.number := by
    rw [number, digits_capital, parts_capital, number]
    rfl
  unfold value
  rw [number]
  rfl

@[simp] theorem isOverlong_capital : o.capital.isOverlong = o.isOverlong := by
  rw [isOverlong, digits_capital, isOverlong]

end Operand

section
variable (words : List Text)

theorem valueAt?_capitals (role : Role) (place : Nat) :
    valueAt? role (words.map capitals) place = valueAt? role words place := by
  rw [valueAt?, valueAt?, List.getElem?_map, Option.map_map]
  exact congrArg (Option.map · _) (funext fun token => Operand.value_capital ⟨role, token⟩)

theorem fieldValues_capitals (opcode : Option Opcode) :
    fieldValues (words.map capitals) opcode = fieldValues words opcode := by
  unfold fieldValues
  split <;> simp only [valueAt, valueAt?_capitals]

theorem operandsFrom_capitals (place : Nat) (roles : List Role) :
    operandsFrom (words.map capitals) place roles =
      (operandsFrom words place roles).map Operand.capital := by
  rw [operandsFrom, operandsFrom, ← List.map_drop, List.zipWith_map_right, List.map_zipWith]
  rfl

end

section
variable {line other : Text} (same : (tokens other).map capitals = (tokens line).map capitals)

include same

theorem tokens_cases : tokens line = [] ∧ tokens other = [] ∨
    ∃ word operands word' operands', tokens line = word :: operands ∧ tokens other = word' :: operands' ∧
      upper word' = upper word ∧ operands'.map capitals = operands.map capitals := by
  cases first : tokens line with
  | nil =>
    rw [first, List.map_nil, List.map_eq_nil_iff] at same
    exact .inl ⟨rfl, same⟩
  | cons word operands =>
    rw [first, List.map_cons] at same
    obtain ⟨word', operands', second, head, tail⟩ := List.map_eq_cons_iff.1 same
    have mnemonic : upper word' = upper word := by rw [← upper_capitals, head, upper_capitals]
    exact .inr ⟨word, operands, word', operands', rfl, second, mnemonic, tail⟩

theorem lineInstruction_capitals (number index : Nat) :
    lineInstruction other number index = { lineInstruction line number index with raw := other } := by
  unfold lineInstruction
  rcases tokens_cases same with
    ⟨first, second⟩ | ⟨word, operands, word', operands', first, second, mnemonic, tail⟩
  · rw [first, second]
    rfl
  · have fields (opcode : Option Opcode) : fieldValues operands' opcode = fieldValues operands opcode := by
      rw [← fieldValues_capitals, tail, fieldValues_capitals]
    rw [first, second]
    simp only [mnemonic, fields]
    rfl

theorem lineOperands_capitals :
    (lineOperands other).map Operand.capital = (lineOperands line).map Operand.capital := by
  unfold lineOperands
  rcases tokens_cases same with
    ⟨first, second⟩ | ⟨word, operands, word', operands', first, second, mnemonic, tail⟩
  · rw [first, second]
  · rw [first, second]
    simp only [mnemonic, ← operandsFrom_capitals, tail]

theorem isOverlong_of_mem_lineOperands (short : ∀ o ∈ lineOperands line, o.isOverlong = false) :
    ∀ o ∈ lineOperands other, o.isOverlong = false := by
  intro o member
  have capital : o.capital ∈ (lineOperands line).map Operand.capital :=
    lineOperands_capitals same ▸ List.mem_map_of_mem member
  obtain ⟨p, inside, equal⟩ := List.mem_map.1 capital
  rw [← o.isOverlong_capital, ← equal, p.isOverlong_capital]
  exact short p inside

end

theorem LineAlike.assembleLine_eq {line other : Text} (alike : LineAlike line other) {number index : Nat}
    {i : Instruction} (made : (assembleLine (trim line) number index).outcome = .ok i) :
    (assembleLine (trim other) number index).outcome = .ok { i with raw := trim other } := by
  have same : (tokens (trim other)).map capitals = (tokens (trim line)).map capitals := by
    rw [tokens_trim, tokens_trim, alike.tokens_eq]
  rw [assembleLine_reading, reading_eq_ok] at made
  obtain ⟨short, rfl⟩ := made
  rw [assembleLine_reading, reading_eq_ok]
  exact ⟨isOverlong_of_mem_lineOperands same short, lineInstruction_capitals same number index⟩

theorem assembleLines_alike {lines others : List Text} (alike : List.Forall₂ LineAlike lines others)
    {number index : Nat} {made : List Instruction}
    (assembled : (assembleLines number index lines).outcome = .ok made) :
    ∃ again, (assembleLines number index others).outcome = .ok again ∧
      List.Forall₂ Instruction.SameButRaw made again := by
  induction alike generalizing number index made with
  | nil =>
    cases assembled
    exact ⟨[], rfl, .nil⟩
  | @cons line other lines others here _ ih =>
    rw [assembleLines] at assembled
    rw [assembleLines, here.code]
    split at assembled
    · next code =>
      rw [if_pos code]
      obtain ⟨first, head, rest⟩ := Report.outcome_bind_eq_ok.1 assembled
      obtain ⟨tail, more, whole⟩ := Report.outcome_bind_eq_ok.1 rest
      cases whole
      obtain ⟨again, after, same⟩ := ih more
      refine ⟨{ first with raw := trim other } :: again, ?_, .cons rfl same⟩
      refine Report.outcome_bind_eq_ok.2 ⟨_, here.assembleLine_eq head, ?_⟩
      exact Report.outcome_bind_eq_ok.2 ⟨again, after, rfl⟩
    · next plain =>
      rw [if_neg plain]
      exact ih assembled

theorem assembleLines_congr {lines others : List Text} (same : others.map trim = lines.map trim)
    (number index : Nat) : assembleLines number index others = assembleLines number index lines := by
  induction lines generalizing others number index with
  | nil => rw [List.map_eq_nil_iff.1 same]
  | cons line lines ih =>
    obtain ⟨other, others, rfl, head, tail⟩ := List.map_eq_cons_iff.1 same
    rw [assembleLines, assembleLines, head]
    simp only [ih tail]

theorem assemble_returned {source other : Text}
    (returned : List.Forall₂ Returned (Text.lines source) (Text.lines other)) :
    assemble other = assemble source :=
  assembleLines_congr (trim_lines returned) 1 0

/-- The appearance of a source does not matter. Edits of its lines, any number of them, leave each instruction
as it is but for the text of its line; and with a carriage return before every line feed not even that
changes. -/
theorem assemble_edited {source : Text} {made : List Instruction}
    (assembled : (assemble source).outcome = .ok made) :
    (∀ other, List.Forall₂ Edited (Text.lines source) (Text.lines other) →
      ∃ again, (assemble other).outcome = .ok again ∧
        List.Forall₂ Instruction.SameButRaw made again) ∧
    (assemble (withReturns source)).outcome = .ok made := by
  refine ⟨fun other edited => ?_, ?_⟩
  · exact assembleLines_alike (edited.imp fun _ _ => Edited.lineAlike) assembled
  · rw [assemble_returned (lines_withReturns source), assembled]

theorem assemble_edited_operands :
    let source := "ld r1, R12\n\n, ; a slot".toList
    let other := "LD R1 ,,\tR12;load\n\n, ; a slot;".toList
    ∃ made again, (assemble source).outcome = .ok made ∧ (assemble other).outcome = .ok again ∧
      List.Forall₂ Instruction.SameButRaw made again ∧ made.length = 2 ∧
      (assemble (withReturns source)).outcome = .ok made := by
  intro source other
  let made := [
    instruction "LD".toList "ld r1, R12".toList 1 0 (some .load) { dest := some 1, src1 := some 4 },
    instruction [] ", ; a slot".toList 3 1 none {}]
  have assembled : (assemble source).outcome = .ok made := by rfl
  have capital : Edited "ld r1, R12".toList "LD R1, R12".toList := .letters (by decide)
  have comma : IsGap ", ".toList := ⟨by decide, List.all_eq_true.1 rfl⟩
  have commas : IsGap " ,,\t".toList := ⟨by decide, List.all_eq_true.1 rfl⟩
  have wider : Edited ("LD R1".toList ++ ", ".toList ++ "R12".toList)
      ("LD R1".toList ++ " ,,\t".toList ++ "R12".toList) :=
    .gap (by decide) ⟨'L', by decide, by decide⟩ comma commas
  have edited : List.Forall₂ Edited (Text.lines source) (Text.lines other) :=
    .cons ((capital.trans wider).trans (.remark (by decide) "load".toList))
      (.cons (.letters rfl) (.cons (.remark (by decide) []) .nil))
  obtain ⟨edits, returns⟩ := assemble_edited assembled
  obtain ⟨again, read, same⟩ := edits other edited
  exact ⟨made, again, assembled, read, same, rfl, returns⟩

end Assembly
end StageMachine
