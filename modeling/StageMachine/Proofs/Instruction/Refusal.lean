import StageMachine.Proofs.Instruction.Rendering

/-! What assembly refuses. Malformed operands count as zero, but a number that is too long to be written
is not read either, and a source that holds one is not assembled. -/
namespace StageMachine.Assembly

def numberLine (v : Int) : Text := lineText .ldi [registerWord (some 1), numberWord (some v)]

theorem numberLine_ne_nil (v : Int) : numberLine v ≠ [] := by
  simp [numberLine, lineText]

def tooLong (v : Int) : Fault := .numeralTooLong (Nat.toDigits 10 v.natAbs).length

theorem not_isShort_of_le {n : Nat} (large : Numeral.ceiling ≤ n) : ¬ IsShort n :=
  Nat.not_lt.2 large

variable {v : Int} (long : ¬ IsShort v)

include long in
theorem numberAt_of_long {line place : Nat} {operands : List Text}
    (found : operands[place]? = some (numberWord (some v))) :
    (numberAt line operands place).outcome = .error (tooLong v) := by
  have read : Numeral.leadingInt? (numberWord (some v)) = .error (tooLong v) :=
    Numeral.leadingInt?_plain_of_long (Nat.not_lt.1 long)
  simp only [numberAt, found, number, read]
  rfl

include long in
theorem fields_of_long (line : Nat) :
    (fields line [registerWord (some 1), numberWord (some v)] (some .ldi)).outcome =
      .error (tooLong v) := by
  have known : ∀ i ∈ some (1 : Int), IsRegister i := by
    rintro i ⟨⟩
    exact ⟨by decide, by decide⟩
  have refused : (numberAt line [registerWord (some 1), numberWord (some v)] 1).outcome =
      .error (tooLong v) := numberAt_of_long long rfl
  rw [fields, registerAt_words rfl known]
  exact congrArg Report.outcome (Report.bind_of_error refused _)

theorem isWord_of_mem_numberLine {word : Text}
    (member : word ∈ [registerWord (some 1), numberWord (some v)]) : IsWord word := by
  rcases List.mem_pair.1 member with rfl | rfl
  · exact isWord_registerWord _
  · exact isWord_plain _

include long in
theorem assembleLine_of_long (line index : Nat) :
    (assembleLine (numberLine v) line index).outcome = .error (tooLong v) := by
  have upper : Text.upper Opcode.ldi.name = Opcode.ldi.name := by decide
  have named : opcode? Opcode.ldi.name = some .ldi := by decide
  rw [assembleLine, numberLine, tokens_lineText fun w => isWord_of_mem_numberLine]
  simp only [upper, named]
  exact congrArg Report.outcome (Report.bind_of_error (fields_of_long long line) _)

include long in
theorem assemble_of_long : (assemble (numberLine v)).outcome = .error (tooLong v) := by
  have line : IsLine (numberLine v) := isLine_lineText .ldi fun w => isWord_of_mem_numberLine
  rw [assemble_line line]
  exact congrArg Report.outcome (Report.bind_of_error (assembleLine_of_long long 1 0) _)

end StageMachine.Assembly
