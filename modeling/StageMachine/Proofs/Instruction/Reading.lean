import StageMachine.Proofs.Instruction.Refusal

/-! What a source is assembled to, and which sources are not. Assembly reads the operands of a source
one after another. A malformed or missing one counts as zero; the first one with more digits than are
read ends assembly, and no line of the source is then assembled. -/
namespace StageMachine.Assembly

inductive Role where
  | register | number
  deriving DecidableEq, Repr

structure Operand where
  role : Role
  token : Text
  deriving DecidableEq, Repr

namespace Operand

def text (o : Operand) : Text :=
  match o.role with
  | .register => dropLetter o.token
  | .number => o.token

def parts (o : Operand) : Bool × Text := Numeral.signed (Text.trimStart o.text)

def digits (o : Operand) : List Nat := Numeral.leadingDigits o.parts.2

def number (o : Operand) : Int :=
  if o.parts.1 then -Numeral.digitsValue 10 o.digits else Numeral.digitsValue 10 o.digits

def number? (o : Operand) : Option Int := if o.digits = [] then none else some o.number

def value (o : Operand) : Int :=
  match o.role with
  | .register => o.number % registerCount
  | .number => o.number

def isOverlong (o : Operand) : Bool := Numeral.digitLimit < o.digits.length

theorem number_of_digits_eq_nil {o : Operand} (none : o.digits = []) : o.number = 0 := by
  simp [number, none, Numeral.digitsValue]

theorem value_of_digits_eq_nil {o : Operand} (none : o.digits = []) : o.value = 0 := by
  unfold value
  split <;> simp [number_of_digits_eq_nil none]

end Operand

section
variable {α β : Type}

/-- The outcome where operands are read in turn for a value: the first overlong one is refused. -/
def reading (operands : List Operand) (value : α) : Except Fault α :=
  match operands.find? Operand.isOverlong with
  | none => .ok value
  | some o => .error (.numeralTooLong o.digits.length)

theorem find?_isOverlong_eq_none {operands : List Operand} :
    operands.find? Operand.isOverlong = none ↔ ∀ o ∈ operands, o.isOverlong = false := by
  simp

theorem outcome_bind_reading {r : Report α} {next : α → Report β} {first others : List Operand}
    {value : α} {result : β} (here : r.outcome = reading first value)
    (rest : (next value).outcome = reading others result) :
    (r >>= next).outcome = reading (first ++ others) result := by
  unfold reading at here rest ⊢
  rw [List.find?_append]
  cases found : first.find? Operand.isOverlong with
  | none =>
    rw [found] at here
    rw [Report.bind_of_ok here]
    exact rest
  | some o =>
    rw [found] at here
    rw [Report.bind_of_error here]
    rfl

theorem outcome_map_reading {r : Report α} {change : α → β} {operands : List Operand} {value : α}
    (here : r.outcome = reading operands value) :
    (change <$> r).outcome = reading operands (change value) := by
  have whole : (change <$> r).outcome = reading (operands ++ []) (change value) :=
    outcome_bind_reading here rfl
  simpa using whole

end

theorem leadingInt?_reading (o : Operand) : Numeral.leadingInt? o.text = reading [o] o.number? := by
  have parts : Numeral.signed (Text.trimStart o.text) = (o.parts.1, o.parts.2) := rfl
  unfold Numeral.leadingInt?
  rw [parts, Operand.number?]
  simp only
  split
  · next none =>
    have none : o.digits = [] := none
    simp [reading, Operand.isOverlong, none]
  · next some =>
    have some : o.digits ≠ [] := some
    rw [if_neg some]
    show (Numeral.ofDigits o.parts.1 o.digits).map Option.some = _
    rw [Numeral.ofDigits]
    by_cases long : Numeral.digitLimit < o.digits.length
    · simp [reading, Operand.isOverlong, long, Except.map]
    · simp [reading, Operand.isOverlong, long, Except.map, Operand.number]

theorem register_reading (line : Nat) (token : Text) :
    (register line token).outcome =
      reading [⟨.register, token⟩] (Operand.value ⟨.register, token⟩) := by
  let o : Operand := ⟨.register, token⟩
  have read : (liftM (Numeral.leadingInt? (dropLetter token)) : Report _).outcome =
      reading [o] o.number? := leadingInt?_reading o
  show _ = reading ([o] ++ []) (o.number % registerCount)
  refine outcome_bind_reading read ?_
  by_cases none : o.digits = []
  · rw [Operand.number?, if_pos none, Operand.number_of_digits_eq_nil none]
    rfl
  · rw [Operand.number?, if_neg none]
    show (if o.number % registerCount = o.number then pure o.number else _ : Report Int).outcome = _
    split
    · next same => rw [same]; rfl
    · rfl

theorem number_reading (line : Nat) (token : Text) :
    (number line token).outcome =
      reading [⟨.number, token⟩] (Operand.value ⟨.number, token⟩) := by
  let o : Operand := ⟨.number, token⟩
  have read : (liftM (Numeral.leadingInt? token) : Report _).outcome = reading [o] o.number? :=
    leadingInt?_reading o
  show _ = reading ([o] ++ []) o.number
  refine outcome_bind_reading read ?_
  by_cases none : o.digits = []
  · rw [Operand.number?, if_pos none, Operand.number_of_digits_eq_nil none]
    rfl
  · rw [Operand.number?, if_neg none]
    rfl

def roles : Option Opcode → List Role
  | some .add | some .sub | some .and | some .or => [.register, .register, .register]
  | some .addi => [.register, .register, .number]
  | some .ldi | some .mov | some .brz => [.register, .number]
  | some .load | some .store => [.register, .register]
  | some .jmp => [.register]
  | some .nop | none => []

def valueAt? (role : Role) (tokens : List Text) (place : Nat) : Option Int :=
  tokens[place]?.map fun token => Operand.value ⟨role, token⟩

/-- What the operand at a place stands for, zero where the line ends before. -/
def valueAt (role : Role) (tokens : List Text) (place : Nat) : Int :=
  (valueAt? role tokens place).getD 0

def fieldValues (tokens : List Text) : Option Opcode → Fields
  | some .add | some .sub | some .and | some .or =>
    { dest := valueAt? .register tokens 0, src1 := valueAt? .register tokens 1,
      src2 := valueAt? .register tokens 2 }
  | some .addi =>
    { dest := some (valueAt .register tokens 0), src1 := some (valueAt .register tokens 1),
      immediate := some (valueAt .number tokens 2) }
  | some .ldi | some .mov =>
    { dest := some (valueAt .register tokens 0), immediate := some (valueAt .number tokens 1) }
  | some .load =>
    { dest := some (valueAt .register tokens 0), src1 := some (valueAt .register tokens 1) }
  | some .store =>
    { src1 := some (valueAt .register tokens 0), src2 := some (valueAt .register tokens 1) }
  | some .brz =>
    { src1 := some (valueAt .register tokens 0), address := some (valueAt .number tokens 1) }
  | some .jmp => { src1 := some (valueAt .register tokens 0) }
  | some .nop | none => {}

def operandsFrom (tokens : List Text) (place : Nat) (roles : List Role) : List Operand :=
  List.zipWith Operand.mk roles (tokens.drop place)

section
variable (line : Nat) (tokens : List Text) (place : Nat)

theorem operandsFrom_cons (role : Role) (roles : List Role) :
    operandsFrom tokens place (role :: roles) =
      (tokens[place]?.map (Operand.mk role)).toList ++ operandsFrom tokens (place + 1) roles := by
  unfold operandsFrom
  by_cases inside : place < tokens.length
  · rw [List.drop_eq_getElem_cons inside, List.getElem?_eq_getElem inside]
    rfl
  · have outside : tokens.length ≤ place := Nat.le_of_not_lt inside
    rw [List.drop_eq_nil_of_le outside, List.drop_eq_nil_of_le (Nat.le_succ_of_le outside),
      List.getElem?_eq_none outside]
    simp

theorem registerAt?_reading :
    (registerAt? line tokens place).outcome =
      reading (tokens[place]?.map (Operand.mk .register)).toList (valueAt? .register tokens place) := by
  unfold registerAt? valueAt?
  cases tokens[place]? with
  | none => rfl
  | some token => exact outcome_map_reading (register_reading line token)

theorem registerAt_reading :
    (registerAt line tokens place).outcome =
      reading (tokens[place]?.map (Operand.mk .register)).toList
        (some (valueAt .register tokens place)) := by
  unfold registerAt valueAt valueAt?
  cases tokens[place]? with
  | none => rfl
  | some token => exact outcome_map_reading (register_reading line token)

theorem numberAt_reading :
    (numberAt line tokens place).outcome =
      reading (tokens[place]?.map (Operand.mk .number)).toList
        (some (valueAt .number tokens place)) := by
  unfold numberAt valueAt valueAt?
  cases tokens[place]? with
  | none => rfl
  | some token => exact outcome_map_reading (number_reading line token)

theorem fields_reading (opcode : Option Opcode) :
    (fields line tokens opcode).outcome =
      reading (operandsFrom tokens 0 (roles opcode)) (fieldValues tokens opcode) := by
  have r? := registerAt?_reading line tokens
  have r := registerAt_reading line tokens
  have n := numberAt_reading line tokens
  have ended (place : Nat) : operandsFrom tokens place [] = [] := rfl
  unfold fields
  split <;> simp only [roles, operandsFrom_cons, ended]
  case h_1 | h_2 | h_3 | h_4 =>
    exact outcome_bind_reading (r? 0) (outcome_bind_reading (r? 1) (outcome_bind_reading (r? 2) rfl))
  case h_5 =>
    exact outcome_bind_reading (r 0) (outcome_bind_reading (r 1) (outcome_bind_reading (n 2) rfl))
  case h_6 | h_7 => exact outcome_bind_reading (r 0) (outcome_bind_reading (n 1) rfl)
  case h_8 | h_9 => exact outcome_bind_reading (r 0) (outcome_bind_reading (r 1) rfl)
  case h_10 => exact outcome_bind_reading (r 0) (outcome_bind_reading (n 1) rfl)
  case h_11 => exact outcome_bind_reading (r 0) rfl
  case h_12 | h_13 => rfl

end

/-- The operands that are read of a line. -/
def lineOperands (raw : Text) : List Operand :=
  match tokens raw with
  | [] => []
  | word :: operands => operandsFrom operands 0 (roles (opcode? (Text.upper word)))

def lineInstruction (raw : Text) (line index : Nat) : Instruction :=
  match tokens raw with
  | [] => instruction [] raw line index none {}
  | word :: operands =>
    let mnemonic := Text.upper word
    let opcode := opcode? mnemonic
    instruction mnemonic raw line index opcode (fieldValues operands opcode)

theorem assembleLine_reading (raw : Text) (line index : Nat) :
    (assembleLine raw line index).outcome =
      reading (lineOperands raw) (lineInstruction raw line index) := by
  unfold assembleLine lineOperands lineInstruction
  cases tokens raw with
  | nil => rfl
  | cons word operands =>
    have read := fields_reading line operands (opcode? (Text.upper word))
    simp only
    rw [← List.append_nil (operandsFrom _ _ _)]
    refine outcome_bind_reading read ?_
    -- an unknown mnemonic is remarked on and changes nothing else
    split <;> rfl

def codeLines (line : Nat) (lines : List Text) : List (Text × Nat) :=
  ((lines.map Text.trim).zipIdx line).filter fun item => isCode item.1

theorem codeLines_cons (line : Nat) (text : Text) (rest : List Text) :
    codeLines line (text :: rest) =
      if isCode (Text.trim text) then (Text.trim text, line) :: codeLines (line + 1) rest
      else codeLines (line + 1) rest := by
  simp [codeLines, List.filter_cons]

theorem assembleLines_reading (line index : Nat) (lines : List Text) :
    (assembleLines line index lines).outcome =
      reading ((codeLines line lines).flatMap fun item => lineOperands item.1)
        (((codeLines line lines).zipIdx index).map fun item =>
          lineInstruction item.1.1 item.1.2 item.2) := by
  induction lines generalizing line index with
  | nil => rfl
  | cons text rest ih =>
    rw [assembleLines, codeLines_cons]
    split
    · rw [List.flatMap_cons, List.zipIdx_cons, List.map_cons]
      refine outcome_bind_reading (assembleLine_reading _ line index) ?_
      rw [← List.append_nil (List.flatMap _ _)]
      exact outcome_bind_reading (ih (line + 1) (index + 1)) rfl
    · exact ih (line + 1) index

def operandsRead (source : Text) : List Operand :=
  (codeLines 1 (Text.lines source)).flatMap fun item => lineOperands item.1

/-- One instruction for each line of code, from what its operands stand for. -/
def program (source : Text) : List Instruction :=
  (codeLines 1 (Text.lines source)).zipIdx.map fun item => lineInstruction item.1.1 item.1.2 item.2

/-- A source is assembled, with zero for each malformed operand, unless it has an operand with too many
digits; the first such operand is what the source is refused for. -/
theorem assemble_unless_overlong (source : Text) :
    ((∀ o ∈ operandsRead source, o.isOverlong = false) →
      (assemble source).outcome = .ok (program source)) ∧
    (∀ o, (operandsRead source).find? Operand.isOverlong = some o →
      (assemble source).outcome = .error (.numeralTooLong o.digits.length)) ∧
    ∀ o : Operand, o.digits = [] → o.value = 0 := by
  have read : (assemble source).outcome = reading (operandsRead source) (program source) :=
    assembleLines_reading 1 0 (Text.lines source)
  refine ⟨fun short => ?_, fun o found => ?_, fun o none => Operand.value_of_digits_eq_nil none⟩
  · rw [read, reading, find?_isOverlong_eq_none.2 short]
  · rw [read, reading, found]

theorem assemble_unless_overlong_malformed :
    (let source := "; two lines\n addi Rx, r9, -٣ ; no register x\n\nLDI R1".toList
      let operands : List Operand := [⟨.register, "Rx".toList⟩, ⟨.register, "r9".toList⟩,
        ⟨.number, "-٣".toList⟩, ⟨.register, "R1".toList⟩]
      operandsRead source = operands ∧ (∀ o ∈ operands, o.isOverlong = false) ∧
        (assemble source).outcome = .ok [
          instruction "ADDI".toList "addi Rx, r9, -٣ ; no register x".toList 2 0 (some .addi)
            { dest := some 0, src1 := some 1, immediate := some (-3) },
          instruction "LDI".toList "LDI R1".toList 4 1 (some .ldi)
            { dest := some 1, immediate := some 0 }]) ∧
    (∃ o, (operandsRead (numberLine Numeral.ceiling)).find? Operand.isOverlong = some o ∧
      (assemble (numberLine Numeral.ceiling)).outcome = .error (.numeralTooLong o.digits.length)) ∧
    Operand.digits ⟨.register, "Rx".toList⟩ = [] ∧ Operand.value ⟨.register, "Rx".toList⟩ = 0 := by
  refine ⟨?_, ?_, by decide, (assemble_unless_overlong []).2.2 _ (by decide)⟩
  · intro source operands
    have read : operandsRead source = operands := by rfl
    have short : ∀ o ∈ operands, o.isOverlong = false := by decide
    have made := (assemble_unless_overlong source).1 (read ▸ short)
    refine ⟨read, short, made.trans ?_⟩
    decide +kernel
  · obtain ⟨short, long, -⟩ := assemble_unless_overlong (numberLine Numeral.ceiling)
    cases found : (operandsRead (numberLine Numeral.ceiling)).find? Operand.isOverlong with
    | some o => exact ⟨o, rfl, long o found⟩
    | none =>
      have refused := assemble_of_long (not_isShort_of_le (Nat.le_refl Numeral.ceiling))
      rw [short (find?_isOverlong_eq_none.1 found)] at refused
      cases refused

theorem not_every_source_assembled : ¬ ∀ source, ∃ program, (assemble source).outcome = .ok program := by
  intro total
  obtain ⟨program, made⟩ := total (numberLine Numeral.ceiling)
  have long : ¬ IsShort Numeral.ceiling := not_isShort_of_le (Nat.le_refl _)
  rw [assemble_of_long long] at made
  cases made

end StageMachine.Assembly
