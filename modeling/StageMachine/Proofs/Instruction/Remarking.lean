import StageMachine.Proofs.Instruction.Reading

/-! What assembly says of malformed registers. Each register operand that no number is read of is remarked on, in
the order of reading and with the number of its line, and nothing else is. Where an operand is refused, the ones
before it have been remarked on. -/
namespace StageMachine

def Remark.isMalformedRegister : Remark → Bool
  | malformedRegister _ _ => true
  | _ => false

namespace Assembly

def Operand.malformed? (o : Operand) (line : Nat) : Option Remark :=
  if o.role = .register ∧ o.digits = [] then some (.malformedRegister line o.token) else none

def onLine (line : Nat) (operands : List Operand) : List (Operand × Nat) := operands.map (·, line)

@[simp] theorem fst_onLine (line : Nat) (operands : List Operand) :
    (onLine line operands).map Prod.fst = operands := by
  simp [onLine, Function.comp_def]

/-- What is said of malformed registers among operands. Those behind the first one that is refused are not
looked at. -/
def malformedAmong (operands : List (Operand × Nat)) : List Remark :=
  (operands.takeWhile fun item => !item.1.isOverlong).filterMap fun item => item.1.malformed? item.2

section
variable {operands first others : List (Operand × Nat)}

theorem malformedAmong_of_short (short : ∀ item ∈ operands, item.1.isOverlong = false) :
    malformedAmong operands = operands.filterMap fun item => item.1.malformed? item.2 := by
  have whole : operands.takeWhile (fun item => !item.1.isOverlong) = operands :=
    List.takeWhile_eq_self_iff.2 fun item member => by simp [short item member]
  rw [malformedAmong, whole]

theorem malformedAmong_append_of_short (short : ∀ item ∈ first, item.1.isOverlong = false) :
    malformedAmong (first ++ others) = malformedAmong first ++ malformedAmong others := by
  have whole : (first ++ others).takeWhile (fun item => !item.1.isOverlong) =
      first ++ others.takeWhile fun item => !item.1.isOverlong :=
    List.takeWhile_append_of_pos fun item member => by simp [short item member]
  rw [malformedAmong_of_short short, malformedAmong, whole, List.filterMap_append, malformedAmong]

theorem malformedAmong_append_of_overlong (refused : ∃ item ∈ first, item.1.isOverlong) :
    malformedAmong (first ++ others) = malformedAmong first := by
  obtain ⟨item, member, long⟩ := refused
  have part : (first ++ others).takeWhile (fun item => !item.1.isOverlong) =
      first.takeWhile fun item => !item.1.isOverlong := by
    rw [List.takeWhile_append, if_neg]
    intro all
    have short := List.takeWhile_eq_self_iff.1 (List.takeWhile_sublist _ |>.eq_of_length all) item member
    simp [long] at short
  rw [malformedAmong, part, malformedAmong]

end

section
variable {α β : Type} {r : Report α}

/-- A computation says of malformed registers what is to be said of the operands that it reads. -/
def Tells (r : Report α) (operands : List (Operand × Nat)) : Prop :=
  r.remarks.filter Remark.isMalformedRegister = malformedAmong operands

theorem tells_bind {next : α → Report β} {first others : List (Operand × Nat)} {value : α}
    (here : r.outcome = reading (first.map Prod.fst) value) (told : Tells r first)
    (rest : Tells (next value) others) : Tells (r >>= next) (first ++ others) := by
  unfold Tells at *
  rw [reading] at here
  split at here
  · next none =>
    have short : ∀ item ∈ first, item.1.isOverlong = false := by
      simpa using find?_isOverlong_eq_none.1 none
    rw [Report.bind_of_ok here, List.filter_append, told, rest, malformedAmong_append_of_short short]
  · next o found =>
    have refused : ∃ item ∈ first, item.1.isOverlong := by
      obtain ⟨item, member, rfl⟩ := List.mem_map.1 (List.mem_of_find?_eq_some found)
      exact ⟨item, member, List.find?_some found⟩
    rw [Report.bind_of_error here, malformedAmong_append_of_overlong refused, told]

theorem tells_onLine {next : α → Report β} {first others : List Operand} {value : α} {line : Nat}
    (here : r.outcome = reading first value) (told : Tells r (onLine line first))
    (rest : Tells (next value) (onLine line others)) : Tells (r >>= next) (onLine line (first ++ others)) := by
  rw [onLine, List.map_append]
  exact tells_bind ((fst_onLine line first).symm ▸ here) told rest

theorem tells_map {change : α → β} {operands : List (Operand × Nat)} (told : Tells r operands) :
    Tells (change <$> r) operands := by
  show Tells (r >>= fun value => pure (change value)) operands
  unfold Tells at *
  cases made : r.outcome with
  | ok value => rw [Report.bind_of_ok made, Report.remarks_pure, List.append_nil, told]
  | error fault => rw [Report.bind_of_error made, told]

end

theorem tells_leadingInt? {α : Type} {o : Operand} {line : Nat} {next : Option Int → Report α}
    (told : (next o.number?).remarks.filter Remark.isMalformedRegister = (o.malformed? line).toList) :
    Tells ((liftM (Numeral.leadingInt? o.text) : Report _) >>= next) [(o, line)] := by
  have read : (liftM (Numeral.leadingInt? o.text) : Report _).outcome = reading [o] o.number? :=
    leadingInt?_reading o
  unfold Tells
  cases long : o.isOverlong with
  | true =>
    rw [reading, List.find?_cons_of_pos long] at read
    rw [Report.bind_of_error read, malformedAmong, List.takeWhile_cons_of_neg (by simp [long])]
    rfl
  | false =>
    rw [reading, List.find?_cons_of_neg (by simp [long]), List.find?_nil] at read
    have single : [(o, line)].filterMap (fun item => item.1.malformed? item.2) =
        (o.malformed? line).toList := by
      cases found : o.malformed? line <;> simp [found]
    rw [Report.bind_of_ok read, malformedAmong_of_short (by simpa using long), List.filter_append, told,
      single]
    rfl

section
variable (line : Nat) (token : Text)

theorem tells_register : Tells (register line token) [(⟨.register, token⟩, line)] := by
  refine @tells_leadingInt? _ ⟨.register, token⟩ line _ ?_
  by_cases none : Operand.digits ⟨.register, token⟩ = []
  · simp only [Operand.number?, Operand.malformed?, none, and_self, if_true]
    rfl
  · simp only [Operand.number?, Operand.malformed?, none, and_false, if_false]
    split <;> rfl

theorem tells_number : Tells (number line token) [(⟨.number, token⟩, line)] := by
  refine @tells_leadingInt? _ ⟨.number, token⟩ line _ ?_
  by_cases none : Operand.digits ⟨.number, token⟩ = []
  · simp only [Operand.number?, Operand.malformed?, none, if_true]
    rfl
  · simp only [Operand.number?, Operand.malformed?, none, if_false]
    rfl

end

section
variable {line : Nat} {tokens : List Text} {place : Nat} {α : Type} {next : Option Int → Report α}
  {others : List Operand}

theorem tells_registerAt? (rest : Tells (next (valueAt? .register tokens place)) (onLine line others)) :
    Tells (registerAt? line tokens place >>= next)
      (onLine line ((tokens[place]?.map (Operand.mk .register)).toList ++ others)) := by
  refine tells_onLine (registerAt?_reading line tokens place) ?_ rest
  unfold registerAt?
  cases tokens[place]? with
  | none => rfl
  | some token => exact tells_map (tells_register line token)

theorem tells_registerAt (rest : Tells (next (some (valueAt .register tokens place))) (onLine line others)) :
    Tells (registerAt line tokens place >>= next)
      (onLine line ((tokens[place]?.map (Operand.mk .register)).toList ++ others)) := by
  refine tells_onLine (registerAt_reading line tokens place) ?_ rest
  unfold registerAt
  cases tokens[place]? with
  | none => rfl
  | some token => exact tells_map (tells_register line token)

theorem tells_numberAt (rest : Tells (next (some (valueAt .number tokens place))) (onLine line others)) :
    Tells (numberAt line tokens place >>= next)
      (onLine line ((tokens[place]?.map (Operand.mk .number)).toList ++ others)) := by
  refine tells_onLine (numberAt_reading line tokens place) ?_ rest
  unfold numberAt
  cases tokens[place]? with
  | none => rfl
  | some token => exact tells_map (tells_number line token)

end

theorem tells_fields (line : Nat) (tokens : List Text) (opcode : Option Opcode) :
    Tells (fields line tokens opcode) (onLine line (operandsFrom tokens 0 (roles opcode))) := by
  have ended (place : Nat) : operandsFrom tokens place [] = [] := rfl
  unfold fields
  split <;> simp only [roles, operandsFrom_cons, ended]
  case h_1 | h_2 | h_3 | h_4 =>
    exact tells_registerAt? (tells_registerAt? (tells_registerAt? rfl))
  case h_5 => exact tells_registerAt (tells_registerAt (tells_numberAt rfl))
  case h_6 | h_7 => exact tells_registerAt (tells_numberAt rfl)
  case h_8 | h_9 => exact tells_registerAt (tells_registerAt rfl)
  case h_10 => exact tells_registerAt (tells_numberAt rfl)
  case h_11 => exact tells_registerAt rfl
  case h_12 | h_13 => rfl

theorem tells_assembleLine (raw : Text) (line index : Nat) :
    Tells (assembleLine raw line index) (onLine line (lineOperands raw)) := by
  unfold assembleLine lineOperands
  cases tokens raw with
  | nil => rfl
  | cons word operands =>
    have told := tells_fields line operands (opcode? (Text.upper word))
    simp only
    rw [← List.append_nil (operandsFrom _ _ _)]
    refine tells_onLine (fields_reading line operands _) told ?_
    -- the remark on an unknown mnemonic is of another kind
    split <;> rfl

def operandsOn (lines : List (Text × Nat)) : List (Operand × Nat) :=
  lines.flatMap fun item => onLine item.2 (lineOperands item.1)

theorem tells_assembleLines (line index : Nat) (lines : List Text) :
    Tells (assembleLines line index lines) (operandsOn (codeLines line lines)) := by
  induction lines generalizing line index with
  | nil => rfl
  | cons text rest ih =>
    rw [assembleLines, codeLines_cons]
    split
    · have read := assembleLine_reading (Text.trim text) line index
      rw [← fst_onLine line (lineOperands _)] at read
      rw [operandsOn, List.flatMap_cons]
      exact tells_bind read (tells_assembleLine _ line index) (tells_map (ih (line + 1) (index + 1)))
    · exact ih (line + 1) index

theorem malformedRegisters_assemble (source : Text) :
    (assemble source).remarks.filter Remark.isMalformedRegister =
      malformedAmong (operandsOn (codeLines 1 (Text.lines source))) :=
  tells_assembleLines 1 0 (Text.lines source)

theorem fst_operandsOn (lines : List (Text × Nat)) :
    (operandsOn lines).map Prod.fst = lines.flatMap fun item => lineOperands item.1 := by
  simp [operandsOn, List.map_flatMap]

/-- Where no operand is refused, a token is remarked on just where it is an operand that no number is read of. -/
theorem malformedRegister_mem_iff {source : Text} (short : ∀ o ∈ operandsRead source, o.isOverlong = false)
    {line : Nat} {token : Text} :
    .malformedRegister line token ∈ (assemble source).remarks ↔
      (⟨.register, token⟩, line) ∈ operandsOn (codeLines 1 (Text.lines source)) ∧
        Operand.digits ⟨.register, token⟩ = [] := by
  have short : ∀ item ∈ operandsOn (codeLines 1 (Text.lines source)), item.1.isOverlong = false := by
    rw [operandsRead, ← fst_operandsOn] at short
    exact fun item member => short item.1 (List.mem_map_of_mem member)
  have kept : .malformedRegister line token ∈ (assemble source).remarks ↔
      .malformedRegister line token ∈ (assemble source).remarks.filter Remark.isMalformedRegister := by
    simp [Remark.isMalformedRegister]
  rw [kept, malformedRegisters_assemble, malformedAmong_of_short short, List.mem_filterMap]
  constructor
  · rintro ⟨⟨⟨role, other⟩, number⟩, member, said⟩
    unfold Operand.malformed? at said
    split at said
    · next unread =>
      cases said
      obtain ⟨rfl, unread⟩ := unread
      exact ⟨member, unread⟩
    · cases said
  · rintro ⟨member, unread⟩
    exact ⟨_, member, if_pos ⟨rfl, unread⟩⟩

end Assembly
end StageMachine
