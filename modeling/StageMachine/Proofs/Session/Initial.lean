import StageMachine.Proofs.Action
import StageMachine.Proofs.Numeral.Reading
import StageMachine.Settings.Build

/-! The initial state put in. Program counter, registers and memory become what is given, where the last of
several values for one place counts, and everything else stays. Only a name that looks like that of a register
and has no number stops it, after the registers before it and before the memory. -/
namespace StageMachine

theorem Memory.get?_update (m : Memory) (cells : List (Int × Int)) (address : Int) :
    (m.update cells).get? address = (cells.reverse.lookup address).or (m.get? address) := by
  induction cells generalizing m with
  | nil => rfl
  | cons cell rest ih =>
    have first : (m.update (cell :: rest)).get? address = _ := ih (m.write cell.1 cell.2)
    rw [first, get?_write, List.reverse_cons, List.lookup_append, Option.or_assoc, lookup_cell_cons]
    split <;> rfl

namespace Session
open Numeral (digitsValue leadingDigits digitLimit)

variable {s : Session} {name : RawText} {value : Int} {given : List (RawText × Int)}

def registerPlace? (name : RawText) : Option Nat :=
  match name.toText? with
  | some ('R' :: digits) =>
    if !digits.isEmpty && digits.all Text.isDecimal then some (digitsValue 10 (leadingDigits digits)) else none
  | _ => none

/-- The name looks like that of a register, but its digits are not decimal, or too many to be read. -/
def Slips (name : RawText) : Prop :=
  ∃ digits, name.toText? = some ('R' :: digits) ∧ digits ≠ [] ∧ (∀ c ∈ digits, Text.isDigitForm c) ∧
    ((∃ c ∈ digits, ¬ Text.isDecimal c) ∨ digitLimit < digits.length)

theorem initialRegister?_of_other
    (other : ∀ digits, name.toText? = some ('R' :: digits) → ¬ (digits ≠ [] ∧ ∀ c ∈ digits, Text.isDigitForm c)) :
    initialRegister? name = .ok none ∧ registerPlace? name = none := by
  constructor
  · unfold initialRegister?
    split
    · next digits shown => exact if_neg (by simpa using other digits shown)
    · rfl
  · unfold registerPlace?
    split
    · next digits shown =>
      have undecimal : ¬ (digits ≠ [] ∧ ∀ c ∈ digits, Text.isDecimal c) := fun decimal =>
        other digits shown ⟨decimal.1, fun c member => Text.isDigitForm_of_isDecimal (decimal.2 c member)⟩
      exact if_neg (by simpa using undecimal)
    · rfl

theorem initialRegister?_eq {digits : Text} (shown : name.toText? = some ('R' :: digits)) (begun : digits ≠ [])
    (forms : ∀ c ∈ digits, Text.isDigitForm c) :
    initialRegister? name = (Numeral.read .decimal digits).map some := by
  unfold initialRegister?
  rw [shown]
  exact if_pos (by simpa using ⟨begun, forms⟩)

theorem initialRegister?_of_readable (readable : ¬ Slips name) :
    initialRegister? name = .ok ((registerPlace? name).map Int.ofNat) := by
  by_cases formed : ∃ digits, name.toText? = some ('R' :: digits) ∧ digits ≠ [] ∧
      ∀ c ∈ digits, Text.isDigitForm c
  · obtain ⟨digits, shown, begun, forms⟩ := formed
    have decimal : ∀ c ∈ digits, Text.isDecimal c := fun c member => by
      by_contra other
      exact readable ⟨digits, shown, begun, forms, .inl ⟨c, member, other⟩⟩
    have few : ¬ digitLimit < digits.length := fun many => readable ⟨digits, shown, begun, forms, .inr many⟩
    have number : registerPlace? name = some (digitsValue 10 (leadingDigits digits)) := by
      unfold registerPlace?
      rw [shown]
      exact if_pos (by simpa using ⟨begun, decimal⟩)
    rw [initialRegister?_eq shown begun forms, number, Numeral.read_of_isDigitForm begun forms,
      Numeral.length_leadingDigits decimal, if_neg few, if_pos (List.all_eq_true.2 decimal)]
    rfl
  · obtain ⟨read, number⟩ := initialRegister?_of_other fun digits shown form => formed ⟨digits, shown, form⟩
    rw [read, number]
    rfl

theorem initialRegister?_of_slips (slips : Slips name) : ∃ fault, initialRegister? name = .error fault ∧
    ∃ digits, name.toText? = some ('R' :: digits) ∧
      (fault = .notNumeral 10 (Text.raw digits) ∨ fault = .numeralTooLong (leadingDigits digits).length) := by
  obtain ⟨digits, shown, begun, forms, wrong⟩ := slips
  rw [initialRegister?_eq shown begun forms, Numeral.read_of_isDigitForm begun forms]
  split
  · exact ⟨_, rfl, digits, shown, .inr rfl⟩
  · next few =>
    have undecimal : ¬ digits.all Text.isDecimal = true := fun all => by
      have decimal := List.all_eq_true.1 all
      rcases wrong with ⟨c, member, other⟩ | many
      · exact other (decimal c member)
      · exact few (Numeral.length_leadingDigits decimal ▸ many)
    rw [if_neg undecimal]
    exact ⟨_, rfl, digits, shown, .inl rfl⟩

theorem not_slips_of_isSome (read : (initialRegister? name).toOption.isSome = true) : ¬ Slips name := fun slips => by
  obtain ⟨fault, refused, -⟩ := initialRegister?_of_slips slips
  rw [refused] at read
  cases read

/-- The value that is given last for a register. -/
def lastGiven? (given : List (RawText × Int)) (place : Nat) : Option Int :=
  (given.reverse.find? fun r => registerPlace? r.1 = some place).map Prod.snd

def strange (size : Nat) (given : List (RawText × Int)) : List RawText :=
  (given.map Prod.fst).filter fun name => !(registerPlace? name).any (· < size)

def putRegister (registers : List Int) (r : RawText × Int) : List Int :=
  match registerPlace? r.1 with
  | some place => registers.set place r.2
  | none => registers

def putRegisters (given : List (RawText × Int)) (registers : List Int) : List Int :=
  given.foldl putRegister registers

@[simp] theorem length_putRegister (registers : List Int) (r : RawText × Int) :
    (putRegister registers r).length = registers.length := by
  unfold putRegister
  split <;> simp

theorem getElem?_putRegister (registers : List Int) (r : RawText × Int) (place : Nat) :
    (putRegister registers r)[place]? =
      if registerPlace? r.1 = some place then registers[place]?.map fun _ => r.2 else registers[place]? := by
  unfold putRegister
  split
  · next other named =>
    by_cases same : other = place
    · obtain rfl := same
      rw [if_pos named, List.getElem?_set_self']
      rfl
    · rw [if_neg (by simp [named, same]), List.getElem?_set_ne same]
  · next unnamed => simp [unnamed]

theorem getElem?_putRegisters (registers : List Int) (place : Nat) :
    (putRegisters given registers)[place]? =
      registers[place]?.map fun old => (lastGiven? given place).getD old := by
  induction given generalizing registers with
  | nil => simp [putRegisters, lastGiven?]
  | cons r rest ih =>
    have first : (putRegisters (r :: rest) registers)[place]? = _ := ih (putRegister registers r)
    rw [first, getElem?_putRegister]
    unfold lastGiven?
    rw [List.reverse_cons, List.find?_append]
    cases rest.reverse.find? fun r => registerPlace? r.1 = some place with
    | some later => split <;> simp [Function.comp_def]
    | none => split <;> simp [*, Function.comp_def]

theorem strange_cons (size : Nat) (r : RawText × Int) (rest : List (RawText × Int)) :
    strange size (r :: rest) = strange size [r] ++ strange size rest := by
  simp [strange, List.filter_cons]
  split <;> rfl

def withRegisters (s : Session) (registers : List Int) (names : List RawText) : Session :=
  { s with
    engine := { s.engine with state := { s.engine.state with registers } }
    journal := (names.map Remark.unknownRegister).reverse ++ s.journal }

@[simp] theorem registers_withRegisters (s : Session) (registers : List Int) (names : List RawText) :
    (s.withRegisters registers names).engine.state.registers = registers := rfl

theorem withRegisters_withRegisters (s : Session) (first second : List Int) (names others : List RawText) :
    (s.withRegisters first names).withRegisters second others = s.withRegisters second (names ++ others) := by
  simp [withRegisters]

theorem applyRegister_of_readable (readable : ¬ Slips name) (value : Int) (s : Session) :
    applyRegister name value s = .ok () (s.withRegisters
      (putRegister s.engine.state.registers (name, value))
      (strange s.engine.state.registers.length [(name, value)])) := by
  simp only [applyRegister, Act.bind_apply, Act.get_apply, initialRegister?_of_readable readable, Act.ofExcept_ok]
  cases named : registerPlace? name with
  | none => simp [withRegisters, putRegister, strange, named, note]
  | some place =>
    by_cases inside : place < s.engine.state.registers.length
    · simp [withRegisters, putRegister, strange, named, inside, modifyState]
    · have kept := List.set_eq_of_length_le (a := value) (Nat.le_of_not_lt inside)
      simp [withRegisters, putRegister, strange, named, inside, note, kept]

theorem applyRegisters_append {before : List (RawText × Int)} (readable : ∀ r ∈ before, ¬ Slips r.1)
    (after : List (RawText × Int)) (s : Session) :
    applyRegisters (before ++ after) s =
      applyRegisters after (s.withRegisters (putRegisters before s.engine.state.registers)
        (strange s.engine.state.registers.length before)) := by
  induction before generalizing s with
  | nil => rfl
  | cons r rest ih =>
    have first := applyRegister_of_readable (readable r (by simp)) r.2 s
    have others (t : Session) := ih (fun x member => readable x (by simp [member])) t
    rw [List.cons_append, applyRegisters, Act.bind_apply, first]
    simp only [others, registers_withRegisters, length_putRegister, withRegisters_withRegisters, ← strange_cons]
    rfl

theorem applyRegisters_of_readable (readable : ∀ r ∈ given, ¬ Slips r.1) :
    applyRegisters given s = .ok () (s.withRegisters (putRegisters given s.engine.state.registers)
      (strange s.engine.state.registers.length given)) := by
  have whole := applyRegisters_append readable [] s
  rw [List.append_nil] at whole
  exact whole

theorem applyRegisters_of_slips {before after : List (RawText × Int)} (readable : ∀ r ∈ before, ¬ Slips r.1)
    {fault : Fault} (refused : initialRegister? name = .error fault) :
    applyRegisters (before ++ (name, value) :: after) s = .error fault
      (s.withRegisters (putRegisters before s.engine.state.registers)
        (strange s.engine.state.registers.length before)) := by
  rw [applyRegisters_append readable]
  simp [applyRegisters, applyRegister, Act.bind_apply, refused]

/-- What an initial state makes of a session. Beside the program counter, registers, memory and the remarks
all is as it was. -/
structure Applied (initial : InitialState) (s t : Session) : Prop where
  spared : t = { s with
    engine := { s.engine with state := { s.engine.state with
      pc := initial.pc
      registers := t.engine.state.registers
      memory := t.engine.state.memory } }
    journal := t.journal }
  register : ∀ place : Nat, t.engine.state.registers[place]? =
    s.engine.state.registers[place]?.map fun old => (lastGiven? initial.registers place).getD old
  cell : ∀ address, t.engine.state.memory.get? address =
    (initial.memory.reverse.lookup address).or (s.engine.state.memory.get? address)
  remarked : t.journal =
    ((strange s.engine.state.registers.length initial.registers).map .unknownRegister).reverse ++ s.journal

def withInitial (s : Session) (initial : InitialState) : Session :=
  { s with
    engine := { s.engine with state := { s.engine.state with
      pc := initial.pc
      registers := putRegisters initial.registers s.engine.state.registers
      memory := s.engine.state.memory.update initial.memory } }
    journal := ((strange s.engine.state.registers.length initial.registers).map .unknownRegister).reverse ++
      s.journal }

theorem applied_withInitial (initial : InitialState) (s : Session) : Applied initial s (s.withInitial initial) where
  spared := rfl
  register := getElem?_putRegisters _
  cell := Memory.get?_update _ _
  remarked := rfl

/-- The initial state is put in as it is given, or one of its names is refused as a numeral. Then what was given
before that name is put in, and nothing of the memory. -/
theorem applyInitial_exact (initial : InitialState) (s : Session) :
    ((∀ r ∈ initial.registers, ¬ Slips r.1) →
      ∃ t, applyInitial initial s = .ok () t ∧ Applied initial s t) ∧
    (∀ before name value after, initial.registers = before ++ (name, value) :: after →
      (∀ r ∈ before, ¬ Slips r.1) → Slips name →
      ∃ fault t digits, applyInitial initial s = .error fault t ∧ name.toText? = some ('R' :: digits) ∧
        (fault = .notNumeral 10 (Text.raw digits) ∨ fault = .numeralTooLong (leadingDigits digits).length) ∧
        Applied { initial with registers := before, memory := [] } s t) := by
  constructor
  · intro readable
    refine ⟨s.withInitial initial, ?_, applied_withInitial initial s⟩
    simp only [applyInitial, Act.bind_apply, modifyState, Act.modify_apply, applyRegisters_of_readable readable]
    rfl
  · rintro before name value after given readable slips
    obtain ⟨fault, refused, digits, shown, kind⟩ := initialRegister?_of_slips slips
    let earlier : InitialState := { initial with registers := before, memory := [] }
    refine ⟨fault, s.withInitial earlier, digits, ?_, shown, kind, applied_withInitial earlier s⟩
    simp only [applyInitial, Act.bind_apply, modifyState, Act.modify_apply, given,
      applyRegisters_of_slips readable refused]
    rfl

theorem slips_superscript : Slips (Text.raw ['R', '²']) :=
  ⟨['²'], rfl, by simp, List.forall_mem_singleton.2 (by decide), .inl ⟨'²', List.mem_singleton_self _, by decide⟩⟩

theorem applyInitial_exact_superscript :
    ∃ (given : List (RawText × Int)) (s t u : Session) (fault : Fault),
      given.map Prod.fst = ["R1", "R01", "R9", "r2", "R٣"].map (Text.raw ∘ Text.ofString) ∧
      applyInitial { registers := given, memory := [(2, 3)], pc := 1 } s = .ok () t ∧
      t.engine.state.registers[1]? = some 7 ∧ t.engine.state.memory.get? 2 = some 3 ∧ t.journal.length = 2 ∧
      applyInitial { registers := given ++ [(Text.raw ['R', '²'], 6)], memory := [(2, 3)], pc := 1 } s =
        .error fault u ∧
      u.engine.state.registers[3]? = some 5 ∧ u.engine.state.memory.get? 2 = none ∧ u.engine.state.pc = 1 := by
  let given : List (RawText × Int) :=
    [(Text.raw "R1".toList, 6), (Text.raw "R01".toList, 7), (Text.raw "R9".toList, 8), (Text.raw "r2".toList, 9),
      (Text.raw "R٣".toList, 5)]
  let s : Session := { history := { limit := 4 } }
  have read : ∀ r ∈ given, (initialRegister? r.1).toOption.isSome = true := by decide +kernel
  have readable : ∀ r ∈ given, ¬ Slips r.1 := fun r member => not_slips_of_isSome (read r member)
  obtain ⟨t, done, applied⟩ := (applyInitial_exact { registers := given, memory := [(2, 3)], pc := 1 } s).1 readable
  obtain ⟨fault, u, -, failed, -, -, partly⟩ :=
    (applyInitial_exact { registers := given ++ [(Text.raw ['R', '²'], 6)], memory := [(2, 3)], pc := 1 } s).2
      given _ _ [] rfl readable slips_superscript
  refine ⟨given, s, t, u, fault, rfl, done, ?_, ?_, ?_, failed, ?_, ?_, ?_⟩
  · exact (applied.register 1).trans (by decide +kernel)
  · exact (applied.cell 2).trans (by decide)
  · rw [applied.remarked]
    decide +kernel
  · exact (partly.register 3).trans (by decide +kernel)
  · exact (partly.cell 2).trans (by decide)
  · rw [partly.spared]

theorem not_every_initial_applied :
    ¬ ∀ (initial : InitialState) (s : Session), ∃ t, applyInitial initial s = .ok () t := by
  intro always
  let initial : InitialState := { registers := [(Text.raw ['R', '²'], 6)], memory := [(2, 3)], pc := 1 }
  let s : Session := { history := { limit := 4 } }
  obtain ⟨t, done⟩ := always initial s
  have failed : (applyInitial initial).result? s = none := Option.isNone_iff_eq_none.1 (by decide +kernel)
  have ended : (applyInitial initial).result? s = some ((), t) := Act.result?_eq_some.2 done
  rw [failed] at ended
  cases ended

end Session
end StageMachine
