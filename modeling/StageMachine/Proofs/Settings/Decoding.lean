import StageMachine.Proofs.Outcome
import StageMachine.Proofs.Settings.Spelling

/-! Settings decoded. From each configuration that spells them, in whatever order and among whatever other
entries, settings come back as they were, with a remark for every entry that is not read. A truth value in the
place of an integer is refused. -/
namespace StageMachine

section
variable {κ ν : Type} [DecidableEq κ]

theorem putPair_of_notMem {key : κ} {pairs : List (κ × ν)} (new : key ∉ pairs.map Prod.fst) (value : ν) :
    putPair key value pairs = pairs ++ [(key, value)] := by
  induction pairs with
  | nil => rfl
  | cons pair rest ih =>
    rw [List.map_cons, List.mem_cons, not_or] at new
    rw [putPair, if_neg (Ne.symm new.1), ih new.2, List.cons_append]

theorem ofPairs_of_nodup {pairs : List (κ × ν)} (distinct : (pairs.map Prod.fst).Nodup) :
    ofPairs pairs = pairs := by
  have general (found : List (κ × ν)) (apart : ((found ++ pairs).map Prod.fst).Nodup) :
      pairs.foldl (fun found pair => putPair pair.1 pair.2 found) found = found ++ pairs := by
    clear distinct
    induction pairs generalizing found with
    | nil => simp
    | cons pair rest ih =>
      have new : pair.1 ∉ found.map Prod.fst := fun member => by
        rw [List.map_append, List.nodup_append] at apart
        exact apart.2.2 _ member _ (by simp) rfl
      have moved : found ++ [pair] ++ rest = found ++ pair :: rest := by simp
      rw [List.foldl_cons, putPair_of_notMem new, ih _ (moved ▸ apart), moved]
  exact general [] distinct

theorem gives_ofPairs {α : Type} {refused : Fault → Prop} {given : List (κ × ν)} {items : List α}
    {next : α → Except Fault (κ × ν)} (distinct : (given.map Prod.fst).Nodup)
    (each : List.Forall₂ (fun pair item => Gives refused pair (next item)) given items) :
    Gives refused given (do return ofPairs (← items.mapM next)) := by
  refine (gives_mapM each).bind ?_
  rw [ofPairs_of_nodup distinct]
  exact .value

end

namespace Settings
variable {refused : Fault → Prop} {spells : Int → Datum → Prop} {c : Settings} {initial : InitialState}
  {found parts : List (Datum × Datum)}

def IsSection (name : Text) (found parts : List (Datum × Datum)) : Prop :=
  Datum.lookup? name found = some (.mapping parts) ∨
    parts = [] ∧ (Datum.lookup? name found).getD .null = .null

structure SpellsInitial (spells : Int → Datum → Prop) (initial : InitialState) (parts : List (Datum × Datum)) :
    Prop where
  registers : ∃ entries given, IsSection "registers".toList parts entries ∧ given.Perm initial.registers ∧
    List.Forall₂ (fun (r : RawText × Int) entry => SpellsName r.1 entry.1 ∧ spells r.2 entry.2) given entries
  memory : ∃ entries given, IsSection "data_memory".toList parts entries ∧ given.Perm initial.memory ∧
    List.Forall₂ (fun (cell : Int × Int) entry => SpellsInteger cell.1 entry.1 ∧ spells cell.2 entry.2) given
      entries
  pc : spells initial.pc ((Datum.lookup? "pc".toList parts).getD (.int 0))

/-- A configuration that spells settings, by what it holds under the names that are read. What is missing
stands for its default. -/
structure SpellsSettings (spells : Int → Datum → Prop) (c : Settings) (found : List (Datum × Datum)) :
    Prop where
  clockInterval : ∃ v, c.clockInterval = some v ∧
    spells v ((Datum.lookup? "clock_interval_ms".toList found).getD (.int 1000))
  registerWidth : (c.registerWidth = none ∧ (Datum.lookup? "register_width".toList found).getD .null = .null) ∨
    ∃ v, c.registerWidth = some v ∧ spells v ((Datum.lookup? "register_width".toList found).getD .null)
  microStepping : (Datum.lookup? "micro_stepping".toList found).getD (.bool false) = .bool c.microStepping
  historyLimit : ∃ v, c.historyLimit = some v ∧
    spells v ((Datum.lookup? "history_limit".toList found).getD (.int 10000))
  program : (Datum.lookup? "program".toList found).getD .null = c.program
  initial : ∃ parts, IsSection "initial_state".toList found parts ∧ SpellsInitial spells c.initial parts

/-- Settings that are equal but for the order in which registers and cells are given. -/
def Alike (c d : Settings) : Prop :=
  ∃ registers memory, registers.Perm c.initial.registers ∧ memory.Perm c.initial.memory ∧
    d = { c with initial := { c.initial with registers, memory } }

/-- What the spellings of integers come to: the integer, or a fault of a kind. -/
structure Readable (refused : Fault → Prop) (spells : Int → Datum → Prop) : Prop where
  gives : ∀ {v d}, spells v d → Gives refused v (integer d)
  isGiven : ∀ v, ¬ spells v .null

theorem sectionOf_eq {name : Text} (is : IsSection name found parts) : sectionOf name found = .ok parts := by
  rcases is with held | ⟨rfl, missing⟩
  · rw [sectionOf, held]
    rfl
  · rw [sectionOf, missing]
    rfl

section
variable (readable : Readable refused spells)

include readable

theorem gives_optionalInteger {width : Option Int} {d : Datum}
    (spelled : (width = none ∧ d = .null) ∨ ∃ v, width = some v ∧ spells v d) :
    Gives refused width (optionalInteger d) := by
  rcases spelled with ⟨rfl, rfl⟩ | ⟨v, rfl, spelled⟩
  · exact .value
  · have present : optionalInteger d = (integer d).map some := by
      cases d with
      | null => exact absurd spelled (readable.isGiven v)
      | bool | int | float | text | timestamp | list | mapping => rfl
    rw [present]
    exact (readable.gives spelled).map some

theorem gives_registers {given : List (RawText × Int)} (fixed : ∀ r ∈ given, r.1.upper = r.1)
    (distinct : (given.map Prod.fst).Nodup)
    (spelled : List.Forall₂ (fun (r : RawText × Int) entry => SpellsName r.1 entry.1 ∧ spells r.2 entry.2)
      given found) : Gives refused given (registers found) := by
  have each : List.Forall₂ (fun (r : RawText × Int) (entry : Datum × Datum) => Gives refused r (do
      let shown ← entry.1.shown
      return (shown.upper, ← integer entry.2))) given found :=
    ((List.forall₂_and_left _ _).2 ⟨fixed, spelled⟩).imp fun r entry ⟨upper, name, value⟩ => by
      obtain ⟨t, key, same⟩ := name
      rw [key]
      show Gives refused r (integer entry.2 >>= fun v => pure (t.upper, v))
      rw [upper_of_spells upper same]
      exact (readable.gives value).bind .value
  exact gives_ofPairs distinct each

theorem gives_memory {given : List (Int × Int)} (distinct : (given.map Prod.fst).Nodup)
    (spelled : List.Forall₂ (fun (cell : Int × Int) entry => SpellsInteger cell.1 entry.1 ∧ spells cell.2 entry.2)
      given found) : Gives refused given (memory found) := by
  have each : List.Forall₂ (fun (cell : Int × Int) (entry : Datum × Datum) => Gives refused cell (do
      let place ← integer entry.1
      return (place, ← integer entry.2))) given found :=
    spelled.imp fun cell entry ⟨address, value⟩ => by
      rw [integer_of_spells address]
      exact (readable.gives value).bind .value
  exact gives_ofPairs distinct each

theorem gives_initialState (fixed : ∀ r ∈ initial.registers, r.1.upper = r.1)
    (names : (initial.registers.map Prod.fst).Nodup) (cells : (initial.memory.map Prod.fst).Nodup)
    (is : IsSection "initial_state".toList found parts) (spelled : SpellsInitial spells initial parts) :
    ∃ registers memory, registers.Perm initial.registers ∧ memory.Perm initial.memory ∧
      Gives refused { initial with registers, memory } (initialState found) := by
  obtain ⟨⟨entries, registers, isRegisters, order, each⟩, ⟨items, memory, isMemory, sequence, every⟩, pc⟩ := spelled
  refine ⟨registers, memory, order, sequence, ?_⟩
  rw [initialState, sectionOf_eq is]
  show Gives refused _ (sectionOf "registers".toList parts >>= fun entries => _)
  rw [sectionOf_eq isRegisters]
  refine (gives_registers readable (fun r member => fixed r (order.subset member))
    ((order.map Prod.fst).nodup_iff.2 names) each).bind ?_
  show Gives refused _ (sectionOf "data_memory".toList parts >>= fun entries => _)
  rw [sectionOf_eq isMemory]
  refine (gives_memory readable ((sequence.map Prod.fst).nodup_iff.2 cells) every).bind ?_
  exact (readable.gives pc).bind .value

theorem gives_ofEntries (fixed : ∀ r ∈ c.initial.registers, r.1.upper = r.1)
    (names : (c.initial.registers.map Prod.fst).Nodup) (cells : (c.initial.memory.map Prod.fst).Nodup)
    (spelled : SpellsSettings spells c found) : ∃ d, Alike c d ∧ Gives refused d (ofEntries found) := by
  obtain ⟨⟨interval, hasInterval, spelledInterval⟩, spelledWidth, micro, ⟨limit, hasLimit, spelledLimit⟩, program,
    parts, is, spelledInitial⟩ := spelled
  obtain ⟨registers, memory, order, sequence, given⟩ :=
    gives_initialState readable fixed names cells is spelledInitial
  refine ⟨_, ⟨registers, memory, order, sequence, rfl⟩, ?_⟩
  refine given.bind ((readable.gives spelledInterval).bind ?_)
  refine (gives_optionalInteger readable spelledWidth).bind ((readable.gives spelledLimit).bind ?_)
  have switch : (Datum.lookup? "micro_stepping".toList found).any Datum.isGiven = c.microStepping := by
    cases held : Datum.lookup? "micro_stepping".toList found with
    | none =>
      rw [held] at micro
      exact Datum.bool.inj micro
    | some d =>
      rw [held] at micro
      obtain rfl : d = .bool c.microStepping := micro
      rfl
  show Gives refused _ (pure ({
    clockInterval := some interval
    registerWidth := c.registerWidth
    microStepping := (Datum.lookup? "micro_stepping".toList found).any Datum.isGiven
    historyLimit := some limit
    program := (Datum.lookup? "program".toList found).getD .null
    initial := { c.initial with registers, memory } } : Settings))
  rw [switch, program, ← hasInterval, ← hasLimit]
  exact .value

end

def SpellsTruth (v : Int) (d : Datum) : Prop := SpellsInteger v d ∨ ∃ b, d = .bool b

theorem readable_integer : Readable (fun _ => False) SpellsInteger where
  gives spelled := by
    rw [integer_of_spells spelled]
    exact .value
  isGiven _ := nofun

theorem readable_truth : Readable (fun fault => ∃ b, fault = .notInteger (truthWord b)) SpellsTruth where
  gives spelled := by
    rcases spelled with spelled | ⟨b, rfl⟩
    · rw [integer_of_spells spelled]
      exact .value
    · rw [integer_bool]
      exact .refusal ⟨b, rfl⟩
  isGiven _ := by rintro (spelled | ⟨b, same⟩) <;> cases ‹_›

inductive HasTruth (found : List (Datum × Datum)) : Prop where
  | clockInterval {b : Bool} (held : Datum.lookup? "clock_interval_ms".toList found = some (.bool b))
  | registerWidth {b : Bool} (held : Datum.lookup? "register_width".toList found = some (.bool b))
  | historyLimit {b : Bool} (held : Datum.lookup? "history_limit".toList found = some (.bool b))
  | pc {parts : List (Datum × Datum)} {b : Bool} (is : IsSection "initial_state".toList found parts)
      (held : Datum.lookup? "pc".toList parts = some (.bool b))
  | register {parts entries : List (Datum × Datum)} {name : Datum} {b : Bool}
      (is : IsSection "initial_state".toList found parts) (within : IsSection "registers".toList parts entries)
      (held : (name, .bool b) ∈ entries)
  | cell {parts entries : List (Datum × Datum)} {address : Datum} {b : Bool}
      (is : IsSection "initial_state".toList found parts) (within : IsSection "data_memory".toList parts entries)
      (held : (address, .bool b) ∈ entries)

theorem integer_bool_ne {b : Bool} {v : Int} : integer (.bool b) ≠ .ok v := by
  rw [integer_bool]
  nofun

theorem integer_held {name : Text} {default : Datum} {v : Int} {b : Bool}
    (held : Datum.lookup? name found = some (.bool b)) :
    integer ((Datum.lookup? name found).getD default) ≠ .ok v := by
  rw [held, Option.getD_some]
  exact integer_bool_ne

theorem not_hasTruth_of_initialState (done : initialState found = .ok initial)
    (is : IsSection "initial_state".toList found parts) :
    (∀ b, Datum.lookup? "pc".toList parts ≠ some (.bool b)) ∧
    (∀ entries, IsSection "registers".toList parts entries → ∀ name b, (name, .bool b) ∉ entries) ∧
    (∀ entries, IsSection "data_memory".toList parts entries → ∀ address b, (address, .bool b) ∉ entries) := by
  obtain ⟨own, hasOwn, done⟩ := bind_eq_ok.1 done
  rw [sectionOf_eq is] at hasOwn
  cases hasOwn
  obtain ⟨entries, hasEntries, done⟩ := bind_eq_ok.1 done
  obtain ⟨registers, hasRegisters, done⟩ := bind_eq_ok.1 done
  obtain ⟨items, hasItems, done⟩ := bind_eq_ok.1 done
  obtain ⟨memory, hasMemory, done⟩ := bind_eq_ok.1 done
  obtain ⟨pc, hasPc, -⟩ := bind_eq_ok.1 done
  refine ⟨fun b held => integer_held held hasPc, fun others within name b held => ?_,
    fun others within address b held => ?_⟩
  · rw [sectionOf_eq within] at hasEntries
    cases hasEntries
    obtain ⟨pairs, hasPairs, -⟩ := bind_eq_ok.1 hasRegisters
    obtain ⟨pair, one⟩ := of_mapM_eq_ok hasPairs _ held
    obtain ⟨shown, -, one⟩ := bind_eq_ok.1 one
    obtain ⟨v, read, -⟩ := bind_eq_ok.1 one
    exact integer_bool_ne read
  · rw [sectionOf_eq within] at hasItems
    cases hasItems
    obtain ⟨pairs, hasPairs, -⟩ := bind_eq_ok.1 hasMemory
    obtain ⟨pair, one⟩ := of_mapM_eq_ok hasPairs _ held
    obtain ⟨place, -, one⟩ := bind_eq_ok.1 one
    obtain ⟨v, read, -⟩ := bind_eq_ok.1 one
    exact integer_bool_ne read

theorem not_hasTruth_of_ok (done : ofEntries found = .ok c) : ¬ HasTruth found := by
  obtain ⟨initial, begun, done⟩ := bind_eq_ok.1 done
  obtain ⟨interval, hasInterval, done⟩ := bind_eq_ok.1 done
  obtain ⟨width, hasWidth, done⟩ := bind_eq_ok.1 done
  obtain ⟨limit, hasLimit, -⟩ := bind_eq_ok.1 done
  rintro (held | held | held | ⟨is, held⟩ | ⟨is, within, held⟩ | ⟨is, within, held⟩)
  · exact integer_held held hasInterval
  · have present : optionalInteger ((Datum.lookup? "register_width".toList found).getD .null) = .ok width := hasWidth
    rw [held, Option.getD_some] at present
    obtain ⟨v, read, -⟩ := map_eq_ok.1 present
    exact integer_bool_ne read
  · exact integer_held held hasLimit
  · exact (not_hasTruth_of_initialState begun is).1 _ held
  · exact (not_hasTruth_of_initialState begun is).2.1 _ within _ _ held
  · exact (not_hasTruth_of_initialState begun is).2.2 _ within _ _ held

def isKnown : Datum → Bool
  | .text t => t ∈ knownNames.map Text.raw
  | _ => false

theorem isKnown_eq (key : Datum) : (knownNames.any fun name => key.sameKey (.text name.raw)) = isKnown key := by
  cases key with
  | text t =>
    show (knownNames.any fun name => t == Text.raw name) = decide (t ∈ knownNames.map Text.raw)
    generalize knownNames = names
    rw [Bool.eq_iff_iff]
    simp only [List.any_eq_true, beq_iff_eq, decide_eq_true_eq, List.mem_map]
    exact exists_congr fun name => and_congr_right fun _ => eq_comm
  | null | bool | int | float | timestamp | list | mapping =>
    simp [isKnown, Datum.sameKey, Datum.keyNumber?]

theorem noteUnknown_eq (found : List (Datum × Datum)) :
    noteUnknown found = ⟨(found.filter fun entry => !isKnown entry.1).map fun entry =>
      .unknownSetting entry.1.shown.toOption, .ok ()⟩ := by
  induction found with
  | nil => rfl
  | cons entry rest ih =>
    obtain ⟨key, value⟩ := entry
    rw [noteUnknown, isKnown_eq, ih]
    cases known : isKnown key with
    | true => simp [known]
    | false =>
      rw [if_pos (show (!false) = true from rfl), Report.bind_of_ok rfl]
      simp [known, Report.note]

theorem ofDatum_mapping (found : List (Datum × Datum)) :
    ofDatum (.mapping found) = ⟨(found.filter fun entry => !isKnown entry.1).map fun entry =>
      .unknownSetting entry.1.shown.toOption, ofEntries found⟩ := by
  rw [ofDatum, noteUnknown_eq, Report.bind_of_ok rfl]
  simp [liftM, monadLift, MonadLift.monadLift]

/-- Whatever spells settings is decoded to them, as mappings without an order, and every entry under another
name is remarked on. With truth values in the place of integers other than addresses it is refused. -/
theorem ofDatum_spelled (c : Settings) (found : List (Datum × Datum))
    (fixed : ∀ r ∈ c.initial.registers, r.1.upper = r.1)
    (names : (c.initial.registers.map Prod.fst).Nodup) (cells : (c.initial.memory.map Prod.fst).Nodup) :
    (ofDatum (.mapping found)).remarks.length = found.countP (fun entry => !isKnown entry.1) ∧
    (SpellsSettings SpellsInteger c found →
      ∃ d, (ofDatum (.mapping found)).outcome = .ok d ∧ Alike c d) ∧
    (SpellsSettings SpellsTruth c found → HasTruth found →
      ∃ b, (ofDatum (.mapping found)).outcome = .error (.notInteger (truthWord b))) := by
  rw [ofDatum_mapping]
  refine ⟨by simp [List.countP_eq_length_filter], fun spelled => ?_, fun spelled truth => ?_⟩
  · obtain ⟨d, alike, gives⟩ := gives_ofEntries readable_integer fixed names cells spelled
    exact ⟨d, gives.eq_ok, alike⟩
  · obtain ⟨d, -, gives⟩ := gives_ofEntries readable_truth fixed names cells spelled
    generalize done : ofEntries found = outcome at gives ⊢
    cases gives with
    | value => exact absurd truth (not_hasTruth_of_ok done)
    | refusal because =>
      obtain ⟨b, rfl⟩ := because
      exact ⟨b, rfl⟩

theorem ofDatum_spelled_in_capitals :
    ∃ (c d : Settings) (found : List (Datum × Datum)) (b : Bool),
      c.historyLimit = some 31 ∧ c.initial.registers = [(Text.raw ['R', '1'], -1)] ∧
      (ofDatum (.mapping found)).remarks.length = 1 ∧ (ofDatum (.mapping found)).outcome = .ok d ∧ Alike c d ∧
      (ofDatum (.mapping ((.text (Text.raw "register_width".toList), .bool true) :: found))).outcome =
        .error (.notInteger (truthWord b)) := by
  let c : Settings :=
    { historyLimit := some 31, initial := { registers := [(Text.raw ['R', '1'], -1)] } }
  let registers : List (Datum × Datum) := [(.text (Text.raw ['r', '1']), .text (Text.raw "-0x1".toList))]
  let parts : List (Datum × Datum) := [(.text (Text.raw "registers".toList), .mapping registers)]
  let found : List (Datum × Datum) := [(.text (Text.raw "colour".toList), .null),
    (.text (Text.raw "history_limit".toList), .text (Text.raw " 0X1f".toList)),
    (.text (Text.raw "initial_state".toList), .mapping parts)]
  have limit : SpellsInteger 31 (.text (Text.raw " 0X1f".toList)) :=
    @SpellsInteger.hexadecimal [' '] "0X1f".toList [] 31 (List.forall_mem_singleton.2 rfl)
      (@Numeral.SpellsHex.plain 'X' "1f".toList [1, 15] (.inr rfl) rfl (by decide))
  have value : SpellsInteger (-1) (.text (Text.raw "-0x1".toList)) :=
    @SpellsInteger.hexadecimal [] "-0x1".toList [] (-1) nofun
      (@Numeral.SpellsHex.minus 'x' ['1'] [1] (.inl rfl) rfl (by decide))
  have initial {spells : Int → Datum → Prop} (every : ∀ {v d}, SpellsInteger v d → spells v d) :
      SpellsInitial spells c.initial parts :=
    { registers := ⟨registers, c.initial.registers, .inl rfl, .refl _,
        .cons ⟨⟨_, rfl, rfl⟩, every value⟩ .nil⟩
      memory := ⟨[], [], .inr ⟨rfl, rfl⟩, .refl _, .nil⟩
      pc := every (.number 0) }
  have spelled : SpellsSettings SpellsInteger c found :=
    { clockInterval := ⟨1000, rfl, .number 1000⟩
      registerWidth := .inl ⟨rfl, rfl⟩
      microStepping := rfl
      historyLimit := ⟨31, rfl, limit⟩
      program := rfl
      initial := ⟨parts, .inl rfl, initial id⟩ }
  have fixed : ∀ r ∈ c.initial.registers, r.1.upper = r.1 := List.forall_mem_singleton.2 rfl
  have names : (c.initial.registers.map Prod.fst).Nodup := List.nodup_singleton _
  obtain ⟨remarks, decoded, -⟩ := ofDatum_spelled c found fixed names .nil
  obtain ⟨d, done, alike⟩ := decoded spelled
  -- the same configuration with a truth value for the width
  obtain ⟨b, refused⟩ := (ofDatum_spelled { c with registerWidth := some 0 }
    ((.text (Text.raw "register_width".toList), .bool true) :: found) fixed names .nil).2.2
    { clockInterval := ⟨1000, rfl, .inl (.number 1000)⟩
      registerWidth := .inr ⟨0, rfl, .inr ⟨true, rfl⟩⟩
      microStepping := rfl
      historyLimit := ⟨31, rfl, .inl limit⟩
      program := rfl
      initial := ⟨parts, .inl rfl, initial .inl⟩ }
    (.registerWidth rfl)
  exact ⟨c, d, found, b, rfl, rfl, remarks, done, alike, refused⟩

end Settings
end StageMachine
