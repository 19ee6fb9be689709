import StageMachine.Proofs.Instruction.Reading

/-! Sources line by line, and sources put one after the other. Each line of code is assembled for itself and
is found again in its instruction. So the instructions of a second source follow those of the first, and only
know by their line and their place that something stands before them. -/
namespace StageMachine

def Instruction.moved (lines places : Nat) (i : Instruction) : Instruction :=
  { i with line := i.line + lines, index := i.index + places }

namespace Assembly

theorem reading_eq_ok {α : Type} {operands : List Operand} {value result : α} :
    reading operands value = .ok result ↔ (∀ o ∈ operands, o.isOverlong = false) ∧ value = result := by
  unfold reading
  split
  · next none =>
    have short := find?_isOverlong_eq_none.1 none
    simpa using fun _ => short
  · next o found =>
    simp only [reduceCtorEq, false_iff, not_and]
    intro short
    rw [find?_isOverlong_eq_none.2 short] at found
    cases found

theorem assemble_eq_ok {source : Text} {made : List Instruction} :
    (assemble source).outcome = .ok made ↔
      (∀ o ∈ operandsRead source, o.isOverlong = false) ∧ program source = made := by
  have read : (assemble source).outcome = reading (operandsRead source) (program source) :=
    assembleLines_reading 1 0 (Text.lines source)
  rw [read, reading_eq_ok]

section
variable (raw : Text) (line index : Nat)

theorem raw_lineInstruction : (lineInstruction raw line index).raw = raw := by
  unfold lineInstruction
  split <;> rfl

theorem line_lineInstruction : (lineInstruction raw line index).line = line := by
  unfold lineInstruction
  split <;> rfl

theorem index_lineInstruction : (lineInstruction raw line index).index = index := by
  unfold lineInstruction
  split <;> rfl

end

/-- One instruction for each line of code, in order: it keeps the line without the white space around it,
the number of the line, and its own place. -/
structure LineByLine (source : Text) (made : List Instruction) : Prop where
  lines : made.map (fun i => (i.raw, i.line)) =
    (codeLines 1 (Text.lines source)).map fun item => (item.1, (item.2 : Int))
  places : ∀ (place : Nat) (i : Instruction), made[place]? = some i → i.index = place
  ordered : (made.map (·.line)).Pairwise (· < ·)

theorem pairwise_codeLines (line : Nat) (texts : List Text) :
    ((codeLines line texts).map Prod.snd).Pairwise (· < ·) := by
  have all : (((texts.map Text.trim).zipIdx line).map Prod.snd).Pairwise (· < ·) := by
    rw [List.zipIdx_map_snd]
    exact List.pairwise_lt_range'
  exact all.sublist (List.filter_sublist.map Prod.snd)

theorem lineByLine_program (source : Text) : LineByLine source (program source) := by
  have lines : (program source).map (fun i => (i.raw, i.line)) =
      (codeLines 1 (Text.lines source)).map fun item => (item.1, (item.2 : Int)) := by
    rw [program, List.map_map]
    simp only [Function.comp_def, raw_lineInstruction, line_lineInstruction]
    conv => rhs; rw [← List.zipIdx_map_fst 0 (codeLines 1 (Text.lines source)), List.map_map]
    rfl
  refine ⟨lines, fun place i found => ?_, ?_⟩
  · rw [program, List.getElem?_map] at found
    obtain ⟨item, listed, rfl⟩ := Option.map_eq_some_iff.1 found
    rw [List.getElem?_zipIdx] at listed
    obtain ⟨line, -, rfl⟩ := Option.map_eq_some_iff.1 listed
    simp [index_lineInstruction]
  · have numbers : (program source).map (·.line) =
        ((codeLines 1 (Text.lines source)).map Prod.snd).map Nat.cast := by
      simpa [Function.comp_def] using congrArg (List.map Prod.snd) lines
    rw [numbers, List.pairwise_map]
    exact (pairwise_codeLines 1 (Text.lines source)).imp Int.ofNat_lt.2

theorem LineByLine.codeLines_eq {source other : Text} {made : List Instruction}
    (first : LineByLine source made) (second : LineByLine other made) :
    codeLines 1 (Text.lines source) = codeLines 1 (Text.lines other) := by
  have distinct : Function.Injective fun item : Text × Nat => (item.1, (item.2 : Int)) := by
    rintro ⟨text, line⟩ ⟨text', line'⟩ equal
    simpa using equal
  exact List.map_injective_iff.2 distinct (first.lines.symm.trans second.lines)

/-- Another source is assembled to the same instructions if and only if it has the same lines of code. -/
theorem outcome_eq_iff_codeLines {source other : Text} {made : List Instruction}
    (assembled : (assemble source).outcome = .ok made) :
    (assemble other).outcome = (assemble source).outcome ↔
      codeLines 1 (Text.lines other) = codeLines 1 (Text.lines source) := by
  constructor
  · intro same
    obtain ⟨-, here⟩ := assemble_eq_ok.1 assembled
    obtain ⟨-, there⟩ := assemble_eq_ok.1 (same.trans assembled)
    exact (there ▸ lineByLine_program other).codeLines_eq (here ▸ lineByLine_program source)
  · intro same
    show (assembleLines 1 0 _).outcome = (assembleLines 1 0 _).outcome
    rw [assembleLines_reading, assembleLines_reading, same]

section
variable (line index lines places : Nat)

theorem lineInstruction_moved (raw : Text) :
    lineInstruction raw (line + lines) (index + places) =
      (lineInstruction raw line index).moved lines places := by
  unfold lineInstruction
  split <;> simp [instruction, Instruction.moved]

theorem codeLines_append (first second : List Text) :
    codeLines line (first ++ second) =
      codeLines line first ++ codeLines (line + first.length) second := by
  simp [codeLines, List.zipIdx_append]

theorem codeLines_add (texts : List Text) :
    codeLines (line + lines) texts = (codeLines line texts).map (Prod.map id (· + lines)) := by
  induction texts generalizing line with
  | nil => rfl
  | cons text rest ih =>
    rw [codeLines_cons, codeLines_cons, Nat.add_right_comm, ih]
    split <;> simp

theorem map_lineInstruction_moved (texts : List (Text × Nat)) :
    ((texts.map (Prod.map id (· + lines))).zipIdx places).map
        (fun item => lineInstruction item.1.1 item.1.2 item.2) =
      (texts.zipIdx.map fun item => lineInstruction item.1.1 item.1.2 item.2).map
        (·.moved lines places) := by
  rw [List.zipIdx_map, List.zipIdx_eq_map_add, List.map_map, List.map_map, List.map_map]
  apply List.map_congr_left
  intro item _
  simp only [Function.comp_apply, ← lineInstruction_moved]
  rw [Nat.add_comm item.2]
  rfl

end

section
variable (first second : Text)

theorem codeLines_lines_append :
    codeLines 1 (Text.lines (first ++ '\n' :: second)) = codeLines 1 (Text.lines first) ++
      (codeLines 1 (Text.lines second)).map (Prod.map id (· + (Text.lines first).length)) := by
  rw [Text.lines_append, codeLines_append, codeLines_add]

theorem operandsRead_append :
    operandsRead (first ++ '\n' :: second) = operandsRead first ++ operandsRead second := by
  simp [operandsRead, codeLines_lines_append, List.flatMap_map]

theorem program_append :
    program (first ++ '\n' :: second) = program first ++
      (program second).map (·.moved (Text.lines first).length (program first).length) := by
  have places : (program first).length = (codeLines 1 (Text.lines first)).length := by simp [program]
  rw [places, program, codeLines_lines_append, List.zipIdx_append, List.map_append, Nat.zero_add,
    map_lineInstruction_moved]
  rfl

theorem assemble_append {made other : List Instruction} (one : (assemble first).outcome = .ok made)
    (two : (assemble second).outcome = .ok other) :
    (assemble (first ++ '\n' :: second)).outcome =
      .ok (made ++ other.map (·.moved (Text.lines first).length made.length)) := by
  obtain ⟨short, rfl⟩ := assemble_eq_ok.1 one
  obtain ⟨short', rfl⟩ := assemble_eq_ok.1 two
  refine assemble_eq_ok.2 ⟨?_, program_append first second⟩
  rw [operandsRead_append]
  intro o member
  rcases List.mem_append.1 member with member | member
  · exact short o member
  · exact short' o member

end

/-- Assembly goes line by line: a source that is assembled has one instruction for each line of code. And it
goes source by source: what follows a source is assembled as it is by itself, with the numbers and the places
moved on. -/
theorem assemble_by_lines :
    (∀ source made, (assemble source).outcome = .ok made → LineByLine source made) ∧
      ∀ first second made other, (assemble first).outcome = .ok made →
        (assemble second).outcome = .ok other →
          (assemble (first ++ '\n' :: second)).outcome =
            .ok (made ++ other.map (·.moved (Text.lines first).length made.length)) := by
  refine ⟨fun source made assembled => ?_, fun first second made other one two => ?_⟩
  · obtain ⟨-, rfl⟩ := assemble_eq_ok.1 assembled
    exact lineByLine_program source
  · exact assemble_append first second one two

theorem assemble_by_lines_slot :
    let slot := ",; no token".toList
    let nop := "\n ;\n\tnop\r\n".toList
    let first := instruction [] slot 1 0 none {}
    let second := instruction "NOP".toList "nop".toList 3 0 (some .nop) {}
    (assemble slot).outcome = .ok [first] ∧ LineByLine slot [first] ∧
      (assemble nop).outcome = .ok [second] ∧ LineByLine nop [second] ∧
        (assemble (slot ++ '\n' :: nop)).outcome = .ok [first, { second with line := 4, index := 1 }] := by
  intro slot nop first second
  have one : (assemble slot).outcome = .ok [first] := by rfl
  have two : (assemble nop).outcome = .ok [second] := by rfl
  obtain ⟨single, joined⟩ := assemble_by_lines
  exact ⟨one, single slot _ one, two, single nop _ two, joined slot nop _ _ one two⟩

end Assembly
end StageMachine
