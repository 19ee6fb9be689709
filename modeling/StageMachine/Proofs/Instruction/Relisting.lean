import StageMachine.Proofs.Instruction.Rendering

/-! Programs listed and assembled again. A word keeps three bits of each field; what is listed are
those bits, and they are all that the word of the listed line is made of. -/
namespace StageMachine
namespace Assembly

def listedOpcode : Option Opcode → Opcode
  | none => .nop
  | some .mov => .ldi
  | some op => op

theorem ofBits?_listedOpcode (opcode : Option Opcode) :
    Opcode.ofBits? ((opcode.map Opcode.bits).getD idleOpcode) = some (listedOpcode opcode) := by
  rcases opcode with _ | op
  · decide
  · cases op <;> decide

theorem bits_listedOpcode (opcode : Option Opcode) :
    (listedOpcode opcode).bits = (opcode.map Opcode.bits).getD idleOpcode := by
  rcases opcode with _ | op
  · rfl
  · cases op <;> rfl

/-- The fields as the bits of a word tell them, for a word that is listed under the opcode. -/
def Fields.told (f : Fields) (op : Opcode) : Fields :=
  let dest := some (heldValue fieldWidth f.dest)
  let src1 := some (heldValue fieldWidth f.src1)
  let last := heldValue fieldWidth f.last
  match op with
  | .add | .sub | .and | .or => { dest, src1, src2 := some last }
  | .addi => { dest, src1, immediate := some last }
  | .ldi | .mov => { dest, immediate := some last }
  | .load => { dest, src1 }
  | .store => { src1, src2 := some last }
  | .brz => { src1, address := some (signedField last) }
  | .jmp => { src1 }
  | .nop => {}

theorem isRegister_heldValue (value : Option Int) : IsRegister (heldValue fieldWidth value) :=
  ⟨Int.emod_nonneg _ (by decide), Int.emod_lt_of_pos _ (by decide)⟩

theorem isShort_signedField {v : Int} (r : IsRegister v) : IsShort (signedField v) := by
  obtain ⟨low, high⟩ := r
  have : v < 8 := high
  apply Numeral.lt_ceiling
  unfold signedField
  split <;> omega

theorem laid_told (f : Fields) (op : Opcode) : (f.told op).Laid (some op) := by
  have r (value : Option Int) := isRegister_heldValue value
  have s (value : Option Int) : IsShort (heldValue fieldWidth value) := (r value).short
  cases op with
  | add | sub | and | or => exact .ternary (by simp) (by simp [r]) (by simp [r]) (by simp [r])
  | addi => exact .addi (r _) (r _) (s _)
  | ldi | mov => exact .immediate (by simp) (r _) (s _)
  | load => exact .load (r _) (r _)
  | store => exact .store (r _) (r _)
  | brz => exact .brz (r _) (isShort_signedField (r _))
  | jmp => exact .jmp (r _)
  | nop => exact .idle (by simp)

theorem filled_told (f : Fields) (op : Opcode) : (f.told op).filled op = f.told op := by
  cases op <;> rfl

theorem fieldBits_congr {a b : Option Int} (same : heldValue fieldWidth a = heldValue fieldWidth b) :
    fieldBits fieldWidth a = fieldBits fieldWidth b := by
  rw [fieldBits_eq_lowBits (by decide), fieldBits_eq_lowBits (by decide), same]

theorem heldValue_heldValue (value : Option Int) :
    heldValue fieldWidth (some (heldValue fieldWidth value)) = heldValue fieldWidth value :=
  Int.emod_emod_of_dvd _ (dvd_refl _)

theorem heldValue_signedField (value : Option Int) :
    heldValue fieldWidth (some (signedField (heldValue fieldWidth value))) =
      heldValue fieldWidth value := by
  obtain ⟨low, high⟩ := isRegister_heldValue value
  have high : heldValue fieldWidth value < 8 := high
  generalize heldValue fieldWidth value = v at low high ⊢
  show signedField v % 8 = v
  unfold signedField
  split <;> omega

theorem wordBits_told {opcode : Option Opcode} {f : Fields} (laid : f.Laid opcode) (bits : Text) :
    let g := f.told (listedOpcode opcode)
    wordBits bits g.dest g.src1 g.last = wordBits bits f.dest f.src1 f.last := by
  have parts : let g := f.told (listedOpcode opcode)
      heldValue fieldWidth g.dest = heldValue fieldWidth f.dest ∧
      heldValue fieldWidth g.src1 = heldValue fieldWidth f.src1 ∧
      heldValue fieldWidth g.last = heldValue fieldWidth f.last := by
    cases laid with
    | ternary kind =>
      rcases kind with rfl | rfl | rfl | rfl <;>
        exact ⟨heldValue_heldValue _, heldValue_heldValue _, heldValue_heldValue _⟩
    | immediate kind =>
      rcases kind with rfl | rfl <;> exact ⟨heldValue_heldValue _, rfl, heldValue_heldValue _⟩
    | addi => exact ⟨heldValue_heldValue _, heldValue_heldValue _, heldValue_heldValue _⟩
    | load => exact ⟨heldValue_heldValue _, heldValue_heldValue _, rfl⟩
    | store => exact ⟨rfl, heldValue_heldValue _, heldValue_heldValue _⟩
    | brz => exact ⟨rfl, heldValue_heldValue _, heldValue_signedField _⟩
    | jmp => exact ⟨rfl, heldValue_heldValue _, rfl⟩
    | idle kind => rcases kind with rfl | rfl <;> exact ⟨rfl, rfl, rfl⟩
  obtain ⟨dest, src1, last⟩ := parts
  simp only [wordBits, fieldBits_congr dest, fieldBits_congr src1, fieldBits_congr last]

theorem parts_wordBits {bits : Text} (width : bits.length = opcodeWidth) (dest src1 last : Option Int) :
    (wordBits bits dest src1 last).take opcodeWidth = bits ∧
      ((wordBits bits dest src1 last).drop 7).take fieldWidth = fieldBits fieldWidth dest ∧
      ((wordBits bits dest src1 last).drop 10).take fieldWidth = fieldBits fieldWidth src1 ∧
      (wordBits bits dest src1 last).drop 13 = fieldBits fieldWidth last := by
  have width : bits.length = 7 := width
  have field := length_fieldBits fieldWidth
  refine ⟨?_, ?_, ?_, ?_⟩
  · simp [wordBits, List.append_assoc, opcodeWidth, ← width]
  · rw [wordBits, List.append_assoc, List.append_assoc, List.drop_left' width, List.take_left' (field _)]
  · rw [wordBits, List.append_assoc, List.drop_left' (by simp [width, fieldWidth]),
      List.take_left' (field _)]
  · rw [wordBits, List.drop_left' (by simp [width, fieldWidth])]

theorem wordText_wordBits {bits : Text} {op : Opcode} (width : bits.length = opcodeWidth)
    (known : Opcode.ofBits? bits = some op) (f : Fields) :
    wordText (wordBits bits f.dest f.src1 f.last) =
      .ok (lineText op ((f.told op).words op)) := by
  obtain ⟨code, dest, src1, last⟩ := parts_wordBits width f.dest f.src1 f.last
  have width : bits.length = 7 := width
  have whole : (wordBits bits f.dest f.src1 f.last).length = wordWidth := by
    simp [wordBits, width, fieldWidth, wordWidth]
  have last : ((wordBits bits f.dest f.src1 f.last).drop 13).take fieldWidth =
      fieldBits fieldWidth f.last := by
    rw [last, List.take_of_length_le (by simp)]
  have read (value : Option Int) :
      Numeral.read .binary (fieldBits fieldWidth value) = .ok (heldValue fieldWidth value) :=
    read_fieldBits (by decide) (by decide) value
  have told : op.render (some (heldValue fieldWidth f.dest)) (some (heldValue fieldWidth f.src1))
      (some (heldValue fieldWidth f.last)) (some (heldValue fieldWidth f.last))
      (some (signedField (heldValue fieldWidth f.last))) = .ok (lineText op ((f.told op).words op)) := by
    rw [← render_eq (laid_told f op).writable op]
    cases op <;> rfl
  rw [wordText, if_neg (by simp [whole]), code, known, dest, src1, last, read, read, read]
  exact told

end Assembly

open Assembly

def Instruction.listedText (i : Instruction) : Text :=
  lineText (listedOpcode i.opcode) ((i.fields.told (listedOpcode i.opcode)).words (listedOpcode i.opcode))

def Instruction.listed (i : Instruction) (index : Nat) : ListingLine where
  index
  hex := hexWord (Numeral.digitsValue 2 (i.binary.map Numeral.bitValue))
  text := i.listedText

/-- The second instruction is the one that the listed line of the first is assembled to: it has the same
word and the fields that the word tells. -/
structure Instruction.Relisted (i j : Instruction) : Prop where
  assembled : j.IsAssembled
  opcode : j.opcode = some (listedOpcode i.opcode)
  fields : j.fields = i.fields.told (listedOpcode i.opcode)
  binary : j.binary = i.binary

namespace Instruction.IsAssembled
variable {i : Instruction}

theorem wordText_eq (assembled : i.IsAssembled) : wordText i.binary = .ok i.listedText := by
  have width : ((i.opcode.map Opcode.bits).getD idleOpcode).length = opcodeWidth := by
    rw [← bits_listedOpcode]
    cases listedOpcode i.opcode <;> rfl
  rw [assembled.binary_eq]
  exact wordText_wordBits width (ofBits?_listedOpcode i.opcode) i.fields

theorem isBits_binary (assembled : i.IsAssembled) : IsBits i.binary := by
  have code : IsBits ((i.opcode.map Opcode.bits).getD idleOpcode) := by
    rw [← bits_listedOpcode]
    have plain : (listedOpcode i.opcode).bits.all (fun c => c == '0' || c == '1') = true := by
      cases listedOpcode i.opcode <;> decide
    intro c member
    simpa using List.all_eq_true.1 plain c member
  have field := isBits_fieldBits fieldWidth
  rw [assembled.binary_eq]
  intro c member
  simp only [wordBits, List.mem_append] at member
  rcases member with ((member | member) | member) | member
  · exact code c member
  · exact field _ c member
  · exact field _ c member
  · exact field _ c member

theorem length_binary (assembled : i.IsAssembled) : i.binary.length = wordWidth := by
  have width : ((i.opcode.map Opcode.bits).getD idleOpcode).length = 7 := by
    rw [← bits_listedOpcode]
    cases listedOpcode i.opcode <;> rfl
  simp [assembled.binary_eq, wordBits, width, fieldWidth, wordWidth]

theorem listingLine_eq (assembled : i.IsAssembled) (index : Nat) :
    listingLine index i = .ok (i.listed index) := by
  have some : i.binary ≠ [] := by
    apply List.ne_nil_of_length_pos
    simp [assembled.length_binary, wordWidth]
  rw [listingLine, Instruction.hex, Numeral.read_bits assembled.isBits_binary some,
    assembled.wordText_eq]
  rfl

theorem assembleLine_listedText (assembled : i.IsAssembled) (line index : Nat) :
    ∃ again, assembleLine i.listedText line index = pure again ∧ i.Relisted again := by
  have laid := laid_told i.fields (listedOpcode i.opcode)
  refine ⟨_, assembleLine_lineText laid line index, ?_⟩
  rw [filled_told]
  refine ⟨isAssembled_instruction laid, rfl, rfl, ?_⟩
  rw [assembled.binary_eq]
  show wordBits (listedOpcode i.opcode).bits _ _ _ = _
  rw [bits_listedOpcode]
  exact wordBits_told assembled.laid _

end Instruction.IsAssembled

theorem listing_eq {program : List Instruction} (assembled : ∀ i ∈ program, i.IsAssembled) :
    listing program 0 program.length = .ok (program.zipIdx.map fun item => item.1.listed item.2) := by
  have whole : (program.take ((0 : Int) + program.length).toNat).drop (0 : Int).toNat = program := by
    simp
  simp only [listing, whole]
  apply mapM_eq_ok
  intro item member
  have inside : item.1 ∈ program := List.mem_of_getElem? (List.mem_zipIdx_iff_getElem?.1 member)
  exact (assembled item.1 inside).listingLine_eq item.2

theorem listedText_congr {i j : Instruction} (first : i.IsAssembled) (second : j.IsAssembled)
    (same : i.binary = j.binary) : i.listedText = j.listedText := by
  have shown := first.wordText_eq
  rw [same, second.wordText_eq] at shown
  exact (Except.ok.inj shown).symm

theorem texts_listed (program : List Instruction) :
    (program.zipIdx.map fun item => item.1.listed item.2).map (·.text) =
      program.map (·.listedText) := by
  rw [List.map_map]
  show program.zipIdx.map ((·.listedText) ∘ Prod.fst) = _
  rw [← List.map_map, List.zipIdx_map_fst]

theorem assembleLines_listed {program : List Instruction}
    (assembled : ∀ i ∈ program, i.IsAssembled) (line index : Nat) :
    ∃ again, assembleLines line index (program.map (·.listedText)) = pure again ∧
      List.Forall₂ Instruction.Relisted program again := by
  induction program generalizing line index with
  | nil => exact ⟨[], rfl, .nil⟩
  | cons i program ih =>
    have here := assembled i (by simp)
    obtain ⟨others, rest, made⟩ :=
      ih (fun j member => assembled j (by simp [member])) (line + 1) (index + 1)
    obtain ⟨first, head, relisted⟩ := here.assembleLine_listedText line index
    have single : IsLine i.listedText := isLine_lineText _ fun w => isWord_of_mem_words
    refine ⟨first :: others, ?_, .cons relisted made⟩
    rw [List.map_cons, assembleLines]
    simp only [single.trimmed, single.code, head, rest]
    rfl

theorem assemble_listed {program : List Instruction} (assembled : ∀ i ∈ program, i.IsAssembled) :
    ∃ again, (assemble (Text.joined ['\n'] (program.map (·.listedText)))).outcome = .ok again ∧
      List.Forall₂ Instruction.Relisted program again := by
  obtain ⟨again, made, relisted⟩ := assembleLines_listed assembled 1 0
  refine ⟨again, ?_, relisted⟩
  by_cases empty : program = []
  · subst empty
    cases relisted
    rfl
  · have split : Text.lines (Text.joined ['\n'] (program.map (·.listedText))) =
        program.map (·.listedText) := by
      refine Text.lines_joined (by simpa using empty) ?_
      intro t member
      obtain ⟨i, -, rfl⟩ := List.mem_map.1 member
      exact (isLine_lineText _ fun w => isWord_of_mem_words).single
    rw [assemble, split, made]
    rfl

section
variable {program again : List Instruction} (relisted : List.Forall₂ Instruction.Relisted program again)

include relisted

theorem assembled_relisted : ∀ i ∈ again, i.IsAssembled := by
  induction relisted with
  | nil => simp
  | cons here _ ih => simpa using ⟨here.assembled, ih⟩

theorem words_relisted : again.map (·.binary) = program.map (·.binary) := by
  induction relisted with
  | nil => rfl
  | cons here _ ih => simp [here.binary, ih]

theorem texts_relisted (assembled : ∀ i ∈ program, i.IsAssembled) :
    again.map (·.listedText) = program.map (·.listedText) := by
  induction relisted with
  | nil => rfl
  | cons here _ ih =>
    have same := listedText_congr here.assembled (assembled _ (by simp)) here.binary
    simp [same, ih fun i member => assembled i (by simp [member])]

end

theorem not_data_listedText (i : Instruction) : ¬ "DW".toList <+: i.listedText := by
  have apart (op : Opcode) : ¬ "DW".toList <+: op.name ∧ 2 ≤ op.name.length := by
    cases op <;> exact ⟨by decide, by decide⟩
  have whole (op : Opcode) (words : List Text) : ¬ "DW".toList <+: lineText op words := by
    obtain ⟨different, long⟩ := apart op
    cases words with
    | nil => exact different
    | cons w words =>
      intro starts
      rw [lineText] at starts
      · exact different (List.prefix_of_prefix_length_le starts (List.prefix_append _ _) long)
      · simp
  exact whole _ _

/-- A listing of an assembled program is again the source of a program of the same words, one line for
each instruction and none of them data, and that program has the same listing. -/
theorem listing_assembled {source : Text} {program : List Instruction}
    (assembled : (assemble source).outcome = .ok program) :
    ∃ lines, listing program 0 program.length = .ok lines ∧ lines.length = program.length ∧
      (∀ line ∈ lines, ¬ "DW".toList <+: line.text) ∧
      ∃ again, (assemble (Text.joined ['\n'] (lines.map (·.text)))).outcome = .ok again ∧
        again.length = program.length ∧ again.map (·.binary) = program.map (·.binary) ∧
        (∀ i ∈ again, i.binary.length = wordWidth) ∧
        ∃ relisted, listing again 0 again.length = .ok relisted ∧
          relisted.map (·.text) = lines.map (·.text) := by
  have solid := isAssembled_of_assemble assembled
  obtain ⟨again, reread, relisted⟩ := assemble_listed solid
  have sound := assembled_relisted relisted
  refine ⟨_, listing_eq solid, by simp, ?_, again, ?_, relisted.length_eq.symm, words_relisted relisted,
    fun i member => (sound i member).length_binary, _, listing_eq sound, ?_⟩
  · intro line member
    obtain ⟨item, -, rfl⟩ := List.mem_map.1 member
    exact not_data_listedText item.1
  · rwa [texts_listed]
  · rw [texts_listed, texts_listed, texts_relisted relisted solid]

theorem listing_assembled_move :
    let program := [instruction "MOV".toList "mov r9, -1".toList 1 0 (some .mov)
      { dest := some 1, immediate := some (-1) }]
    (assemble " mov r9, -1 ".toList).outcome = .ok program ∧
      ∃ lines, listing program 0 1 = .ok lines ∧ lines.length = 1 ∧
        ∃ again, (assemble (Text.joined ['\n'] (lines.map (·.text)))).outcome = .ok again ∧
          again.map (·.binary) = program.map (·.binary) := by
  have made : (assemble " mov r9, -1 ".toList).outcome = .ok [instruction "MOV".toList
      "mov r9, -1".toList 1 0 (some .mov) { dest := some 1, immediate := some (-1) }] := by rfl
  obtain ⟨lines, shown, length, -, again, read, -, words, -⟩ := listing_assembled made
  exact ⟨made, lines, shown, length, again, read, words⟩

end StageMachine
