import StageMachine.Proofs.Instruction.Appearance
import StageMachine.Proofs.Session.Move

/-! Programs in files. Reading a file makes a line feed of every carriage return, with the line feed behind it
if there is one. So a program comes out of a file as it was written there, unless one of its carriage returns
stands alone: in a source that is white space inside a line, and in a file it ends the line. -/
namespace StageMachine
namespace Workspace
open Assembly

/-- A file at the path holds the bytes of the text, in UTF-8, and nothing else. -/
def Holds (w : Workspace) (path : PathName) (t : Text) : Prop :=
  w.readBytes path = .ok t.toString.toUTF8

theorem decode_toUTF8 (t : Text) : decode t.toString.toUTF8 = .ok (Text.unifyNewlines t) := by
  have read : String.fromUTF8? t.toString.toUTF8 = some t.toString := dif_pos t.toString.isValidUTF8
  rw [decode, read]
  show Except.ok (Text.unifyNewlines (Text.ofString t.toString)) = _
  rw [Text.ofString_toString]

section
variable {w : Workspace} {path : PathName} {t : Text} (held : w.Holds path t)

include held

theorem readText_of_holds : w.readText path = .ok (Text.unifyNewlines t) := by
  unfold Holds at held
  rw [readText, held, ← decode_toUTF8]
  rfl

theorem assembleFile_of_holds : w.assembleFile path = assemble (Text.unifyNewlines t) := by
  rw [assembleFile, readText_of_holds held]
  rfl

theorem loadFile_of_holds (s : Session) :
    Session.loadFile w path s = Session.load (Text.unifyNewlines t) s := by
  simp only [Session.loadFile, Act.bind_apply, readText_of_holds held, Act.ofExcept_ok]

/-- The program in a file is that of the text whose carriage returns have become line feeds. Where a source is
assembled, the same instructions come out of a file that holds it if and only if the same lines of code do;
and where no carriage return stands alone, nothing at all is changed, also for a session that loads the
file. -/
theorem program_of_file :
    w.assembleFile path = assemble (Text.unifyNewlines t) ∧
    (∀ s, Session.loadFile w path s = Session.load (Text.unifyNewlines t) s) ∧
    (∀ program, (assemble t).outcome = .ok program →
      ((w.assembleFile path).outcome = .ok program ↔
        codeLines 1 (Text.lines (Text.unifyNewlines t)) = codeLines 1 (Text.lines t))) ∧
    (Text.ReturnsPaired t → w.assembleFile path = assemble t ∧
      ∀ program s, (assemble t).outcome = .ok program →
        ∃ after, Session.loadFile w path s = .ok () after ∧ after.engine = s.engine.load program) := by
  have file := assembleFile_of_holds held
  have load := loadFile_of_holds held
  refine ⟨file, load, fun program made => ?_, fun paired => ?_⟩
  · rw [file, ← made]
    exact outcome_eq_iff_codeLines made
  · have same : assemble t = assemble (Text.unifyNewlines t) :=
      assemble_returned (Text.lines_unifyNewlines paired)
    refine ⟨file.trans same.symm, fun program s made => ?_⟩
    rw [load, Session.load_of_ok (same ▸ made)]
    exact ⟨_, rfl, rfl⟩

end

theorem program_of_file_paired :
    let t : Text := "nop\r\n\tadd R1 ; é\r\n".toList
    let w : Workspace := { files := [("p.asm".toList, t.toString.toUTF8)] }
    let path := Text.raw "p.asm".toList
    let program := [instruction "NOP".toList "nop".toList 1 0 (some .nop) {},
      instruction "ADD".toList "add R1 ; é".toList 2 1 (some .add) { dest := some 1 }]
    w.Holds path t ∧ Text.ReturnsPaired t ∧ (assemble t).outcome = .ok program ∧
      (w.assembleFile path).outcome = .ok program ∧
      ∃ s after, Session.loadFile w path s = .ok () after ∧ after.engine.state.program = program := by
  intro t w path program
  have held : w.Holds path t := by
    unfold Workspace.Holds
    rfl
  have paired : Text.ReturnsPaired t := by simp [t, Text.ReturnsPaired]
  have made : (assemble t).outcome = .ok program := by rfl
  obtain ⟨-, -, -, unchanged⟩ := program_of_file held
  obtain ⟨same, loads⟩ := unchanged paired
  obtain ⟨after, done, engine⟩ := loads program { history := { limit := 4 } } made
  exact ⟨held, paired, made, same ▸ made, _, after, done, by rw [engine]; rfl⟩

/-- A carriage return that stands alone is white space in a source, and ends the line in a file. -/
theorem not_program_of_every_file :
    ¬ ∀ (w : Workspace) (path : PathName) (t : Text) (program : List Instruction), w.Holds path t →
      (assemble t).outcome = .ok program → (w.assembleFile path).outcome = .ok program := by
  intro unchanged
  let t : Text := "LDI R1,\r5".toList
  let w : Workspace := { files := [("p.asm".toList, t.toString.toUTF8)] }
  let path := Text.raw "p.asm".toList
  have held : w.Holds path t := by
    unfold Workspace.Holds
    rfl
  have made : (assemble t).outcome = .ok [instruction "LDI".toList t 1 0 (some .ldi)
      { dest := some 1, immediate := some 5 }] := by rfl
  have read := unchanged w path t _ held made
  have cut : (assemble (Text.unifyNewlines t)).outcome = .ok [
      instruction "LDI".toList "LDI R1,".toList 1 0 (some .ldi) { dest := some 1, immediate := some 0 },
      instruction ['5'] ['5'] 2 1 none {}] := by rfl
  rw [assembleFile_of_holds held, cut] at read
  exact absurd (congrArg List.length (Except.ok.inj read)) (by decide)

end Workspace
end StageMachine
