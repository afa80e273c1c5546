import Realms.Emission.Checked
import Realms.Proofs.Script.Printed

/-!
Printing a module of lines. The comment in front and every line are kept, each in its printed form, so that what was
printed is a module of lines again.
-/
namespace Realms.Emission

open Script

/-- A line for a comment. -/
def commentLine (comment : List Char) : List Char := '/' :: '/' :: comment ++ ['\n']

variable {comment : List Char} {lines printed : List Line}

theorem guardPage_comment : Print.guardPage ('/' :: '/' :: comment) = '/' :: '/' :: Print.guardPage comment := rfl

theorem leadingComments_lines (print : List.Forall₂ Line.Prints lines printed)
    (oneLine : ∀ c ∈ comment, isLineEnd c = false) {rounds : Nat} (more : 2 ≤ rounds) :
    leadingComments rounds (commentLine comment ++ lineTexts lines) = ['/' :: '/' :: comment] := by
  obtain ⟨rounds, rfl⟩ := Nat.exists_eq_add_of_le' more
  have ends : isLineEnd '\n' = true := rfl
  have taken : (comment ++ '\n' :: lineTexts lines).takeWhile (!isLineEnd ·) = comment := by
    rw [List.takeWhile_append_of_pos (by simpa using oneLine)]
    simp [ends]
  have left : (comment ++ '\n' :: lineTexts lines).dropWhile (!isLineEnd ·) = '\n' :: lineTexts lines := by
    rw [List.dropWhile_append_of_pos (by simpa using oneLine)]
    simp [ends]
  have last : leadingComments (rounds + 1) ('\n' :: lineTexts lines) = [] := by
    cases print with
    | nil => rfl
    | cons prints _ =>
        cases prints
        all_goals rfl
  have whole : commentLine comment ++ lineTexts lines = '/' :: '/' :: (comment ++ '\n' :: lineTexts lines) := by
    simp [commentLine]
  have first : Char.isWhitespace '/' = false := rfl
  rw [whole, leadingComments]
  simp [first, taken, left, last]

theorem commentLine_space (oneLine : ∀ c ∈ comment, isLineEnd c = false) : Space (commentLine comment) :=
  Space.comment oneLine

/-- Code that is printed without an error, as a module that has no directive, imports these modules, exports variables
of these names, and neither imports nor exports anything else. -/
def PrintsModule (path : ModulePath) (code : String) (specifiers names : List String) : Prop :=
  ∃ printed, printCode path code = .ok printed ∧
    (ModuleRecord.script? path printed).map Script.directives = some [] ∧
      ∀ shared, ∃ record, ModuleRecord.parse? shared path printed = some record ∧
        record.surface.Holds specifiers names

/-- Code that is printed without an error, as a module of these lines. -/
def PrintsLines (path : ModulePath) (code : String) (lines : List Line) : Prop :=
  ∃ printed stmts, printCode path code = .ok printed ∧ ModuleRecord.script? path printed = some ⟨[], stmts, []⟩ ∧
    List.Forall₂ Line.Is lines stmts ∧ ∀ shared, ∃ record, ModuleRecord.parse? shared path printed = some record ∧
      record.surface.Holds (lines.flatMap Line.specifiers) (lines.flatMap Line.names)

theorem PrintsLines.module {path : ModulePath} {code : String} (prints : PrintsLines path code lines) :
    PrintsModule path code (lines.flatMap Line.specifiers) (lines.flatMap Line.names) := by
  obtain ⟨text, stmts, prints, kept, _, records⟩ := prints
  exact ⟨text, prints, by rw [kept]; rfl, records⟩

/-- A comment and lines are printed as the comment and the lines in their printed form, and read again as these. -/
theorem printsLines {path : ModulePath} {code : String} (spelled : code.toList = commentLine comment ++ lineTexts lines)
    (oneLine : ∀ c ∈ comment, isLineEnd c = false) (each : ∀ line ∈ lines, line.Reads)
    (print : List.Forall₂ Line.Prints lines printed) (again : ∀ line ∈ printed, line.Reads)
    (nodup : (printed.flatMap Line.names).Nodup) : PrintsLines path code printed := by
  have front : code.toList.head? ≠ some '#' := by simp [spelled, commentLine]
  obtain ⟨plain, plainAgain⟩ := Line.Prints.no_directives print
  obtain ⟨stmts, kept, are, _⟩ := ModuleRecord.parse?_lines path spelled (commentLine_space oneLine) front each
    (Line.Prints.all_names print ▸ nodup) plain
  obtain ⟨text, same⟩ : ∃ text, text = commentLine (Print.guardPage comment) ++ lineTexts printed := ⟨_, rfl⟩
  have prints : printCode path code = .ok (String.ofList text) := by
    have longEnough : 2 ≤ code.toList.length := by simp [spelled, commentLine]
    have comments := leadingComments_lines print oneLine longEnough
    rw [← spelled] at comments
    simp [printCode, printText, kept, reprint, comments, Print.script, guardPage_comment, Line.Prints.all print are,
      same, commentLine]
  have spelledAgain : (String.ofList text).toList = text := String.toList_ofList
  obtain ⟨stmts, keptAgain, areAgain, records⟩ := ModuleRecord.parse?_lines path (spelledAgain.trans same)
    (commentLine_space (guardPage_oneLine oneLine)) (by simp [same, commentLine]) again nodup plainAgain
  exact ⟨_, stmts, prints, keptAgain, areAgain, records⟩

end Realms.Emission
