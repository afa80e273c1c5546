import Mathlib.Data.List.Forall2
import Realms.ModuleRecord
import Realms.Proofs.Script.Items
import Realms.Proofs.Script.Statements

/-!
Generated lines read back. Lines that are imports, exported constants, calls and texts are read one by one, without a
flaw as long as no name is exported twice, and the record of a module of lines holds what they say. Lines stand apart
from whatever is behind them.
-/
namespace Realms.Script

open Grammar Reading
open Realms.Text (isIdentifierName)

/-- A line of generated code. -/
inductive Line where
  | taken (imported bound specifier : String) (written : List Char)
  | whole (bound specifier : String) (written : List Char)
  | constant (name : String) (written : List Char) (value : Expr)
  /-- A value that is a statement by itself. -/
  | alone (written : List Char) (value : Expr)

namespace Line

def text : Line → List Char
  | taken imported bound _ written => importText imported bound written
  | whole bound _ written => importWholeText bound written
  | constant name written _ => constantText name written
  | alone written _ => written ++ [';']

def stmt (start : Nat) : Line → Stmt
  | taken imported bound specifier _ => importOf start imported bound specifier
  | whole bound specifier _ => importWholeOf start bound specifier
  | constant name _ value => Script.constant start name value
  | alone _ value => .expression value

def specifiers : Line → List String
  | taken _ _ specifier _ | whole _ specifier _ => [specifier]
  | constant _ _ _ | alone _ _ => []

def names : Line → List String
  | constant name _ _ => [name]
  | taken _ _ _ _ | whole _ _ _ | alone _ _ => []

/-- The parts of a line are read as they are written. -/
inductive Reads : Line → Prop
  | taken {imported bound specifier : String} {written : List Char}
      (identifier : isIdentifierName imported.toList = true) (notType : imported ≠ "type") (bindable : IsBindable bound)
      (quotes : Quotes written specifier) : Reads (.taken imported bound specifier written)
  | whole {bound specifier : String} {written : List Char} (bindable : IsBindable bound)
      (quotes : Quotes written specifier) : Reads (.whole bound specifier written)
  | constant {name : String} {written : List Char} {value : Expr} (bindable : IsBindable name)
      (writes : Writes written value) : Reads (.constant name written value)
  | call {name : String} {texts : List (List Char)} {values : List Expr} (ordinary : IsOrdinary name)
      (nonempty : texts ≠ []) (each : List.Forall₂ Writes texts values) :
      Reads (.alone (name.toList ++ arguments texts) (.call (.name name) values))
  | text {written : List Char} {value : String} (quotes : Quotes written value) :
      Reads (.alone ('"' :: written ++ ['"']) (.text value))

def Is (line : Line) (stmt : Stmt) : Prop := ∃ start, stmt = line.stmt start

/-- The reader behind a line. -/
def noted (types : Bool) (r : Reader) : Line → Reader
  | constant name _ _ => r.exporting types name
  | taken _ _ _ _ | whole _ _ _ | alone _ _ => r

/-- The directives among lines: the texts in front of every other line. -/
def directives : List Line → List String
  | alone _ (.text value) :: lines => value :: directives lines
  | _ => []

/-- The statements of lines behind one another, from the place of the first one on. -/
def stmts (start : Nat) : List Line → List Stmt
  | [] => []
  | line :: lines => line.stmt start :: stmts (start + byteCount line.text + 1) lines

end Line

def lineTexts (lines : List Line) : List Char := lines.flatMap fun line => line.text ++ ['\n']

variable {n rounds : Nat} {s : Setting} {r : Reader} {space rest : List Char} {line : Line} {lines : List Line}

theorem lineTexts_cons (line : Line) (lines : List Line) (rest : List Char) :
    lineTexts (line :: lines) ++ rest = line.text ++ (['\n'] ++ (lineTexts lines ++ rest)) := by
  simp [lineTexts]

theorem byteCount_append (front rest : List Char) : byteCount (front ++ rest) = byteCount front + byteCount rest := by
  induction front with
  | nil => simp [byteCount]
  | cons c front ih =>
      rw [List.cons_append, byteCount, byteCount, ih]
      omega

namespace Line.Reads

theorem front (reads : line.Reads) : ∃ c more, line.text = c :: more ∧ opensLexeme c = true := by
  cases reads with
  | taken => exact ⟨'i', _, rfl, by decide⟩
  | whole => exact ⟨'i', _, rfl, by decide⟩
  | constant => exact ⟨'e', _, rfl, by decide⟩
  | call ordinary =>
      obtain ⟨c, more, spelled, start⟩ := name_front ordinary.identifier
      exact ⟨c, _, by rw [Line.text, spelled]; rfl, opensLexeme_of_start start⟩
  | text => exact ⟨'"', _, rfl, by decide⟩

theorem starts (reads : line.Reads) (skips : Space space) (rest : List Char) :
    ∃ lexeme behind, Starts (space ++ (line.text ++ rest)) lexeme behind ∧ lexeme ≠ .ending := by
  have word (word : String) (identifier : isIdentifierName word.toList = true) {c : Char} {more : List Char}
      (ends : endsName [c] = true) (spelled : line.text = word.toList ++ c :: more) :
      ∃ lexeme behind, Starts (space ++ (line.text ++ rest)) lexeme behind ∧ lexeme ≠ .ending := by
    have starts : Starts (word.toList ++ c :: (more ++ rest)) (.word word false) (c :: (more ++ rest)) :=
      starts_name identifier ends
    rw [spelled, List.append_assoc, List.cons_append]
    exact ⟨_, _, starts.after skips, nofun⟩
  cases reads with
  | taken => exact word "import" (by decide) rfl rfl
  | whole => exact word "import" (by decide) rfl rfl
  | constant => exact word "export" (by decide) rfl rfl
  | call ordinary => exact word _ ordinary.identifier (c := '(') rfl (List.append_assoc _ _ _)
  | text quotes =>
      have starts := (starts_text quotes (';' :: rest)).after skips
      rw [Line.text, List.append_assoc, List.append_assoc]
      exact ⟨_, _, starts, nofun⟩

theorem placeOf (reads : line.Reads) (skips : Space space) (rest : List Char) :
    s.placeOf (space ++ (line.text ++ rest)) = s.size - byteCount (line.text ++ rest) := by
  obtain ⟨c, more, spelled, opens⟩ := reads.front
  rw [spelled, List.cons_append, Setting.placeOf, nextToken_start skips opens]

/-- A line is read as its statement, which starts where the line does. -/
theorem read (reads : line.Reads) (skips : Space space) (real : s.ambient = false) (deep : 4 * line.text.length + 2 ≤ n)
    (rest : List Char) :
    readAt n (.statement false) s (r.goTo (space ++ (line.text ++ rest))) =
      some (line.stmt (s.size - byteCount (line.text ++ rest)), (line.noted s.types r).goTo rest) := by
  rw [← reads.placeOf skips rest]
  cases reads with
  | taken identifier notType bindable quotes =>
      exact import_reads identifier notType bindable quotes skips (by omega) rest
  | whole bindable quotes => exact importWhole_reads bindable quotes skips (by omega) rest
  | constant bindable writes =>
      refine constant_reads bindable writes skips real ?_ rest
      rw [Line.text] at deep
      omega
  | call ordinary nonempty each =>
      rw [Line.text, List.length_append, List.length_singleton] at deep
      rw [Line.text, List.append_assoc _ [';']]
      exact call_reads ordinary nonempty each skips real (by omega) rest
  | text quotes =>
      rw [Line.text, List.length_append, List.length_singleton] at deep
      rw [Line.text, List.append_assoc _ [';']]
      exact text_reads quotes skips real (by omega) rest

end Line.Reads

theorem ending_space (skips : Space space) : (r.goTo space).token.lexeme = .ending := by
  obtain ⟨ends, skipped⟩ := skips false []
  rw [List.append_nil] at skipped
  have none : skipSpace .plain ends [] = ⟨ends, false, []⟩ := rfl
  simp [Reader.goTo, nextToken, skipped, none, scan]

theorem Space.lineEnd : Space ['\n'] := IsLayout.space (by simp [IsLayout])

/-- Line after line: the induction is on the lines, and the place of each one is where those in front of it end. -/
theorem lines_pass (each : ∀ line ∈ lines, line.Reads) (skips : Space space) (real : s.ambient = false)
    (deep : 4 * (lineTexts lines).length + 2 ≤ n) {start : Nat} (rest : List Char)
    (size : s.size = start + byteCount (lineTexts lines ++ rest)) :
    ∃ behind, Space behind ∧ Passes n s (r.goTo (space ++ (lineTexts lines ++ rest))) (Line.stmts start lines)
      ((lines.foldl (Line.noted s.types) r).goTo (behind ++ rest)) := by
  induction lines generalizing space r start with
  | nil => exact ⟨space, skips, .none _⟩
  | cons line lines ih =>
      rw [lineTexts_cons] at size ⊢
      have length : (lineTexts (line :: lines)).length = line.text.length + 1 + (lineTexts lines).length := by
        simp [lineTexts]
        omega
      have reads := each line List.mem_cons_self
      have place : s.size - byteCount (line.text ++ (['\n'] ++ (lineTexts lines ++ rest))) = start := by omega
      have first := reads.read (n := n) (r := r) skips real (by omega) (['\n'] ++ (lineTexts lines ++ rest))
      rw [place] at first
      have lineEnd : byteCount ['\n'] = 1 := rfl
      rw [byteCount_append, byteCount_append, lineEnd] at size
      have next : s.size = start + byteCount line.text + 1 + byteCount (lineTexts lines ++ rest) := by omega
      obtain ⟨behind, ends, later⟩ := ih (r := line.noted s.types r)
        (fun line member => each line (List.mem_cons_of_mem _ member)) .lineEnd (by omega) next
      obtain ⟨lexeme, _, starts, notEnding⟩ := reads.starts skips (['\n'] ++ (lineTexts lines ++ rest))
      refine ⟨behind, ends, .next ?_ first later⟩
      rw [starts.lexeme_goTo]
      exact notEnding

/-- Nothing is noted of lines but the names of their constants. -/
theorem foldl_noted (types : Bool) (lines : List Line) (r : Reader) :
    (lines.foldl (Line.noted types) r).calls = r.calls ∧ (lines.foldl (Line.noted types) r).defaults = r.defaults ∧
      ((lines.flatMap Line.names).Nodup → (∀ name ∈ lines.flatMap Line.names, name ∉ r.exported) →
        (lines.foldl (Line.noted types) r).flawed = r.flawed) := by
  induction lines generalizing r with
  | nil => exact ⟨rfl, rfl, fun _ _ => rfl⟩
  | cons line lines ih =>
      obtain ⟨calls, defaults, flawed⟩ := ih (line.noted types r)
      rw [List.foldl_cons, calls, defaults]
      cases line with
      | constant name written value =>
          refine ⟨rfl, rfl, fun nodup new => ?_⟩
          simp only [List.flatMap_cons, Line.names, List.singleton_append, List.nodup_cons, List.forall_mem_cons]
            at nodup new
          have unflawed : (r.exporting types name).flawed = r.flawed := by simp [Reader.exporting, new.1]
          refine (flawed nodup.2 fun other member within => ?_).trans unflawed
          rcases List.mem_cons.mp within with rfl | earlier
          · exact nodup.1 member
          · exact new.2 other member earlier
      | taken => exact ⟨rfl, rfl, flawed⟩
      | whole => exact ⟨rfl, rfl, flawed⟩
      | alone => exact ⟨rfl, rfl, flawed⟩

theorem Line.stmts_are (start : Nat) (lines : List Line) : List.Forall₂ Line.Is lines (Line.stmts start lines) := by
  induction lines generalizing start with
  | nil => exact .nil
  | cons line lines ih => exact .cons ⟨start, rfl⟩ (ih _)

theorem Line.stmts_length (start : Nat) (lines : List Line) : (Line.stmts start lines).length = lines.length :=
  (Line.stmts_are start lines).length_eq.symm

theorem length_le_lineTexts (lines : List Line) : lines.length ≤ (lineTexts lines).length := by
  induction lines with
  | nil => exact Nat.zero_le _
  | cons line lines ih =>
      simp only [lineTexts, List.flatMap_cons, List.length_append, List.length_cons] at ih ⊢
      omega

theorem leadingTexts_lines {stmts : List Stmt} (are : List.Forall₂ Line.Is lines stmts) :
    leadingTexts stmts = Line.directives lines := by
  induction are with
  | nil => rfl
  | @cons line stmt lines stmts is _ ih =>
      obtain ⟨start, rfl⟩ := is
      cases line with
      | alone written value =>
          cases value with
          | text value => exact congrArg (value :: ·) ih
          | _ => rfl
      | _ => rfl

theorem skipInterpreter_eq {text : List Char} (noInterpreter : text.head? ≠ some '#') :
    skipInterpreter text = text := by
  unfold skipInterpreter
  split
  · exact absurd rfl noInterpreter
  · rfl

/-- A text that begins with lines is read line by line, whatever space is in front of it. -/
theorem lines_passText (types : Bool) {text : List Char} (spelled : text = space ++ (lineTexts lines ++ rest))
    (skips : Space space) (noInterpreter : text.head? ≠ some '#') (each : ∀ line ∈ lines, line.Reads) :
    ∃ behind, Space behind ∧ PassesText types text (Line.stmts (byteCount space) lines)
      ((lines.foldl (Line.noted types) (Reader.start [])).goTo (behind ++ rest)) := by
  have size : (lineTexts lines).length ≤ text.length := by
    rw [spelled, List.length_append, List.length_append]
    omega
  have deep : 4 * (lineTexts lines).length + 2 ≤ depthFor text.length := by
    rw [depthFor]
    omega
  have place : (moduleSetting types (byteCount text)).size = byteCount space + byteCount (lineTexts lines ++ rest) := by
    rw [← byteCount_append, ← spelled]
    rfl
  have passes := lines_pass (r := Reader.start []) each skips rfl deep rest place
  rw [← spelled] at passes
  rw [PassesText, skipInterpreter_eq noInterpreter]
  exact passes

/-- Lines are read alike alone and in front of anything. -/
theorem lines_standApart (types : Bool) {source behind : List Char} (spelled : source = space ++ lineTexts lines)
    (skips : Space space) (noInterpreter : (source ++ behind).head? ≠ some '#') (each : ∀ line ∈ lines, line.Reads) :
    StandsApart types source behind := by
  intro stmts last passes ends
  have alone : source.head? ≠ some '#' := by
    intro interpreter
    rw [List.head?_append, interpreter] at noInterpreter
    exact noInterpreter rfl
  have spelledAlone : source = space ++ (lineTexts lines ++ []) := by rw [List.append_nil, spelled]
  obtain ⟨between, between_space, passesAlone⟩ := lines_passText types spelledAlone skips alone each
  rw [List.append_nil] at passesAlone
  obtain ⟨rfl, rfl⟩ := Passes.unique passes ends passesAlone (ending_space between_space)
  have spelledBefore : source ++ behind = space ++ (lineTexts lines ++ behind) := by rw [spelled, List.append_assoc]
  exact lines_passText types spelledBefore skips noInterpreter each

/-- A text of lines is read to its end. -/
theorem readText_lines (types : Bool) {text : List Char} (spelled : text = space ++ lineTexts lines)
    (skips : Space space) (noInterpreter : text.head? ≠ some '#') (each : ∀ line ∈ lines, line.Reads)
    (nodup : (lines.flatMap Line.names).Nodup) (plain : Line.directives lines = []) :
    ∃ stmts, readText types text = some ⟨⟨[], stmts, []⟩, false⟩ ∧ List.Forall₂ Line.Is lines stmts := by
  have spelledAlone : text = space ++ (lineTexts lines ++ []) := by rw [List.append_nil, spelled]
  obtain ⟨behind, behind_space, passes⟩ := lines_passText types spelledAlone skips noInterpreter each
  rw [List.append_nil] at passes
  obtain ⟨calls, defaults, flawed⟩ := foldl_noted types lines (Reader.start [])
  have count := length_le_lineTexts lines
  have enough : (Line.stmts (byteCount space) lines).length < depthFor text.length := by
    rw [Line.stmts_length, depthFor, spelled, List.length_append]
    omega
  have are := Line.stmts_are (byteCount space) lines
  refine ⟨_, ?_, are⟩
  have read := readText_passes passes (ending_space behind_space) enough
  have noDirectives : leadingTexts (Line.stmts (byteCount space) lines) = [] := (leadingTexts_lines are).trans plain
  have unflawed := flawed nodup fun _ _ => nofun
  rw [read, SourceRead.ofStatements, noDirectives]
  simp only [Reader.goTo, calls, defaults, unflawed]
  rfl

end Realms.Script

namespace Realms

open Script

/-- What a surface holds if all it has are imports of these modules and variables of these names. -/
structure Surface.Holds (surface : Surface) (specifiers names : List String) : Prop where
  imports : (surface.imports.map fun found => (found.specifier, found.kind)) = specifiers.map (·, .static)
  exports : (surface.exports.map fun found => (found.name, found.kind)) = names.map (·, .binding)
  defaultExport : surface.defaultExport = none
  starExports : surface.starExports = []

namespace Surface

variable {specifiers names : List String} {lines : List Line} {stmts : List Stmt}

theorem Holds.append {a b : Surface} {specifiers' names' : List String} (first : a.Holds specifiers names)
    (second : b.Holds specifiers' names') : (a.append b).Holds (specifiers ++ specifiers') (names ++ names') where
  imports := by simp [Surface.append, first.imports, second.imports]
  exports := by simp [Surface.append, first.exports, second.exports]
  defaultExport := by simp [Surface.append, first.defaultExport, second.defaultExport]
  starExports := by simp [Surface.append, first.starExports, second.starExports]

theorem ofStatement_line (locate : Nat → Location) (start : Nat) (line : Line) :
    (ofStatement locate (line.stmt start)).Holds line.specifiers line.names := by
  cases line with
  | taken => exact ⟨rfl, rfl, rfl, rfl⟩
  | whole => exact ⟨rfl, rfl, rfl, rfl⟩
  | constant => exact ⟨rfl, rfl, rfl, rfl⟩
  | alone => exact ⟨rfl, rfl, rfl, rfl⟩

theorem ofStatements_lines (locate : Nat → Location) (are : List.Forall₂ Line.Is lines stmts) :
    (ofStatements locate stmts).Holds (lines.flatMap Line.specifiers) (lines.flatMap Line.names) := by
  have onward (surface : Surface) (specifiers names : List String) (holds : surface.Holds specifiers names) :
      (stmts.foldl (fun surface statement => surface.append (ofStatement locate statement)) surface).Holds
        (specifiers ++ lines.flatMap Line.specifiers) (names ++ lines.flatMap Line.names) := by
    induction are generalizing surface specifiers names with
    | nil => simpa using holds
    | @cons line _ _ _ is _ ih =>
        obtain ⟨start, rfl⟩ := is
        have next := ih _ _ _ (holds.append (ofStatement_line locate start line))
        simpa only [List.append_assoc, List.flatMap_cons, List.foldl_cons] using next
  exact onward empty [] [] ⟨rfl, rfl, rfl, rfl⟩

end Surface

namespace ModuleRecord

/-- What a record holds of the imports and exports of its module. -/
def surface (record : ModuleRecord) : Surface :=
  ⟨record.imports, record.exports, record.defaultExport, record.starExports⟩

/-- A module of lines has no directive, and its record holds the imports and the names of the lines. -/
theorem parse?_lines (path : ModulePath) {code : String} {space : List Char} {lines : List Line}
    (spelled : code.toList = space ++ lineTexts lines) (skips : Space space)
    (noInterpreter : code.toList.head? ≠ some '#') (each : ∀ line ∈ lines, line.Reads)
    (nodup : (lines.flatMap Line.names).Nodup) (plain : Line.directives lines = []) :
    ∃ stmts, scriptIn? path code.toList = some ⟨[], stmts, []⟩ ∧ List.Forall₂ Line.Is lines stmts ∧
      ∀ shared, ∃ record, parse? shared path code = some record ∧
        record.surface.Holds (lines.flatMap Line.specifiers) (lines.flatMap Line.names) := by
  obtain ⟨stmts, read, are⟩ := readText_lines path.allowsTypes spelled skips noInterpreter each nodup plain
  have kept : scriptIn? path code.toList = some ⟨[], stmts, []⟩ := by simp [scriptIn?, read]
  refine ⟨stmts, kept, are, fun shared => ?_⟩
  have parsed : parse? shared path code = some (ofScript shared path code ⟨[], stmts, []⟩) := by
    simp [parse?, script?, kept]
  refine ⟨_, parsed, ?_⟩
  have holds := Surface.ofStatements_lines (Location.ofOffset code) are
  exact ⟨by simpa [surface, ofScript] using holds.imports, holds.exports, holds.defaultExport, holds.starExports⟩

end ModuleRecord

end Realms
