import Mathlib.Data.List.Basic
import Realms.Proofs.Script.Lines
import Realms.Proofs.Script.Places

/-!
Lines put behind a source that stands apart from them. The script of the whole is that of the source with the statements
of the lines behind its own, so its record holds what that of the source does, and the imports of the lines.
-/
namespace Realms

namespace Location

open Script.Reading (byteCount)

/-- What is behind an offset does not matter to its place. -/
theorem walk_append (place : Location) {bytes : Nat} {text : List Char} (within : bytes ≤ byteCount text)
    (more : List Char) : walk place bytes (text ++ more) = walk place bytes text := by
  induction text generalizing place bytes with
  | nil =>
      obtain rfl := Nat.le_zero.mp within
      cases more with
      | nil => rfl
      | cons c more => exact if_pos c.utf8Size_pos
  | cons c text ih =>
      rw [byteCount] at within
      rw [List.cons_append, walk, walk]
      split
      · rfl
      · exact ih (place.step c) (by omega)

theorem ofOffset_append {source whole : String} {more : List Char} (spelled : whole.toList = source.toList ++ more)
    {offset : Nat} (within : offset ≤ byteCount source.toList) : ofOffset whole offset = ofOffset source offset := by
  rw [ofOffset, ofOffset, spelled, walk_append first within]

end Location

namespace Surface

open Script

theorem append_assoc (a b c : Surface) : (a.append b).append c = a.append (b.append c) := by
  simp only [append, List.append_assoc, Surface.mk.injEq, true_and, and_true]
  cases c.defaultExport
  all_goals rfl

theorem empty_append (a : Surface) : empty.append a = a := by
  simp only [append, empty, List.nil_append]
  cases a with
  | mk imports exports defaultExport starExports =>
      cases defaultExport
      all_goals rfl

theorem append_empty (a : Surface) : a.append empty = a := by
  simp only [append, empty, List.append_nil]
  rfl

theorem ofStatements_append (locate : Nat → Location) (front rest : List Stmt) :
    ofStatements locate (front ++ rest) = (ofStatements locate front).append (ofStatements locate rest) := by
  have onward (surface : Surface) (stmts : List Stmt) :
      stmts.foldl (fun surface statement => surface.append (ofStatement locate statement)) surface =
        surface.append (ofStatements locate stmts) := by
    induction stmts generalizing surface with
    | nil => exact (append_empty surface).symm
    | cons stmt stmts ih =>
        rw [ofStatements, List.foldl_cons, List.foldl_cons, ih, ih (empty.append _), empty_append, append_assoc]
  rw [ofStatements, List.foldl_append]
  exact onward _ rest

/-- Only the places that a statement keeps matter to what it imports and exports. -/
theorem ofStatement_congr {locate locate' : Nat → Location} {stmt : Stmt}
    (same : ∀ place ∈ stmt.places, locate place = locate' place) :
    ofStatement locate stmt = ofStatement locate' stmt := by
  cases stmt with
  | importFrom found =>
      have start := same found.start (List.mem_singleton.mpr rfl)
      simp only [ofStatement, start]
  | exportNames found =>
      have start := same found.start List.mem_cons_self
      have names : ∀ name ∈ found.names, ofName locate name = ofName locate' name := by
        intro name member
        have place := same name.start (List.mem_cons_of_mem _ (List.mem_map_of_mem member))
        simp only [ofName, place]
      have folded (surface : Surface) :
          found.names.foldl (fun surface name => surface.append (ofName locate name)) surface =
          found.names.foldl (fun surface name => surface.append (ofName locate' name)) surface :=
        List.foldl_ext _ _ surface fun surface name member => by rw [names name member]
      simp only [ofStatement, start, folded]
  | exportAll found =>
      have start := same found.start (List.mem_singleton.mpr rfl)
      simp only [ofStatement, start]
  | exportDeclared start ambient found =>
      have start := same start (List.mem_singleton.mpr rfl)
      simp only [ofStatement, start]
  | exportDefault start runs name =>
      have start := same start (List.mem_singleton.mpr rfl)
      simp only [ofStatement, start]
  | exportValue start value =>
      have start := same start (List.mem_singleton.mpr rfl)
      simp only [ofStatement, start]
  | _ => rfl

section Folds

variable {α β : Type} (given : α → Surface) (items : List α) (surface : Surface)

/-- What each of them lists, surfaces that are put together list one after the other. -/
theorem listed_foldl {listed : Surface → List β} (joins : ∀ a b : Surface, listed (a.append b) = listed a ++ listed b) :
    listed (items.foldl (fun surface item => surface.append (given item)) surface) =
      listed surface ++ items.flatMap fun item => listed (given item) := by
  induction items generalizing surface with
  | nil => simp
  | cons item items ih => rw [List.foldl_cons, ih, joins, List.flatMap_cons, List.append_assoc]

theorem imports_foldl : (items.foldl (fun surface item => surface.append (given item)) surface).imports =
    surface.imports ++ items.flatMap fun item => (given item).imports :=
  listed_foldl given items surface fun _ _ => rfl

theorem exports_foldl : (items.foldl (fun surface item => surface.append (given item)) surface).exports =
    surface.exports ++ items.flatMap fun item => (given item).exports :=
  listed_foldl given items surface fun _ _ => rfl

theorem starExports_foldl : (items.foldl (fun surface item => surface.append (given item)) surface).starExports =
    surface.starExports ++ items.flatMap fun item => (given item).starExports :=
  listed_foldl given items surface fun _ _ => rfl

end Folds

theorem ofName_imports (locate : Nat → Location) (found : ExportName) : (ofName locate found).imports = [] := by
  unfold ofName
  split
  · rfl
  · split
    · rfl
    · rfl

/-- No import of a statement is a call. -/
theorem ofStatement_static (locate : Nat → Location) (stmt : Stmt) :
    ∀ item ∈ (ofStatement locate stmt).imports, item.kind ≠ .dynamic := by
  have static : ImportKind.static ≠ .dynamic := by decide
  have reExport : ImportKind.reExport ≠ .dynamic := by decide
  unfold ofStatement
  split
  · split
    · exact List.forall_mem_nil _
    · exact List.forall_mem_singleton.mpr static
  · rename_i found
    split
    · exact List.forall_mem_nil _
    · have names : (found.names.flatMap fun name => (ofName locate name).imports) = [] :=
        List.flatMap_eq_nil_iff.mpr fun name _ => ofName_imports locate name
      rw [imports_foldl, names, List.append_nil]
      cases found.specifier with
      | none => exact List.forall_mem_nil _
      | some specifier => exact List.forall_mem_singleton.mpr reExport
  · rename_i found
    split
    · exact List.forall_mem_nil _
    · cases found.exported with
      | none => exact List.forall_mem_singleton.mpr reExport
      | some name => exact List.forall_mem_singleton.mpr reExport
  · split
    · exact List.forall_mem_nil _
    · exact List.forall_mem_nil _
  · exact List.forall_mem_nil _
  · exact List.forall_mem_nil _
  · exact List.forall_mem_nil _

theorem ofStatements_static (locate : Nat → Location) (stmts : List Stmt) :
    ∀ item ∈ (ofStatements locate stmts).imports, item.kind ≠ .dynamic := by
  intro item member
  rw [ofStatements, imports_foldl] at member
  rcases List.mem_append.mp member with none | own
  · cases none
  · obtain ⟨stmt, _, listed⟩ := List.mem_flatMap.mp own
    exact ofStatement_static locate stmt item listed

theorem ofStatements_congr {locate locate' : Nat → Location} {stmts : List Stmt}
    (same : ∀ stmt ∈ stmts, ∀ place ∈ stmt.places, locate place = locate' place) :
    ofStatements locate stmts = ofStatements locate' stmts :=
  List.foldl_ext _ _ empty fun surface stmt member => by rw [ofStatement_congr (same stmt member)]

end Surface

namespace Script

open Reading

variable {types : Bool} {source gap : List Char} {lines : List Line} {found : SourceRead}

/-- Lines behind a source that stands apart from them are read behind its statements. -/
theorem readText_append (read : readText types source = some found)
    (apart : StandsApart types source (gap ++ lineTexts lines)) (skips : Space gap) (each : ∀ line ∈ lines, line.Reads)
    (unnamed : lines.flatMap Line.names = []) (plain : Line.directives lines = []) :
    ∃ added, readText types (source ++ (gap ++ lineTexts lines)) =
        some ⟨⟨found.script.directives, found.script.body ++ added, found.script.importCalls⟩, found.flawed⟩ ∧
      List.Forall₂ Line.Is lines added ∧ ∀ stmt ∈ found.script.body, stmt.Within (byteCount source) := by
  obtain ⟨stmts, last, passes, ends, enough, rfl⟩ := readText_eq_some read
  obtain ⟨space, isSpace, front⟩ := apart stmts last passes ends
  obtain ⟨whole, same⟩ : ∃ whole, whole = source ++ (gap ++ lineTexts lines) := ⟨_, rfl⟩
  have length : whole.length = source.length + gap.length + (lineTexts lines).length := by
    rw [same, List.length_append, List.length_append, Nat.add_assoc]
  have size : (moduleSetting types (byteCount whole)).size =
      byteCount (source ++ gap) + byteCount (lineTexts lines ++ []) := by
    rw [List.append_nil, ← byteCount_append, List.append_assoc, ← same]
    rfl
  have deep : 4 * (lineTexts lines).length + 2 ≤ depthFor whole.length := by
    rw [depthFor]
    omega
  obtain ⟨behind, behind_space, later⟩ := lines_pass (r := last) each (isSpace.append skips) rfl deep [] size
  rw [List.append_nil, List.append_nil, List.append_assoc] at later
  rw [← same] at front ⊢
  have count := length_le_lineTexts lines
  have short : (stmts ++ Line.stmts (byteCount (source ++ gap)) lines).length < depthFor whole.length := by
    rw [List.length_append, Line.stmts_length, depthFor]
    rw [depthFor] at enough
    omega
  have are := Line.stmts_are (byteCount (source ++ gap)) lines
  refine ⟨_, (readText_passes (front.append later) (ending_space behind_space) short).trans ?_, are, ?_⟩
  · obtain ⟨calls, defaults, flawed⟩ := foldl_noted types lines last
    rw [unnamed] at flawed
    have unflawed := flawed .nil (List.forall_mem_nil _)
    have directives : leadingTexts (stmts ++ Line.stmts (byteCount (source ++ gap)) lines) = leadingTexts stmts :=
      leadingTexts_append ((leadingTexts_lines are).trans plain)
    have body : (stmts ++ Line.stmts (byteCount (source ++ gap)) lines).drop (leadingTexts stmts).length =
        stmts.drop (leadingTexts stmts).length ++ Line.stmts (byteCount (source ++ gap)) lines :=
      List.drop_append_of_le_length (leadingTexts_length stmts)
    have setting : (moduleSetting types (byteCount whole)).types = types := rfl
    simp only [SourceRead.ofStatements, directives, body, Reader.goTo, setting, calls, defaults, unflawed]
  · exact fun stmt member => passes.within stmt (List.mem_of_mem_drop member)

end Script

namespace ModuleRecord

open Script

variable {path : ModulePath} {source whole : String} {shared : SharedSet} {gap : List Char} {lines : List Line}

/-- A record holds what another one does, each place included, and static imports of more modules behind those of the
statements. The calls come last in both. -/
structure Extends (record found : ModuleRecord) (specifiers : List String) : Prop where
  path : record.path = found.path
  realm : record.realm = found.realm
  exports : record.exports = found.exports
  defaultExport : record.defaultExport = found.defaultExport
  starExports : record.starExports = found.starExports
  imports : ∃ statements added calls calls', found.imports = statements ++ calls ∧
    record.imports = statements ++ added ++ calls' ∧ (∀ item ∈ statements, item.kind ≠ .dynamic) ∧
      (added.map fun item => (item.specifier, item.kind)) = specifiers.map (·, .static) ∧
        (∀ item ∈ calls ++ calls', item.kind = .dynamic) ∧ calls'.map ImportRecord.specifier = calls.map ImportRecord.specifier

/-- What a record holds of an import call. -/
def located (source : String) (call : ImportCall) : ImportRecord :=
  ⟨call.specifier, .dynamic, Location.ofOffset source call.start⟩

/-- The module of a source that stands apart from lines behind it is kept, whatever the lines import. -/
theorem parse?_append {found : ModuleRecord} (parsed : parse? shared path source = some found)
    (spelled : whole.toList = source.toList ++ (gap ++ lineTexts lines))
    (apart : StandsApart path.allowsTypes source.toList (gap ++ lineTexts lines)) (skips : Space gap)
    (each : ∀ line ∈ lines, line.Reads) (unnamed : lines.flatMap Line.names = [])
    (plain : Line.directives lines = []) :
    ∃ own added, script? path source = some own ∧
      script? path whole = some ⟨own.directives, own.body ++ added, own.importCalls⟩ ∧ List.Forall₂ Line.Is lines added ∧
        ∃ record, parse? shared path whole = some record ∧ record.Extends found (lines.flatMap Line.specifiers) := by
  obtain ⟨own, reads, rfl⟩ := Option.map_eq_some_iff.mp parsed
  have readsOwn := reads
  rw [script?, scriptIn?] at readsOwn
  split at readsOwn
  · rename_i read text
    split at readsOwn
    · cases readsOwn
    · rename_i unflawed
      obtain rfl := Option.some.inj readsOwn
      obtain ⟨added, again, are, within⟩ := readText_append text apart skips each unnamed plain
      have kept : script? path whole = some ⟨read.script.directives, read.script.body ++ added, read.script.importCalls⟩ := by
        simp [script?, scriptIn?, spelled, again, unflawed]
      refine ⟨_, added, reads, kept, are, _, by rw [parse?, kept]; rfl, ?_⟩
      have samePlaces : Surface.ofStatements (Location.ofOffset whole) read.script.body =
          Surface.ofStatements (Location.ofOffset source) read.script.body :=
        Surface.ofStatements_congr fun stmt member place listed =>
          Location.ofOffset_append spelled (within stmt member place listed)
      have surface : Surface.ofStatements (Location.ofOffset whole) (read.script.body ++ added) =
          (Surface.ofStatements (Location.ofOffset source) read.script.body).append
            (Surface.ofStatements (Location.ofOffset whole) added) := by
        rw [Surface.ofStatements_append, samePlaces]
      have holds := Surface.ofStatements_lines (Location.ofOffset whole) are
      rw [unnamed] at holds
      have noExports := List.map_eq_nil_iff.mp holds.exports
      constructor
      · rfl
      · rfl
      · simp only [ofScript, surface, Surface.append, noExports, List.append_nil]
      · simp only [ofScript, surface, Surface.append, holds.defaultExport]
        rfl
      · simp only [ofScript, surface, Surface.append, holds.starExports, List.append_nil]
      · have imports : (ofScript shared path whole ⟨read.script.directives, read.script.body ++ added,
            read.script.importCalls⟩).imports = (Surface.ofStatements (Location.ofOffset source) read.script.body).imports ++
              (Surface.ofStatements (Location.ofOffset whole) added).imports ++
                read.script.importCalls.map (located whole) := by
          simp only [ofScript, surface, Surface.append]
          rfl
        have calls (text : String) : ∀ item ∈ read.script.importCalls.map (located text), item.kind = .dynamic :=
          List.forall_mem_map.mpr fun _ _ => rfl
        refine ⟨_, _, read.script.importCalls.map (located source), _, rfl, imports, Surface.ofStatements_static _ _,
          holds.imports, List.forall_mem_append.mpr ⟨calls source, calls whole⟩, ?_⟩
        rw [List.map_map, List.map_map]
        rfl
  · cases readsOwn

end ModuleRecord

end Realms
