import Realms.Proofs.Emission.Replacements
import Realms.Proofs.Resolution
import Realms.Proofs.Script.Appended
import Realms.Proofs.Script.Lockstep.Apart

/-!
Modules of functions as the server gets them: the source, with the imports and calls behind it that register what it
exports. Where the source ends with a closed statement, it stands apart from these, and its module is kept.
-/
namespace Realms.Emission

open Script

variable {options : EmissionOptions} {found : ModuleRecord} {references : List Reference}

def registryLine (options : EmissionOptions) : Line :=
  .taken "registerServerFunction" registerName options.registryModule (Style.generated.written options.registryModule)

/-- The module, imported by itself. -/
def selfLine (path : ModulePath) : Line :=
  .whole selfName ("./" ++ path.fileName) (Style.generated.written ("./" ++ path.fileName))

def registeredName (r : Reference) : List Char := selfName.toList ++ '.' :: r.exportName.toList

def registrationLine (r : Reference) : Line :=
  .alone (registerName.toList ++ arguments [Style.generated.text r.id, registeredName r])
    (.call (.name registerName) [.text r.id, .member (.name selfName) r.exportName])

def registrationLines (options : EmissionOptions) (found : ModuleRecord) (references : List Reference) : List Line :=
  registryLine options :: selfLine found.path :: references.map registrationLine

/-- What is put behind a source that does not end its last line. -/
def sourceEnd (source : List Char) : List Char := if source.getLast? == some '\n' then [] else ['\n']

/-- What is put behind the source of a module of functions. -/
def registrations (options : EmissionOptions) (found : ModuleRecord) (references : List Reference) : List Char :=
  sourceEnd found.source.toList ++ lineTexts (registrationLines options found references)

theorem importLines_eq (options : EmissionOptions) (path : ModulePath) :
    charsOf ["import \x7b registerServerFunction as ", registerName, " \x7d from ", Json.quoted options.registryModule,
      ";\nimport * as ", selfName, " from ", Json.quoted ("./" ++ path.fileName), ";\n"] =
        (registryLine options).text ++ '\n' :: ((selfLine path).text ++ ['\n']) := by
  have quoted (value : String) :
      Json.quoted value = String.ofList ('"' :: Style.generated.written value ++ ['"']) := rfl
  rw [registryLine, selfLine, Line.text, Line.text, quoted, quoted]
  delta importText importWholeText
  simp only [charsOf, List.flatMap_cons, List.flatMap_nil, String.toList_ofList, List.append_assoc, List.cons_append,
    List.nil_append, String.reduceToList]

theorem registrationLine_eq (r : Reference) : registration r = (registrationLine r).text ++ ['\n'] := by
  rw [registrationLine, Line.text, registration, registeredName]
  simp only [charsOf, arguments, Print.separated, Style.generated_text, List.flatMap_cons, List.flatMap_nil,
    List.append_assoc, List.cons_append, List.nil_append, String.reduceToList]

theorem endedSource_eq (source : List Char) : endedSource source = source ++ sourceEnd source := by
  unfold endedSource sourceEnd
  split
  · exact (List.append_nil source).symm
  · rfl

theorem sourceEnd_space (source : List Char) : Space (sourceEnd source) := by
  unfold sourceEnd
  split
  · exact .nil
  · exact .lineEnd

/-- A module of functions is its source, with lines behind it. -/
theorem serverFunctionModule_eq (some : references ≠ []) :
    (serverFunctionModule options found references).toList =
      found.source.toList ++ registrations options found references := by
  have filled : references.isEmpty = false := List.isEmpty_eq_false_iff.mpr some
  have lines : lineTexts (registrationLines options found references) = (registryLine options).text ++
      '\n' :: ((selfLine found.path).text ++ ['\n']) ++ references.flatMap registration := by
    rw [lineTexts_map registrationLine_eq, registrationLines, lineTexts, List.flatMap_cons, List.flatMap_cons,
      ← lineTexts]
    simp only [List.append_assoc, List.cons_append, List.nil_append]
  rw [serverFunctionModule, String.toList_ofList, serverFunctionText, filled, registrations, lines, ← importLines_eq,
    endedSource_eq]
  simp only [Bool.false_eq_true, if_false, List.append_assoc]

theorem registrationLines_read (bindable : ∀ r ∈ references, IsBindable r.exportName) :
    ∀ line ∈ registrationLines options found references, line.Reads := by
  have registers : IsOrdinary registerName := by decide
  have self : IsOrdinary selfName := by decide
  refine List.forall_mem_cons.mpr ⟨.taken (by decide) (by decide) (by decide) (Style.generated.quotes _), ?_⟩
  refine List.forall_mem_cons.mpr ⟨.whole (by decide) (Style.generated.quotes _), List.forall_mem_map.mpr ?_⟩
  intro r member
  have value : Writes (registeredName r) (.member (.name selfName) r.exportName) :=
    writes_member (writes_name self) (bindable r member).identifier
  exact .call registers (List.cons_ne_nil _ _) (.cons (Style.generated.writes_text r.id) (.cons value .nil))

theorem registrationLines_names : (registrationLines options found references).flatMap Line.names = [] := by
  simp [registrationLines, registryLine, selfLine, registrationLine, Line.names, List.flatMap_map]

theorem registrationLines_specifiers : (registrationLines options found references).flatMap Line.specifiers =
    [options.registryModule, "./" ++ found.path.fileName] := by
  simp [registrationLines, registryLine, selfLine, registrationLine, Line.specifiers, List.flatMap_map]

section Apart

end Apart

section Kept

variable {shared : SharedSet} {path : ModulePath} {source : String} {policy : ExportPolicy} {realm : Realm}
  {crossed : Crossed} (parsed : ModuleRecord.parse? shared path source = some found)
  (crosses : crossedExports policy found realm = .ok crossed) (nonempty : crossed.references ≠ [])

include parsed crosses nonempty

/-- The script of a module of functions is that of its source, with the statements that register its exports behind. -/
theorem serverFunctionModule_parsed
    (apart : StandsApart path.allowsTypes source.toList (registrations options found crossed.references)) :
    ∃ own added, ModuleRecord.script? path source = some own ∧
      ModuleRecord.script? path (serverFunctionModule options found crossed.references) =
        some ⟨own.directives, own.body ++ added, own.importCalls⟩ ∧
      List.Forall₂ Line.Is (registrationLines options found crossed.references) added ∧
        ∃ record,
          ModuleRecord.parse? shared path (serverFunctionModule options found crossed.references) = some record ∧
            record.Extends found [options.registryModule, "./" ++ found.path.fileName] := by
  have own : found.source = source := by
    obtain ⟨script, _, rfl⟩ := Option.map_eq_some_iff.mp parsed
    rfl
  have spelled : (serverFunctionModule options found crossed.references).toList =
      source.toList ++ registrations options found crossed.references := own ▸ serverFunctionModule_eq nonempty
  rw [registrations, own] at apart spelled
  have bindable : ∀ r ∈ crossed.references, IsBindable r.exportName := by
    obtain rfl := crossedExports_eq_ok crosses
    exact fun r => referencesInto_bindable
  have kept := ModuleRecord.parse?_append parsed spelled apart (sourceEnd_space _) (registrationLines_read bindable)
    registrationLines_names rfl
  rwa [registrationLines_specifiers] at kept

end Kept

/-- A module of functions with a directive and a constant. -/
def likedModule : ModuleRecord :=
  ⟨⟨"like.ts"⟩, .serverFunction, "\"use server\";\nexport const like = \"liked\";\n", [],
    [⟨"like", .binding, ⟨2, 1⟩⟩], none, []⟩

theorem likedModule_standsApart (behind : List Char) :
    StandsApart true "\"use server\";\nexport const like = \"liked\";\n".toList behind := by
  have directive : Quotes "use server".toList "use server" := Style.generated.quotes "use server"
  have value : Quotes "liked".toList "liked" := Style.generated.quotes "liked"
  have each : ∀ line ∈ [Line.alone ('"' :: "use server".toList ++ ['"']) (.text "use server"),
      .constant "like" ('"' :: "liked".toList ++ ['"']) (.text "liked")], line.Reads := by
    refine List.forall_mem_cons.mpr ⟨.text directive, List.forall_mem_singleton.mpr ?_⟩
    exact .constant (by decide) (writes_text value)
  exact lines_standApart true rfl .nil (by simp) each

end Realms.Emission
