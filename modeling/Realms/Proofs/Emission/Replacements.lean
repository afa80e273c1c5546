import Realms.Proofs.Emission.Made
import Realms.Proofs.Emission.Styles

/-!
What replaces a module on the other side. The names that cross are names of variables, none of them twice, so the code
has one variable for each of them. The comment in front has the path of the module as it is, so this holds for paths
without a line end.
-/
namespace Realms.Emission

open Script

/-- Adding the names that are not there yet keeps a list free of repetitions. -/
theorem addNames_nodup (names : List String) {seen : List String} (nodup : seen.Nodup) :
    (names.foldl (fun seen name => if seen.contains name then seen else seen ++ [name]) seen).Nodup := by
  induction names generalizing seen with
  | nil => exact nodup
  | cons name names ih =>
      rw [List.foldl_cons]
      split
      · exact ih nodup
      · rename_i absent
        have apart : name ∉ seen := by simpa using absent
        have alone : [name].Nodup := by simp
        refine ih (List.nodup_append.mpr ⟨nodup, alone, fun other member one same => ?_⟩)
        obtain rfl := List.mem_singleton.mp same
        exact fun equal => apart (equal ▸ member)

theorem mem_addNames {names seen : List String} {name : String}
    (member : name ∈ names.foldl (fun seen name => if seen.contains name then seen else seen ++ [name]) seen) :
    name ∈ seen ∨ name ∈ names := by
  induction names generalizing seen with
  | nil => exact .inl member
  | cons first names ih =>
      rw [List.foldl_cons] at member
      split at member
      · exact (ih member).imp_right (List.mem_cons_of_mem first)
      · rcases ih member with within | later
        · refine (List.mem_append.mp within).imp_right fun own => ?_
          obtain rfl := List.mem_singleton.mp own
          exact List.mem_cons_self
        · exact .inr (List.mem_cons_of_mem first later)

section Names

variable {found : ModuleRecord} {realm : Realm} {name : String}

theorem bindable_of_noFault (plain : nameFault? name = none) : IsBindable name := by
  unfold nameFault? at plain
  split at plain
  · cases plain
  · rename_i identifier
    split at plain
    · cases plain
    · rename_i allowed
      have free (word : String) (member : word ∈ Emission.reservedWords) : name ≠ word := by
        rintro rfl
        exact allowed (List.contains_iff_mem.mpr member)
      have within : ∀ word ∈ Script.reservedWords, word ∈ Emission.reservedWords := by decide
      exact ⟨by simpa using identifier, fun member => free name (within name member) rfl, free _ (by decide),
        free _ (by decide)⟩

theorem crossingNames_bindable (member : name ∈ crossingNames found) : IsBindable name := by
  rcases mem_addNames member with none | listed
  · cases none
  · exact bindable_of_noFault (Option.isNone_iff_eq_none.mp (List.mem_filter.mp listed).2)

theorem crossingNames_nodup : (crossingNames found).Nodup := addNames_nodup _ .nil

theorem referencesInto_names : (referencesInto found realm).map Reference.exportName = crossingNames found := by
  rw [referencesInto, List.map_map]
  exact List.map_id _

theorem referencesInto_bindable {r : Reference} (member : r ∈ referencesInto found realm) : IsBindable r.exportName :=
  crossingNames_bindable (referencesInto_names ▸ List.mem_map_of_mem member)

theorem referencesInto_nodup : ((referencesInto found realm).map Reference.exportName).Nodup :=
  referencesInto_names ▸ crossingNames_nodup

end Names

section References

variable {line printed : Reference → Line}

theorem parts_map {α : Type} {part : Line → List α} {ofReference : Reference → α}
    (gives : ∀ r, part (line r) = [ofReference r]) (references : List Reference) :
    (references.map line).flatMap part = references.map ofReference := by
  rw [List.flatMap_map, funext gives, List.map_eq_flatMap]

theorem specifiers_map (none : ∀ r, (line r).specifiers = []) (references : List Reference) :
    (references.map line).flatMap Line.specifiers = [] := by
  simp [List.flatMap_map, none]

theorem prints_map (prints : ∀ r, (line r).Prints (printed r)) (references : List Reference) :
    List.Forall₂ Line.Prints (references.map line) (references.map printed) := by
  induction references with
  | nil => exact .nil
  | cons r references ih => exact .cons (prints r) ih

end References

theorem Style.referenceLine_reads (style : Style) {r : Reference} (bindable : IsBindable r.exportName) :
    (style.referenceLine r).Reads := .constant bindable (style.writes_reference r.id)

theorem Style.stubLine_reads (style : Style) {r : Reference} (bindable : IsBindable r.exportName) :
    (style.stubLine r).Reads := .constant bindable (style.writes_stub bindable r.id)

theorem Style.transportLine_reads (style : Style) (options : EmissionOptions) : (style.transportLine options).Reads :=
  .taken (by decide) (by decide) (by decide) (style.quotes _)

theorem referenceLine_prints (r : Reference) :
    (Style.generated.referenceLine r).Prints (Style.printed.referenceLine r) := .constant (print_reference r.id)

theorem stubLine_prints (r : Reference) : (Style.generated.stubLine r).Prints (Style.printed.stubLine r) :=
  .constant (print_stub r.exportName r.id)

theorem transportLine_prints (options : EmissionOptions) :
    (Style.generated.transportLine options).Prints (Style.printed.transportLine options) :=
  .taken (by decide) (by decide)

section Printed

variable {found : ModuleRecord} {references : List Reference}
  (oneLine : ∀ c ∈ found.path.text.toList, isLineEnd c = false)
  (bindable : ∀ r ∈ references, IsBindable r.exportName) (nodup : (references.map Reference.exportName).Nodup)

include oneLine bindable nodup

theorem clientReferenceModule_lines (path : ModulePath) :
    PrintsLines path (clientReferenceModule found references) (references.map Style.printed.referenceLine) := by
  have reads (style : Style) : ∀ line ∈ references.map style.referenceLine, line.Reads :=
    List.forall_mem_map.mpr fun r member => style.referenceLine_reads (bindable r member)
  have spelled : (clientReferenceModule found references).toList = _ :=
    String.toList_ofList.trans (clientReferenceText_eq found references)
  have front : " client references for ".toList.all (!isLineEnd ·) = true := by decide
  have comment := List.forall_mem_append.mpr ⟨oneLine_of_all front, oneLine⟩
  refine printsLines spelled comment (reads .generated) (prints_map referenceLine_prints references) (reads .printed) ?_
  rwa [parts_map fun _ => rfl]

theorem clientReferenceModule_prints (path : ModulePath) :
    PrintsModule path (clientReferenceModule found references) [] (references.map Reference.exportName) := by
  have prints := (clientReferenceModule_lines oneLine bindable nodup path).module
  rwa [specifiers_map fun _ => rfl, parts_map fun _ => rfl] at prints

theorem stubModule_lines (options : EmissionOptions) (path : ModulePath) :
    PrintsLines path (stubModule options found references)
      (Style.printed.transportLine options :: references.map Style.printed.stubLine) := by
  have reads (style : Style) : ∀ line ∈ style.transportLine options :: references.map style.stubLine, line.Reads :=
    List.forall_mem_cons.mpr ⟨style.transportLine_reads options,
      List.forall_mem_map.mpr fun r member => style.stubLine_reads (bindable r member)⟩
  have prints := List.Forall₂.cons (transportLine_prints options) (prints_map stubLine_prints references)
  have names : (Style.printed.transportLine options :: references.map Style.printed.stubLine).flatMap Line.names =
      references.map Reference.exportName := parts_map (fun _ => rfl) references
  have spelled : (stubModule options found references).toList = _ :=
    String.toList_ofList.trans (stubText_eq options found references)
  have front : " server function stubs for ".toList.all (!isLineEnd ·) = true := by decide
  have comment := List.forall_mem_append.mpr ⟨oneLine_of_all front, oneLine⟩
  refine printsLines spelled comment (reads .generated) prints (reads .printed) ?_
  rwa [names]

theorem stubModule_prints (options : EmissionOptions) (path : ModulePath) :
    PrintsModule path (stubModule options found references) [options.transportModule]
      (references.map Reference.exportName) := by
  have prints := (stubModule_lines oneLine bindable nodup options path).module
  rwa [List.flatMap_cons, List.flatMap_cons, specifiers_map fun _ => rfl, parts_map fun _ => rfl] at prints

end Printed

/-- What replaces a module whose path has no line end is printed without an error: a module that takes nothing, or the
calls from the transport alone, and has one variable for each reference. -/
theorem replacements_print {policy : ExportPolicy} {found : ModuleRecord} {realm : Realm} {crossed : Crossed}
    (crosses : crossedExports policy found realm = .ok crossed)
    (oneLine : ∀ c ∈ found.path.text.toList, isLineEnd c = false) (options : EmissionOptions) (path : ModulePath) :
    PrintsModule path (clientReferenceModule found crossed.references) [] (crossed.references.map Reference.exportName) ∧
      PrintsModule path (stubModule options found crossed.references) [options.transportModule]
        (crossed.references.map Reference.exportName) := by
  obtain rfl := crossedExports_eq_ok crosses
  have bindable : ∀ r ∈ referencesInto found realm, IsBindable r.exportName := fun r => referencesInto_bindable
  exact ⟨clientReferenceModule_prints oneLine bindable referencesInto_nodup path,
    stubModule_prints oneLine bindable referencesInto_nodup options path⟩

/-- A module of one function, read from its source. -/
def likeModule : ModuleRecord :=
  ⟨⟨"like.ts"⟩, .serverFunction, "'use server'; export const like = 1;", [], [⟨"like", .binding, ⟨1, 15⟩⟩], none, []⟩

theorem likeModule_prints :
    ModuleRecord.parse? [] ⟨"like.ts"⟩ "'use server'; export const like = 1;" = some likeModule ∧
      ∃ crossed, crossedExports .error likeModule .serverFunction = .ok crossed ∧
        crossed.references = [.ofExport ⟨"like.ts"⟩ "like" .serverFunction] ∧
          PrintsModule ⟨"like.ts"⟩ (clientReferenceModule likeModule crossed.references) [] ["like"] ∧
            PrintsModule ⟨"like.ts"⟩ (stubModule .standard likeModule crossed.references) ["realm-runtime/client"]
              ["like"] := by
  have oneLine : likeModule.path.text.toList.all (!isLineEnd ·) = true := by decide
  have crosses : crossedExports .error likeModule .serverFunction =
      .ok ⟨[.ofExport ⟨"like.ts"⟩ "like" .serverFunction], []⟩ := by decide +kernel
  exact ⟨by decide +kernel, _, crosses, rfl, replacements_print crosses (oneLine_of_all oneLine) .standard ⟨"like.ts"⟩⟩

/-- A module whose path goes on behind a line end. -/
def brokenModule : ModuleRecord :=
  ⟨⟨"x\n).js"⟩, .client, "'use client'; export const A = 1;", [], [⟨"A", .binding, ⟨1, 15⟩⟩], none, []⟩

/-- What is behind the line end stands as code in what replaces the module, so that cannot be printed. -/
theorem brokenModule_rejected :
    ModulePath.normalize "x\n).js" = .ok ⟨"x\n).js"⟩ ∧
      ModuleRecord.parse? [] ⟨"x\n).js"⟩ "'use client'; export const A = 1;" = some brokenModule ∧
        ∃ crossed, crossedExports .error brokenModule .client = .ok crossed ∧ ∃ problem,
          printCode ⟨"x\n).js"⟩ (clientReferenceModule brokenModule crossed.references) = .error problem ∧
            problem.cause = .generatedCode := by
  have crosses : crossedExports .error brokenModule .client =
      .ok ⟨[.ofExport ⟨"x\n).js"⟩ "A" .client], []⟩ := by decide +kernel
  have unread : ModuleRecord.scriptIn? ⟨"x\n).js"⟩ (clientReferenceText brokenModule
      [.ofExport ⟨"x\n).js"⟩ "A" .client]) = none := by
    refine Option.isNone_iff_eq_none.mp ?_
    decide +kernel
  refine ⟨by decide +kernel, by decide +kernel, _, crosses, codeError ⟨"x\n).js"⟩ (clientReferenceText brokenModule
    [.ofExport ⟨"x\n).js"⟩ "A" .client]), ?_, rfl⟩
  rw [printCode, clientReferenceModule, String.toList_ofList, printText, unread]

end Realms.Emission
