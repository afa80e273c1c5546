import Realms.Proofs.Emission.Registered
import Realms.Proofs.Script.Scopes

/-!
The names of generated modules. What crosses the boundary is exported under its own name, beside the names that the code
itself uses, so these keep apart if and only if nothing that crosses has one of them. A module of functions keeps apart
from what registers it if and only if it does not declare the two names that this imports.
-/
namespace Realms.Emission

open Script

/-- The names that the code of what replaces a module uses without a declaration or an import. -/
def globalNames : List String := ["Object", "Symbol"]

variable {options : EmissionOptions} {found : ModuleRecord} {references : List Reference} {stmts : List Stmt}

/-- Only the function of a stub is in the way of the call in it, by its name. -/
theorem Style.mem_stubLine_free (style : Style) {r : Reference} {name : String} :
    name ∈ (style.stubLine r).free ↔ name ∈ globalNames ∨ name = callName ∧ r.exportName ≠ callName := by
  have spelled : (style.stubLine r).free = "Object" :: ([callName, "args"].filter
      fun used => !([r.exportName, "args"] : List String).contains used) ++ ["Symbol"] := rfl
  have called : callName ≠ "args" := by decide
  rw [spelled]
  by_cases shadowed : callName = r.exportName
  · simp [globalNames, shadowed]
  · have apart : r.exportName ≠ callName := fun same => shadowed same.symm
    simp [globalNames, shadowed, called, apart]
    tauto

/-- References keep apart from the names that they use. -/
theorem references_hygienic (style : Style) (nodup : (references.map Reference.exportName).Nodup)
    (are : List.Forall₂ Line.Is (references.map style.referenceLine) stmts) :
    Hygienic [] stmts ↔ ∀ r ∈ references, r.exportName ∉ globalNames := by
  have names : (references.map style.referenceLine).flatMap Line.names = references.map Reference.exportName :=
    parts_map (fun _ => rfl) references
  have bound : (references.map style.referenceLine).flatMap Line.bound = references.map Reference.exportName :=
    parts_map (fun _ => rfl) references
  rw [hygienic_lines [] are, names, bound]
  simp only [List.flatMap_nil, List.nil_append]
  constructor
  · rintro ⟨_, meant⟩ r member used
    refine meant r.exportName ?_ (List.mem_map_of_mem member)
    exact List.mem_flatMap.mpr ⟨_, List.mem_map_of_mem member, used⟩
  · intro apart
    refine ⟨nodup, fun name used declared => ?_⟩
    obtain ⟨r, member, rfl⟩ := List.mem_map.mp declared
    obtain ⟨line, listed, free⟩ := List.mem_flatMap.mp used
    obtain ⟨other, _, rfl⟩ := List.mem_map.mp listed
    exact apart r member free

/-- Stubs keep apart from the names that they use, and from the call that they import. -/
theorem stubs_hygienic (style : Style) (nodup : (references.map Reference.exportName).Nodup)
    (are : List.Forall₂ Line.Is (style.transportLine options :: references.map style.stubLine) stmts) :
    Hygienic [] stmts ↔ ∀ r ∈ references, r.exportName ∉ callName :: globalNames := by
  have names : (style.transportLine options :: references.map style.stubLine).flatMap Line.names =
      references.map Reference.exportName := parts_map (fun _ => rfl) references
  have bound : (style.transportLine options :: references.map style.stubLine).flatMap Line.bound =
      callName :: references.map Reference.exportName :=
    congrArg (callName :: ·) (parts_map (fun _ => rfl) references)
  rw [hygienic_lines [] are, names, bound]
  simp only [List.flatMap_nil, List.nil_append]
  constructor
  · rintro ⟨distinct, meant⟩ r member used
    have declared := List.mem_map_of_mem (f := Reference.exportName) member
    rcases List.mem_cons.mp used with called | global
    · exact (List.nodup_cons.mp distinct).1 (called ▸ declared)
    · refine meant r.exportName ?_ declared
      refine List.mem_flatMap.mpr ⟨_, List.mem_cons_of_mem _ (List.mem_map_of_mem member), ?_⟩
      exact style.mem_stubLine_free.mpr (.inl global)
  · intro apart
    have uncalled : callName ∉ references.map Reference.exportName := by
      intro declared
      obtain ⟨r, member, same⟩ := List.mem_map.mp declared
      exact apart r member (same ▸ List.mem_cons_self)
    refine ⟨List.nodup_cons.mpr ⟨uncalled, nodup⟩, fun name used declared => ?_⟩
    obtain ⟨line, listed, free⟩ := List.mem_flatMap.mp used
    rcases List.mem_cons.mp listed with rfl | listed
    · cases free
    · obtain ⟨other, _, rfl⟩ := List.mem_map.mp listed
      rcases style.mem_stubLine_free.mp free with global | ⟨rfl, _⟩
      · obtain ⟨r, member, rfl⟩ := List.mem_map.mp declared
        exact apart r member (List.mem_cons_of_mem _ global)
      · exact uncalled declared

/-- What registers a module of functions keeps apart from it if the module does not declare what is imported for it. -/
theorem registrations_hygienic (own : List Stmt)
    (are : List.Forall₂ Line.Is (registrationLines options found references) stmts) :
    Hygienic own stmts ↔ (own.flatMap Stmt.boundNames).Nodup ∧
      ∀ name ∈ [registerName, selfName], name ∉ own.flatMap Stmt.boundNames := by
  have bound : (registrationLines options found references).flatMap Line.bound = [registerName, selfName] := by
    simp [registrationLines, registryLine, selfLine, registrationLine, Line.bound, List.flatMap_map]
  have apart : [registerName, selfName].Nodup := by decide
  have free (r : Reference) : (registrationLine r).free = [registerName, selfName] := rfl
  rw [hygienic_lines own are, bound, registrationLines_names, List.append_nil, List.nodup_append]
  constructor
  · rintro ⟨⟨distinct, _, disjoint⟩, _⟩
    exact ⟨distinct, fun name imported declared => disjoint name declared name imported rfl⟩
  · rintro ⟨distinct, disjoint⟩
    refine ⟨⟨distinct, apart, fun name declared other imported same => disjoint other imported (same ▸ declared)⟩, ?_⟩
    intro name used
    obtain ⟨line, listed, uses⟩ := List.mem_flatMap.mp used
    have within : name ∈ [registerName, selfName] := by
      rcases List.mem_cons.mp listed with rfl | listed
      · cases uses
      · rcases List.mem_cons.mp listed with rfl | listed
        · cases uses
        · obtain ⟨r, _, rfl⟩ := List.mem_map.mp listed
          exact free r ▸ uses
    exact disjoint name within

section Printed

variable (oneLine : ∀ c ∈ found.path.text.toList, isLineEnd c = false)
  (bindable : ∀ r ∈ references, IsBindable r.exportName) (nodup : (references.map Reference.exportName).Nodup)

include oneLine bindable nodup

theorem clientReferenceModule_hygienic (path : ModulePath) :
    ∃ printed script, printCode path (clientReferenceModule found references) = .ok printed ∧
      ModuleRecord.script? path printed = some script ∧
        (Hygienic [] script.body ↔ ∀ r ∈ references, r.exportName ∉ globalNames) := by
  obtain ⟨printed, stmts, prints, kept, are, _⟩ := clientReferenceModule_lines oneLine bindable nodup path
  exact ⟨printed, _, prints, kept, references_hygienic .printed nodup are⟩

theorem stubModule_hygienic (options : EmissionOptions) (path : ModulePath) :
    ∃ printed script, printCode path (stubModule options found references) = .ok printed ∧
      ModuleRecord.script? path printed = some script ∧
        (Hygienic [] script.body ↔ ∀ r ∈ references, r.exportName ∉ callName :: globalNames) := by
  obtain ⟨printed, stmts, prints, kept, are, _⟩ := stubModule_lines oneLine bindable nodup options path
  exact ⟨printed, _, prints, kept, stubs_hygienic .printed nodup are⟩

end Printed

/-- The names in what is generated for a module keep apart exactly if nothing that crosses has the name of a global that
the code uses or, in a stub, of the call that it imports. A module of functions keeps apart from what registers it
exactly if it declares no name twice, nor one of the two that are imported for it. -/
theorem generated_hygienic {shared : SharedSet} {path : ModulePath} {source : String} {policy : ExportPolicy}
    {realm : Realm} {crossed : Crossed} (parsed : ModuleRecord.parse? shared path source = some found)
    (crosses : crossedExports policy found realm = .ok crossed) (options : EmissionOptions)
    (oneLine : ∀ c ∈ path.text.toList, isLineEnd c = false) :
    (∃ printed script, printCode path (clientReferenceModule found crossed.references) = .ok printed ∧
      ModuleRecord.script? path printed = some script ∧
        (Hygienic [] script.body ↔ ∀ r ∈ crossed.references, r.exportName ∉ globalNames)) ∧
      (∃ printed script, printCode path (stubModule options found crossed.references) = .ok printed ∧
        ModuleRecord.script? path printed = some script ∧
          (Hygienic [] script.body ↔ ∀ r ∈ crossed.references, r.exportName ∉ callName :: globalNames)) ∧
        (crossed.references ≠ [] →
          StandsApart path.allowsTypes source.toList (registrations options found crossed.references) →
            ∃ own added, ModuleRecord.script? path source = some own ∧
              ModuleRecord.script? path (serverFunctionModule options found crossed.references) =
                some ⟨own.directives, own.body ++ added, own.importCalls⟩ ∧
                (Hygienic own.body added ↔ (own.body.flatMap Stmt.boundNames).Nodup ∧
                  ∀ name ∈ [registerName, selfName], name ∉ own.body.flatMap Stmt.boundNames)) := by
  have here : found.path = path := by
    obtain ⟨script, _, rfl⟩ := Option.map_eq_some_iff.mp parsed
    rfl
  have names : crossed.references.map Reference.exportName = crossingNames found := by
    obtain rfl := crossedExports_eq_ok crosses
    exact referencesInto_names
  have bindable : ∀ r ∈ crossed.references, IsBindable r.exportName := by
    intro r member
    exact crossingNames_bindable (names ▸ List.mem_map_of_mem member)
  have nodup : (crossed.references.map Reference.exportName).Nodup := names ▸ crossingNames_nodup
  rw [← here] at oneLine
  refine ⟨clientReferenceModule_hygienic oneLine bindable nodup path,
    stubModule_hygienic oneLine bindable nodup options path, fun nonempty apart => ?_⟩
  obtain ⟨own, added, alone, kept, are, _⟩ := serverFunctionModule_parsed parsed crosses nonempty apart
  exact ⟨own, added, alone, kept, registrations_hygienic own.body are⟩

theorem likedModule_hygienic :
    ∃ crossed, crossedExports .error likedModule .serverFunction = .ok crossed ∧
      (∃ printed script, printCode ⟨"like.ts"⟩ (stubModule .standard likedModule crossed.references) = .ok printed ∧
        ModuleRecord.script? ⟨"like.ts"⟩ printed = some script ∧ Hygienic [] script.body) ∧
        ∃ own added, ModuleRecord.script? ⟨"like.ts"⟩ likedModule.source = some own ∧
          ModuleRecord.script? ⟨"like.ts"⟩ (serverFunctionModule .standard likedModule crossed.references) =
            some ⟨own.directives, own.body ++ added, own.importCalls⟩ ∧ Hygienic own.body added := by
  have parsed : ModuleRecord.parse? [] ⟨"like.ts"⟩ likedModule.source = some likedModule := by decide +kernel
  have crosses : crossedExports .error likedModule .serverFunction =
      .ok ⟨[.ofExport ⟨"like.ts"⟩ "like" .serverFunction], []⟩ := by decide +kernel
  have oneLine : (ModulePath.mk "like.ts").text.toList.all (!isLineEnd ·) = true := by decide
  have types : ModulePath.allowsTypes ⟨"like.ts"⟩ = true := by decide +kernel
  have declared : (ModuleRecord.script? ⟨"like.ts"⟩ likedModule.source).map (·.body.flatMap Stmt.boundNames) =
      some ["like"] := by decide +kernel
  obtain ⟨_, ⟨printed, script, prints, kept, stub⟩, registered⟩ :=
    generated_hygienic parsed crosses .standard (oneLine_of_all oneLine)
  obtain ⟨own, added, alone, behind, server⟩ := registered (List.cons_ne_nil _ _) (types ▸ likedModule_standsApart _)
  have names : own.body.flatMap Stmt.boundNames = ["like"] := by
    rw [alone] at declared
    exact Option.some.inj declared
  refine ⟨_, crosses, ⟨printed, script, prints, kept, stub.mpr ?_⟩, own, added, alone, behind, server.mpr ?_⟩
  · decide
  · rw [names]
    decide

/-- A module of functions whose export has the name of the call in its stub. -/
def shadowingModule : ModuleRecord :=
  ⟨⟨"f.js"⟩, .serverFunction, "'use server'; export const __realmCallServer = 1;", [],
    [⟨"__realmCallServer", .binding, ⟨1, 15⟩⟩], none, []⟩

/-- The stub is printed without an error, with its name declared twice. -/
theorem shadowingModule_clashes :
    ModuleRecord.parse? [] ⟨"f.js"⟩ shadowingModule.source = some shadowingModule ∧
      ∃ crossed, crossedExports .error shadowingModule .serverFunction = .ok crossed ∧
        ∃ printed script, printCode ⟨"f.js"⟩ (stubModule .standard shadowingModule crossed.references) = .ok printed ∧
          ModuleRecord.script? ⟨"f.js"⟩ printed = some script ∧ ¬Hygienic [] script.body := by
  have crosses : crossedExports .error shadowingModule .serverFunction =
      .ok ⟨[.ofExport ⟨"f.js"⟩ "__realmCallServer" .serverFunction], []⟩ := by decide +kernel
  have oneLine : shadowingModule.path.text.toList.all (!isLineEnd ·) = true := by decide
  have bindable : ∀ r ∈ [Reference.ofExport ⟨"f.js"⟩ "__realmCallServer" .serverFunction], IsBindable r.exportName :=
    List.forall_mem_singleton.mpr (show IsBindable "__realmCallServer" by decide)
  obtain ⟨printed, script, prints, kept, apart⟩ :=
    stubModule_hygienic (oneLine_of_all oneLine) bindable (List.pairwise_singleton _ _) .standard ⟨"f.js"⟩
  refine ⟨by decide +kernel, _, crosses, printed, script, prints, kept, fun hygienic => ?_⟩
  have free := apart.mp hygienic _ List.mem_cons_self
  exact free List.mem_cons_self

end Realms.Emission
