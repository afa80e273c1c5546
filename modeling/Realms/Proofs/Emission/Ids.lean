import Realms.Proofs.Emission.Ready
import Realms.Proofs.Partition.Failures

/-!
The ids of a build. Whatever keeps a build from its output is a module that cannot be loaded, an export that cannot
cross or code that cannot be read again. So no build fails because of its ids, and no two references of one share theirs.
-/
namespace Realms

namespace BuildError

/-- What keeps a module from being emitted: an export that cannot cross, or code that cannot be read again. -/
def OfEmission (e : BuildError) : Prop :=
  e.cause.guarantee ∈ [.defaultExport, .starExport, .exportName, .generatedCode]

end BuildError

open BuildError

namespace Emission

variable {options : EmissionOptions} {partition : Partition} {path : ModulePath} {found : ModuleRecord}

section Failures

theorem exportProblems_ofEmission : ∀ e ∈ exportProblems found, e.OfEmission := by
  intro e member
  simp only [exportProblems, List.mem_append, List.mem_map, List.mem_filterMap, Option.mem_toList,
    Option.map_eq_some_iff, exportProblem?] at member
  rcases member with (⟨place, _, rfl⟩ | ⟨place, _, rfl⟩) | ⟨item, _, fault, _, rfl⟩
  · exact List.mem_of_elem_eq_true rfl
  · exact List.mem_of_elem_eq_true rfl
  · exact List.mem_of_elem_eq_true rfl

theorem crossedExports_fails (policy : ExportPolicy) (realm : Realm) :
    FailsWith OfEmission (crossedExports policy found realm) := by
  unfold crossedExports
  dsimp only
  split
  · rename_i problem rest listed
    exact .error (exportProblems_ofEmission problem (listed ▸ List.mem_cons_self))
  · exact .ok _

theorem checkText_fails (path : ModulePath) (code : List Char) : FailsWith OfEmission (checkText path code) := by
  unfold checkText
  split
  · exact .ok _
  · exact .error (List.mem_of_elem_eq_true rfl)

theorem printText_fails (path : ModulePath) (code : List Char) : FailsWith OfEmission (printText path code) := by
  unfold printText
  split
  · exact .ok _
  · exact .error (List.mem_of_elem_eq_true rfl)

theorem ofEach_fails {α : Type} [EmptyCollection α] [Append α]
    {emit : ModulePath → ModuleRecord → Except BuildError α} {kind : BuildError → Prop}
    (each : ∀ path found, FailsWith kind (emit path found)) (items : List (ModulePath × ModuleRecord)) :
    FailsWith kind (ofEach emit items) := by
  induction items with
  | nil => exact .ok _
  | cons item rest ih => exact .bind (each _ _) fun first _ => .bind ih fun more _ => .ok _

theorem serverModule_fails (path : ModulePath) (found : ModuleRecord) :
    FailsWith OfEmission (serverModule options path found) := by
  unfold serverModule
  split
  · exact .bind (crossedExports_fails _ _) fun _ _ => .bind (checkText_fails _ _) fun _ _ => .ok _
  · exact .ok _
  · exact .ok _

theorem referencesFor_fails (path : ModulePath) (found : ModuleRecord) :
    FailsWith OfEmission (referencesFor options path found) := by
  unfold referencesFor
  split
  · exact .bind (crossedExports_fails _ _) fun _ _ => .bind (printText_fails _ _) fun _ _ => .ok _
  · exact .ok _

theorem functionStub_fails (server : ServerPart) (path : ModulePath) (found : ModuleRecord) :
    FailsWith OfEmission (functionStub options server path found) := by
  refine .bind ?_ fun _ _ => .bind (printText_fails _ _) fun _ _ => .ok _
  unfold functionReferences
  split
  · exact .ok _
  · exact crossedExports_fails _ _

end Failures

theorem generate_fails (options : EmissionOptions) (emittable : partition.Emittable)
    (client : partition.client.modules.Nodup) : FailsWith OfEmission (generate options partition) := by
  apply FailsWith.bind (ofEach_fails serverModule_fails _)
  intro server serverPass
  apply FailsWith.bind (ofEach_fails (fun path found => .bind (referencesFor_fails path found) fun _ _ => .ok _) _)
  intro components clientPass
  apply FailsWith.bind (ofEach_fails (functionStub_fails server) _)
  intro stubs stubsPass
  dsimp only
  rw [passes_unique emittable client serverPass clientPass stubsPass]
  exact .ok _

end Emission

namespace Build

variable {options : BuildOptions} {sources : Sources} {build : Build}

/-- A build fails because a module cannot be loaded or cannot be emitted, and for nothing else. -/
theorem compile_fails (options : BuildOptions) (sources : Sources) :
    FailsWith (fun e => e.OfLoading ∨ e.OfEmission) (compile options sources) := by
  have path (raw : String) : FailsWith (fun e => e.OfLoading ∨ e.OfEmission) (ModulePath.ofText raw) :=
    (Resolution.ofText_fails raw).mono fun _ => .inl
  apply FailsWith.bind (.mapM path _)
  intro shared _
  apply FailsWith.bind (.mapM path _)
  intro listed _
  dsimp only
  have splitting (project : Project) :
      FailsWith (fun e => e.OfLoading ∨ e.OfEmission) (project.partition listed) :=
    (Project.partition_fails_loading listed).mono fun _ => .inl
  apply FailsWith.bind (splitting _)
  intro partition splits
  obtain ⟨round, settled, rfl, _⟩ := Project.partition_eq_ok splits
  have emitting := Emission.generate_fails options.emission settled.emittable (client_nodup settled)
  exact .bind (emitting.mono fun _ => .inr) fun _ _ => .ok _

theorem code_eq_duplicateId {guarantee : Guarantee} (code : guarantee.code = "RB-ERR-DUPLICATE-ID") :
    guarantee = .duplicateId := by
  cases guarantee <;> first | rfl | exact absurd code (by decide)

/-- No two references of a build have one id, and no build fails because two would have. -/
theorem compile_uniqueIds (options : BuildOptions) (sources : Sources) :
    (∀ e, compile options sources = .error e → e.report.code ≠ "RB-ERR-DUPLICATE-ID") ∧
      ∀ build, compile options sources = .ok build →
        ((build.manifest.clientReferences ++ build.manifest.serverFunctions).map Reference.id).Nodup := by
  constructor
  · intro e fails code
    have duplicate : e.cause.guarantee = .duplicateId := code_eq_duplicateId code
    rcases compile_fails options sources e fails with loading | emission
    · simp [OfLoading, duplicate] at loading
    · simp [OfEmission, duplicate] at emission
  · intro build compiles
    obtain ⟨project, listed, round, settled, _, whole, _⟩ := compile_eq_ok compiles
    rw [compile_references compiles]
    exact Emission.references_ids_nodup (whole ▸ settled.emittable) (whole ▸ client_nodup settled)

/-- A component whose path has a hash sign in it, and a function of two signatures that the page and the component
import. -/
def overloadedSources : Sources := .ofTexts [
  (⟨"page.js"⟩, "import './a#b.js'; import './f.ts'"),
  (⟨"a#b.js"⟩, "'use client'; import './f.ts'; export const A = 1"),
  (⟨"f.ts"⟩, "'use server'; export function f(a: 1): 1; export function f() {}")]

def overloadedOptions (entry : String) : BuildOptions := ⟨".", [entry], [], .standard⟩

/-- The function has one id for both of its signatures, and a page that is not there is refused for that. -/
theorem overloadedSources_uniqueIds :
    (∃ build, compile (overloadedOptions "page.js") overloadedSources = .ok build ∧
      (build.manifest.clientReferences ++ build.manifest.serverFunctions).map Reference.id = ["a#b.js#A", "f.ts#f"] ∧
        ((build.manifest.clientReferences ++ build.manifest.serverFunctions).map Reference.id).Nodup) ∧
      ∃ e, compile (overloadedOptions "gone.js") overloadedSources = .error e ∧
        e.report.code ≠ "RB-ERR-DUPLICATE-ID" := by
  have sees : (split (overloadedOptions "page.js") overloadedSources).toOption.map (fun partition =>
      (partition.isReady (overloadedOptions "page.js").emission, (Emission.referencesOf partition).map Reference.id)) =
        some (true, ["a#b.js#A", "f.ts#f"]) := by decide +kernel
  have fails : (compile (overloadedOptions "gone.js") overloadedSources).isOk = false := by decide +kernel
  obtain ⟨build, compiles, ids⟩ := compile_sees sees
  rw [← compile_references compiles] at ids
  obtain ⟨e, refused⟩ := exists_of_not_isOk fails
  exact ⟨⟨build, compiles, ids, (compile_uniqueIds _ _).2 build compiles⟩,
    e, refused, (compile_uniqueIds _ _).1 e refused⟩

end Build
end Realms
