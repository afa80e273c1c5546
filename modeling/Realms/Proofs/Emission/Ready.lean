import Realms.Proofs.Emission.Crossing
import Realms.Proofs.Emission.Replacements

/-!
When a partition is emitted. Its exports have to be allowed to cross, the comment in front of what replaces a module has
to stay one, and a module of functions has to be read again with what registers it. Nothing else is in the way: an id
ends in a name without a hash sign, so the last hash sign in it tells the path from the name, and every module gives
each of its names once.
-/
namespace Realms

/-- A text is taken apart in one way at a sign that is its first one, or its last one. -/
theorem append_sign_inj {c : Char} {front front' behind behind' : List Char}
    (same : front ++ c :: behind = front' ++ c :: behind') (once : c ∉ front' ∨ c ∉ behind)
    (once' : c ∉ front ∨ c ∉ behind') : front = front' ∧ behind = behind' := by
  rcases List.append_eq_append_iff.mp same with ⟨between, rfl, rest⟩ | ⟨between, rfl, rest⟩
  · cases between with
    | nil => exact ⟨(List.append_nil front).symm, (List.cons.inj rest).2⟩
    | cons d between =>
        obtain ⟨rfl, rfl⟩ := List.cons.inj rest
        simp at once
  · cases between with
    | nil => exact ⟨List.append_nil front', (List.cons.inj rest).2.symm⟩
    | cons d between =>
        obtain ⟨rfl, rfl⟩ := List.cons.inj rest
        simp at once'

namespace Reference

theorem idOf_inj {path other : ModulePath} {name named : String} (same : idOf path name = idOf other named)
    (plain : '#' ∉ name.toList) (plain' : '#' ∉ named.toList) : path = other ∧ name = named := by
  have texts : path.text.toList ++ '#' :: name.toList = other.text.toList ++ '#' :: named.toList := by
    simpa [idOf] using congrArg String.toList same
  obtain ⟨front, behind⟩ := append_sign_inj texts (.inr plain) (.inr plain')
  exact ⟨ModulePath.text_injective (String.toList_injective front), String.toList_injective behind⟩

/-- References of different ids are unique. The induction carries those that were seen. -/
theorem checkUniqueAfter_nodup {seen references : List Reference}
    (nodup : ((seen ++ references).map Reference.id).Nodup) : checkUniqueAfter seen references = .ok () := by
  induction references generalizing seen with
  | nil => rfl
  | cons r rest ih =>
      have unseen : seen.find? (·.id == r.id) = none := by
        refine List.find?_eq_none.mpr fun other member same => ?_
        rw [List.map_append, List.nodup_append] at nodup
        exact nodup.2.2 _ (List.mem_map_of_mem member) _ (List.mem_map_of_mem List.mem_cons_self) (beq_iff_eq.mp same)
      have next : ((seen ++ [r] ++ rest).map Reference.id).Nodup := by simpa using nodup
      rw [checkUniqueAfter, unseen]
      exact ih next

end Reference

open Reference

namespace Emission

variable {options : EmissionOptions} {partition : Partition} {path : ModulePath} {found : ModuleRecord}

section Ids

/-- The names that cross are identifiers, so none of them has a hash sign in it. -/
theorem crossingNames_noHash {name : String} (member : name ∈ crossingNames found) : '#' ∉ name.toList := by
  have identifier := (crossingNames_bindable member).identifier
  intro hash
  cases chars : name.toList with
  | nil =>
      rw [chars] at hash
      cases hash
  | cons c rest =>
      rw [chars] at hash identifier
      simp only [Text.isIdentifierName, Bool.and_eq_true, List.all_eq_true] at identifier
      rcases List.mem_cons.mp hash with rfl | within
      · exact absurd identifier.1 (by decide)
      · exact absurd (identifier.2 _ within) (by decide)

theorem referencesInto_ids (found : ModuleRecord) (realm : Realm) :
    (referencesInto found realm).map Reference.id = (crossingNames found).map (idOf found.path) := by
  rw [referencesInto, List.map_map]
  rfl

theorem ids_nodup (found : ModuleRecord) : ((crossingNames found).map (idOf found.path)).Nodup := by
  refine List.Nodup.map_on (fun name member named listed same => ?_) crossingNames_nodup
  exact (idOf_inj same (crossingNames_noHash member) (crossingNames_noHash listed)).2

/-- The ids of modules of different paths. -/
theorem flatMap_ids_nodup {modules : List ModuleRecord} (nodup : (modules.map ModuleRecord.path).Nodup) :
    (modules.flatMap fun found => (crossingNames found).map (idOf found.path)).Nodup := by
  rw [List.nodup_flatMap]
  refine ⟨fun found _ => ids_nodup found, (List.pairwise_map.mp nodup).imp fun apart => ?_⟩
  refine List.disjoint_left.mpr fun id own listed => ?_
  obtain ⟨name, member, rfl⟩ := List.mem_map.mp own
  obtain ⟨named, listed, same⟩ := List.mem_map.mp listed
  exact apart (idOf_inj same.symm (crossingNames_noHash member) (crossingNames_noHash listed)).1

/-- The references to the components and to the functions of a partition, in the order in which a manifest lists
them. -/
def referencesOf (partition : Partition) : List Reference :=
  (componentModules partition).flatMap (referencesInto · .client) ++
    (functionModules partition).flatMap (referencesInto · .serverFunction)

theorem references_ids_nodup (emittable : partition.Emittable) (client : partition.client.modules.Nodup) :
    ((referencesOf partition).map Reference.id).Nodup := by
  have apart : ((componentModules partition ++ functionModules partition).map ModuleRecord.path).Nodup := by
    rw [List.map_append, List.nodup_append_comm, ← List.map_append]
    exact boundaryModules_paths_nodup emittable client
  have ids := flatMap_ids_nodup apart
  simpa only [referencesOf, List.map_append, List.map_flatMap, referencesInto_ids, List.flatMap_append] using ids

theorem generate_references {emission : Emission} (h : generate options partition = .ok emission) :
    emission.clientReferences = (componentModules partition).flatMap (referencesInto · .client) ∧
      emission.serverFunctions = (functionModules partition).flatMap (referencesInto · .serverFunction) := by
  obtain ⟨server, client, stubs, serverPass, clientPass, stubsPass, rfl, _⟩ := generate_eq_ok h
  exact passes_references serverPass clientPass stubsPass

/-- The ids of the passes are never in each other's way. -/
theorem passes_unique {server : ServerPart} {client stubs : Emission} (emittable : partition.Emittable)
    (nodup : partition.client.modules.Nodup)
    (serverPass : ofEach (serverModule options) (withRecords partition (serverSide partition)) = .ok server)
    (clientPass : ofEach (clientModule options) (withRecords partition partition.client.modules) = .ok client)
    (stubsPass : ofEach (functionStub options server)
      (withRecords partition partition.serverFunctionModules) = .ok stubs) :
    checkUnique ((server.emission ++ client ++ stubs).clientReferences ++
      (server.emission ++ client ++ stubs).serverFunctions) = .ok () := by
  obtain ⟨components, functions⟩ := passes_references serverPass clientPass stubsPass
  rw [components, functions]
  exact checkUniqueAfter_nodup (references_ids_nodup emittable nodup)

end Ids

end Emission

open Emission Script

/-- What generating code asks of the modules at the boundary of a partition. -/
structure Partition.Ready (options : EmissionOptions) (partition : Partition) : Prop where
  crosses : options.policy = .error → ∀ found ∈ boundaryModules partition, exportProblems found = []
  oneLine : ∀ found ∈ boundaryModules partition, ∀ c ∈ found.path.text.toList, isLineEnd c = false
  registers : ∀ found ∈ functionModules partition, (ModuleRecord.scriptIn? found.path
    (serverFunctionText options found (referencesInto found .serverFunction))).isSome = true

/-- The check for it, by which a project is seen to have a build without generating its code. -/
def Partition.isReady (options : EmissionOptions) (partition : Partition) : Bool :=
  (options.policy != .error || (boundaryModules partition).all fun found => (exportProblems found).isEmpty) &&
    ((boundaryModules partition).all fun found => found.path.text.toList.all (!isLineEnd ·)) &&
      (functionModules partition).all fun found => (ModuleRecord.scriptIn? found.path
        (serverFunctionText options found (referencesInto found .serverFunction))).isSome

theorem Partition.ready_of_isReady {options : EmissionOptions} {partition : Partition}
    (checked : partition.isReady options = true) : partition.Ready options := by
  simp only [isReady, Bool.and_eq_true, Bool.or_eq_true, List.all_eq_true, bne_iff_ne, ne_eq,
    List.isEmpty_iff, Bool.not_eq_true'] at checked
  obtain ⟨⟨crosses, oneLine⟩, registers⟩ := checked
  exact ⟨fun refuses => crosses.resolve_left (not_not_intro refuses), oneLine, registers⟩

namespace Emission

variable {options : EmissionOptions} {partition : Partition} {path : ModulePath} {found : ModuleRecord}

theorem checkText_isOk {code : List Char} (reads : (ModuleRecord.scriptIn? path code).isSome = true) :
    checkText path code = .ok (String.ofList code) := by
  obtain ⟨script, reads⟩ := Option.isSome_iff_exists.mp reads
  rw [checkText, reads]

theorem printText_isOk {code : String} {specifiers names : List String}
    (prints : PrintsModule path code specifiers names) : ∃ text, printText path code.toList = .ok text := by
  obtain ⟨text, printed, _⟩ := prints
  exact ⟨text, printed⟩

theorem ofEach_isOk {α : Type} [EmptyCollection α] [Append α] {emit : ModulePath → ModuleRecord → Except BuildError α}
    {items : List (ModulePath × ModuleRecord)}
    (each : ∀ path found, (path, found) ∈ items → ∃ made, emit path found = .ok made) :
    ∃ whole, ofEach emit items = .ok whole := by
  induction items with
  | nil => exact ⟨_, rfl⟩
  | cons item rest ih =>
      obtain ⟨first, emits⟩ := each item.1 item.2 List.mem_cons_self
      obtain ⟨more, later⟩ := ih fun path found member => each path found (List.mem_cons_of_mem item member)
      exact ⟨_, ofEach_cons.mpr ⟨first, emits, more, later, rfl⟩⟩

section Modules

variable (ready : partition.Ready options)

include ready

theorem crossedExports_isOk (own : found ∈ boundaryModules partition) (realm : Realm) :
    crossedExports options.policy found realm = .ok ⟨referencesInto found realm, exportProblems found⟩ := by
  unfold crossedExports
  dsimp only
  split
  · rename_i refuses listed
    rw [ready.crosses refuses found own] at listed
    cases listed
  · rfl

theorem serverModule_isOk (listed : found.realm = .serverFunction → found ∈ functionModules partition)
    (named : found.path = path) : ∃ made, serverModule options path found = .ok made := by
  unfold serverModule
  split
  · rename_i function
    have own := listed function
    have crosses := crossedExports_isOk ready (List.mem_append_left _ own) .serverFunction
    have checks := checkText_isOk (ready.registers found own)
    rw [named] at checks
    exact ⟨_, bind_eq_ok.mpr ⟨_, crosses, bind_eq_ok.mpr ⟨_, checks, rfl⟩⟩⟩
  · exact ⟨_, rfl⟩
  · exact ⟨_, rfl⟩

theorem clientModule_isOk (listed : found.realm = .client → found ∈ componentModules partition) :
    ∃ made, clientModule options path found = .ok made := by
  suffices refers : ∃ made, referencesFor options path found = .ok made by
    obtain ⟨made, refers⟩ := refers
    exact ⟨_, bind_eq_ok.mpr ⟨made, refers, rfl⟩⟩
  unfold referencesFor
  split
  · rename_i client
    have own := List.mem_append_right (functionModules partition) (listed (beq_iff_eq.mp client))
    have crosses := crossedExports_isOk ready own .client
    obtain ⟨code, prints⟩ := printText_isOk (clientReferenceModule_prints (ready.oneLine found own)
      (fun r => referencesInto_bindable) referencesInto_nodup path)
    rw [clientReferenceModule, String.toList_ofList] at prints
    exact ⟨_, bind_eq_ok.mpr ⟨_, crosses, bind_eq_ok.mpr ⟨code, prints, rfl⟩⟩⟩
  · exact ⟨_, rfl⟩

theorem functionStub_isOk {server : ServerPart} (own : found ∈ functionModules partition)
    (cached : server.references? path = some (referencesInto found .serverFunction)) :
    ∃ made, functionStub options server path found = .ok made := by
  have crosses : functionReferences options server path found = .ok ⟨referencesInto found .serverFunction, []⟩ := by
    rw [functionReferences, cached]
  obtain ⟨code, prints⟩ := printText_isOk (stubModule_prints (ready.oneLine found (List.mem_append_left _ own))
    (fun r => referencesInto_bindable) referencesInto_nodup options path)
  rw [stubModule, String.toList_ofList] at prints
  exact ⟨_, bind_eq_ok.mpr ⟨_, crosses, bind_eq_ok.mpr ⟨code, prints, rfl⟩⟩⟩

/-- A partition that is ready is emitted. -/
theorem generate_isOk (emittable : partition.Emittable) (nodup : partition.client.modules.Nodup) :
    ∃ emission, generate options partition = .ok emission := by
  have inServer {path : ModulePath} {found : ModuleRecord} (within : path ∈ serverSide partition)
      (known : partition.record? path = some found) (function : found.realm = .serverFunction) :
      found ∈ functionModules partition := mem_recordsIn.mpr ⟨⟨path, within, known⟩, function⟩
  obtain ⟨server, serverPass⟩ : ∃ server,
      ofEach (serverModule options) (withRecords partition (serverSide partition)) = .ok server := by
    refine ofEach_isOk fun path found member => ?_
    obtain ⟨within, known⟩ := mem_withRecords.mp member
    exact serverModule_isOk ready (inServer within known) (emittable.record_path path found known)
  obtain ⟨client, clientPass⟩ : ∃ client,
      ofEach (clientModule options) (withRecords partition partition.client.modules) = .ok client := by
    refine ofEach_isOk fun path found member => ?_
    obtain ⟨within, known⟩ := mem_withRecords.mp member
    exact clientModule_isOk ready fun component => mem_recordsIn.mpr ⟨⟨path, within, known⟩, component⟩
  obtain ⟨stubs, stubsPass⟩ : ∃ stubs, ofEach (functionStub options server)
      (withRecords partition partition.serverFunctionModules) = .ok stubs := by
    refine ofEach_isOk fun path found member => ?_
    obtain ⟨called, known⟩ := mem_withRecords.mp member
    obtain ⟨within, again, same, function⟩ := emittable.serves path called
    obtain rfl := Option.some.inj (known.symm.trans same)
    exact functionStub_isOk ready (inServer within known function)
      (serverPass_references emittable serverPass called known)
  have unique := passes_unique emittable nodup serverPass clientPass stubsPass
  exact ⟨_, bind_eq_ok.mpr ⟨server, serverPass, bind_eq_ok.mpr ⟨client, clientPass, bind_eq_ok.mpr ⟨stubs, stubsPass,
    bind_eq_ok.mpr ⟨(), unique, rfl⟩⟩⟩⟩⟩

end Modules

end Emission

namespace Build

variable {options : BuildOptions} {sources : Sources} {build : Build} {partition : Partition}

theorem client_nodup {project : Project} {listed : List ModulePath} {round : Round}
    (settled : project.Settled listed round) : (project.partitionOf round).client.modules.Nodup :=
  (settled.finished .client).ascending.nodup

/-- What the project that options name is split into. -/
def split (options : BuildOptions) (sources : Sources) : Except BuildError Partition := do
  let shared ← options.shared.mapM ModulePath.ofText
  let entries ← options.entries.mapM ModulePath.ofText
  Project.partition ⟨PathSet.ofList shared, sources⟩ entries

theorem compile_references (h : compile options sources = .ok build) :
    build.manifest.clientReferences ++ build.manifest.serverFunctions = Emission.referencesOf build.partition := by
  obtain ⟨_, _, _, _, _, _, emits, manifest⟩ := compile_eq_ok h
  obtain ⟨components, functions⟩ := Emission.generate_references emits
  rw [Emission.referencesOf, ← components, ← functions, manifest]
  rfl

/-- There is a build of a project whose parts are ready. -/
theorem compile_isOk (splits : split options sources = .ok partition) (ready : partition.Ready options.emission) :
    ∃ build, compile options sources = .ok build ∧ build.partition = partition := by
  obtain ⟨shared, normal, splits⟩ := bind_eq_ok.mp splits
  obtain ⟨listed, named, splits⟩ := bind_eq_ok.mp splits
  obtain ⟨round, settled, rfl, _⟩ := Project.partition_eq_ok splits
  obtain ⟨emission, emits⟩ := Emission.generate_isOk ready settled.emittable (client_nodup settled)
  exact ⟨_, bind_eq_ok.mpr ⟨shared, normal, bind_eq_ok.mpr ⟨listed, named, bind_eq_ok.mpr ⟨_, splits,
    bind_eq_ok.mpr ⟨emission, emits, rfl⟩⟩⟩⟩, rfl⟩

/-- What is seen of the parts of a project is seen of its build. -/
theorem compile_sees {α : Type} {view : Partition → α} {seen : α}
    (sees : (split options sources).toOption.map (fun partition =>
      (partition.isReady options.emission, view partition)) = some (true, seen)) :
    ∃ build, compile options sources = .ok build ∧ view build.partition = seen := by
  obtain ⟨partition, splits, sees⟩ := exists_of_toOption sees
  obtain ⟨ready, rfl⟩ := Prod.mk.inj sees
  obtain ⟨build, compiles, rfl⟩ := compile_isOk splits (Partition.ready_of_isReady ready)
  exact ⟨build, compiles, rfl⟩

end Build
end Realms
