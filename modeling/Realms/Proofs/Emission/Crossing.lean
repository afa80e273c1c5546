import Realms.Proofs.Emission.Functions
import Realms.Proofs.Emission.Slots

/-!
What crosses the boundary in a build: the references to the exports of its modules of functions and of its components,
and a warning for each form of export that cannot cross. Every such module adds its part once, although its stub is
made in a pass of its own.
-/
namespace Realms

namespace Emission

variable {options : EmissionOptions} {partition : Partition} {path : ModulePath} {found : ModuleRecord}

/-- The records of one realm among the modules of a pass. -/
def recordsIn (realm : Realm) (items : List (ModulePath × ModuleRecord)) : List ModuleRecord :=
  (items.map Prod.snd).filter (·.realm == realm)

/-- The modules of functions, in the order in which the server gets them. -/
def functionModules (partition : Partition) : List ModuleRecord :=
  recordsIn .serverFunction (withRecords partition (serverSide partition))

/-- The client modules, in the order in which the server gets their references. -/
def componentModules (partition : Partition) : List ModuleRecord :=
  recordsIn .client (withRecords partition partition.client.modules)

/-- The modules whose exports cross the boundary. -/
def boundaryModules (partition : Partition) : List ModuleRecord :=
  functionModules partition ++ componentModules partition

theorem mem_recordsIn {realm : Realm} {paths : PathSet} : found ∈ recordsIn realm (withRecords partition paths) ↔
    (∃ path ∈ paths, partition.record? path = some found) ∧ found.realm = realm := by
  simp only [recordsIn, List.mem_filter, List.mem_map, beq_iff_eq, Prod.exists, mem_withRecords]
  constructor
  · rintro ⟨⟨path, record, ⟨member, known⟩, rfl⟩, realm⟩
    exact ⟨⟨path, member, known⟩, realm⟩
  · rintro ⟨⟨path, member, known⟩, realm⟩
    exact ⟨⟨path, found, ⟨member, known⟩, rfl⟩, realm⟩

/-- What only the modules of one realm give. -/
theorem flatMap_recordsIn {β : Type} (realm : Realm) (part : ModuleRecord → List β)
    (items : List (ModulePath × ModuleRecord)) :
    (items.flatMap fun item => if item.2.realm = realm then part item.2 else []) =
      (recordsIn realm items).flatMap part := by
  induction items with
  | nil => rfl
  | cons item items ih =>
      rw [List.flatMap_cons, ih]
      by_cases same : item.2.realm = realm
      · simp [recordsIn, same]
      · simp [recordsIn, same]

/-- A part of a pass to which each module of one realm adds its own. -/
theorem ofEach_realm {α β : Type} [EmptyCollection α] [Append α] {part : α → List β} (collects : Collects part)
    {emit : ModulePath → ModuleRecord → Except BuildError α} {realm : Realm} {own : ModuleRecord → List β}
    (each : ∀ path found made, emit path found = .ok made →
      part made = if found.realm = realm then own found else [])
    {items : List (ModulePath × ModuleRecord)} {whole : α} (h : ofEach emit items = .ok whole) :
    part whole = (recordsIn realm items).flatMap own := by
  have added : (part whole).map id = items.flatMap fun item => if item.2.realm = realm then own item.2 else [] :=
    ofEach_map collects (fun path found made emits => (List.map_id _).trans (each path found made emits)) h
  rwa [List.map_id, flatMap_recordsIn] at added

theorem Collects.clientReferences : Collects Emission.clientReferences := ⟨rfl, fun _ _ => rfl⟩

theorem Collects.warnings : Collects Emission.warnings := ⟨rfl, fun _ _ => rfl⟩

/-- What a module adds to the references and warnings of the pass for the server. -/
theorem serverModule_crossing {made : ServerPart} (h : serverModule options path found = .ok made) :
    made.emission.clientReferences = [] ∧
      made.emission.serverFunctions =
        (if found.realm = .serverFunction then referencesInto found .serverFunction else []) ∧
      made.emission.warnings = if found.realm = .serverFunction then exportProblems found else [] := by
  by_cases realm : found.realm = .serverFunction
  · obtain rfl := serverModule_functions realm h
    rw [if_pos realm, if_pos realm]
    exact ⟨rfl, rfl, rfl⟩
  · obtain ⟨role, _, rfl⟩ := serverModule_plain realm h
    rw [if_neg realm, if_neg realm]
    exact ⟨rfl, rfl, rfl⟩

theorem clientModule_crossing {made : Emission} (h : clientModule options path found = .ok made) :
    made.clientReferences = (if found.realm = .client then referencesInto found .client else []) ∧
      made.warnings = if found.realm = .client then exportProblems found else [] := by
  obtain ⟨references, refers, h⟩ := bind_eq_ok.mp h
  obtain rfl := pure_eq_ok.mp h
  rw [Collects.clientReferences.append, Collects.warnings.append]
  unfold referencesFor at refers
  split at refers
  · rename_i client
    obtain ⟨crossed, crosses, refers⟩ := bind_eq_ok.mp refers
    obtain rfl := crossedExports_eq_ok crosses
    obtain ⟨code, _, refers⟩ := bind_eq_ok.mp refers
    obtain rfl := pure_eq_ok.mp refers
    rw [if_pos (beq_iff_eq.mp client), if_pos (beq_iff_eq.mp client)]
    exact ⟨List.append_nil _, List.append_nil _⟩
  · rename_i other
    obtain rfl := pure_eq_ok.mp refers
    rw [if_neg fun client => other (beq_iff_eq.mpr client), if_neg fun client => other (beq_iff_eq.mpr client)]
    exact ⟨rfl, rfl⟩

section Passes

variable {server : ServerPart} {client stubs : Emission} {items : List (ModulePath × ModuleRecord)}

theorem stubsPass_clientReferences (stubsPass : ofEach (functionStub options server) items = .ok stubs) :
    stubs.clientReferences = [] := by
  apply ofEach_nil Collects.clientReferences stubsPass
  intro path found made _ emits
  obtain ⟨crossed, code, _, _, rfl⟩ := functionStub_eq_ok emits
  rfl

/-- The references of a build, whether or not its ids turn out to be told apart. -/
theorem passes_references (serverPass : ofEach (serverModule options)
      (withRecords partition (serverSide partition)) = .ok server)
    (clientPass : ofEach (clientModule options) (withRecords partition partition.client.modules) = .ok client)
    (stubsPass : ofEach (functionStub options server)
      (withRecords partition partition.serverFunctionModules) = .ok stubs) :
    (server.emission ++ client ++ stubs).clientReferences =
        (componentModules partition).flatMap (referencesInto · .client) ∧
      (server.emission ++ client ++ stubs).serverFunctions =
        (functionModules partition).flatMap (referencesInto · .serverFunction) := by
  have collects : Collects fun server : ServerPart => server.emission.clientReferences :=
    Collects.clientReferences.ofServer
  have noClient := ofEach_nil collects serverPass fun _ _ _ _ emits => (serverModule_crossing emits).1
  have functions := ofEach_realm Collects.serverFunctions.ofServer
    (fun _ _ _ emits => (serverModule_crossing emits).2.1) serverPass
  have components := ofEach_realm Collects.clientReferences
    (fun _ _ _ emits => (clientModule_crossing emits).1) clientPass
  constructor
  · rw [Collects.clientReferences.append, Collects.clientReferences.append, noClient,
      stubsPass_clientReferences stubsPass, List.nil_append, List.append_nil]
    exact components
  · rw [Collects.serverFunctions.append, Collects.serverFunctions.append, clientPass_serverFunctions clientPass,
      stubsPass_serverFunctions stubsPass, List.append_nil, List.append_nil]
    exact functions

/-- A stub takes the references that the server has made, so that it warns of nothing. -/
theorem stubsPass_warnings (emittable : partition.Emittable)
    (serverPass : ofEach (serverModule options) (withRecords partition (serverSide partition)) = .ok server)
    (stubsPass : ofEach (functionStub options server)
      (withRecords partition partition.serverFunctionModules) = .ok stubs) : stubs.warnings = [] := by
  apply ofEach_nil Collects.warnings stubsPass
  intro path found made listed emits
  obtain ⟨member, known⟩ := mem_withRecords.mp listed
  have cached := serverPass_references emittable serverPass member known
  obtain ⟨crossed, code, crosses, _, rfl⟩ := functionStub_eq_ok emits
  rw [functionReferences, cached] at crosses
  obtain rfl := Except.ok.inj crosses
  rfl

end Passes

/-- The warnings of a build are those of its modules at the boundary, one module behind the other. -/
theorem generate_warnings {emission : Emission} (emittable : partition.Emittable)
    (h : generate options partition = .ok emission) :
    emission.warnings = (boundaryModules partition).flatMap exportProblems := by
  obtain ⟨server, client, stubs, serverPass, clientPass, stubsPass, rfl, _⟩ := generate_eq_ok h
  have functions := ofEach_realm Collects.warnings.ofServer
    (fun _ _ _ emits => (serverModule_crossing emits).2.2) serverPass
  have components := ofEach_realm Collects.warnings
    (fun _ _ _ emits => (clientModule_crossing emits).2) clientPass
  rw [Collects.warnings.append, Collects.warnings.append, stubsPass_warnings emittable serverPass stubsPass,
    List.append_nil, boundaryModules, List.flatMap_append]
  exact congrArg₂ (· ++ ·) functions components

section Boundary

variable (emittable : partition.Emittable)

include emittable

theorem recordsIn_paths_nodup {paths : PathSet} (nodup : paths.Nodup) (realm : Realm) :
    ((recordsIn realm (withRecords partition paths)).map ModuleRecord.path).Nodup := by
  have named : (withRecords partition paths).map (ModuleRecord.path ∘ Prod.snd) =
      (withRecords partition paths).map Prod.fst :=
    List.map_congr_left fun item member => emittable.record_path item.1 item.2 (mem_withRecords.mp member).2
  refine ((List.filter_sublist (p := (·.realm == realm))).map ModuleRecord.path).nodup ?_
  rw [List.map_map, named]
  exact withRecords_keys nodup

theorem record_of_mem {realm : Realm} {paths : PathSet}
    (member : found ∈ recordsIn realm (withRecords partition paths)) :
    found.path ∈ paths ∧ partition.record? found.path = some found ∧ found.realm = realm := by
  obtain ⟨⟨path, within, known⟩, same⟩ := mem_recordsIn.mp member
  obtain rfl := emittable.record_path path found known
  exact ⟨within, known, same⟩

/-- No module stands at the boundary twice, and none as two kinds of modules. -/
theorem boundaryModules_paths_nodup (client : partition.client.modules.Nodup) :
    ((boundaryModules partition).map ModuleRecord.path).Nodup := by
  rw [boundaryModules, List.map_append]
  refine List.nodup_append.mpr ⟨recordsIn_paths_nodup emittable emittable.serverSide .serverFunction,
    recordsIn_paths_nodup emittable client .client, ?_⟩
  rintro _ function _ component rfl
  obtain ⟨found, own, rfl⟩ := List.mem_map.mp function
  obtain ⟨other, listed, same⟩ := List.mem_map.mp component
  obtain ⟨_, known, functions⟩ := record_of_mem emittable own
  obtain ⟨_, again, shown⟩ := record_of_mem emittable listed
  rw [same, known] at again
  obtain rfl := Option.some.inj again
  cases functions.symm.trans shown

theorem mem_boundaryModules : found ∈ boundaryModules partition ↔ partition.record? found.path = some found ∧
    (found.path ∈ serverSide partition ∧ found.realm = .serverFunction ∨
      found.path ∈ partition.client.modules ∧ found.realm = .client) := by
  rw [boundaryModules, List.mem_append]
  constructor
  · rintro (function | component)
    · obtain ⟨within, known, realm⟩ := record_of_mem emittable function
      exact ⟨known, .inl ⟨within, realm⟩⟩
    · obtain ⟨within, known, realm⟩ := record_of_mem emittable component
      exact ⟨known, .inr ⟨within, realm⟩⟩
  · rintro ⟨known, ⟨within, realm⟩ | ⟨within, realm⟩⟩
    · exact .inl (mem_recordsIn.mpr ⟨⟨found.path, within, known⟩, realm⟩)
    · exact .inr (mem_recordsIn.mpr ⟨⟨found.path, within, known⟩, realm⟩)

end Boundary

end Emission
end Realms
