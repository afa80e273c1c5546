import Realms.Proofs.Emission.Emittable
import Realms.Proofs.Emission.Made
import Realms.Proofs.Output
import Realms.Proofs.Partition.Boundary

/-!
Which artifacts a partition gives. Every module of a graph is built for the side of the graph, a client
module also gives its references to the server, and a module of functions its stub to the client. No side
gets two artifacts of one path, so that no file of the output is written twice.
-/
namespace Realms

/-- What tells an artifact apart: the side it is for, the path of its module and its role. -/
structure Slot where
  target : Target
  path : ModulePath
  role : Role
deriving DecidableEq, Repr

def Artifact.slot (artifact : Artifact) : Slot := ⟨artifact.target, artifact.path, artifact.role⟩

/-- The place of an artifact in the output, without its role. -/
def Slot.place (slot : Slot) : Target × ModulePath := (slot.target, slot.path)

/-- What a module is on the server when it stands in a graph there. -/
def Realm.roleOnServer : Realm → Role
  | .serverFunction => .serverFunction
  | .shared => .shared
  | .client | .server => .module

/-- What a build of a partition consists of. -/
inductive Partition.Builds (partition : Partition) : Slot → Prop
  | onServer {path realm} : path ∈ partition.server.modules ∨ path ∈ partition.serverFunctions.modules →
      partition.realm? path = some realm → Builds partition ⟨.server, path, realm.roleOnServer⟩
  | references {path} : path ∈ partition.client.modules → partition.realm? path = some .client →
      Builds partition ⟨.server, path, .clientReference⟩
  | onClient {path} : path ∈ partition.client.modules → Builds partition ⟨.client, path, .module⟩
  | stub {path} : path ∈ partition.serverFunctionModules →
      Builds partition ⟨.client, path, .serverFunctionStub⟩

namespace Emission

variable {options : EmissionOptions} {partition : Partition} {path : ModulePath} {found : ModuleRecord}

/-- The keys of what a pass gives are those of its modules, one module behind the other. -/
theorem ofEach_map {α β γ : Type} [EmptyCollection α] [Append α] {part : α → List β} (collects : Collects part)
    {emit : ModulePath → ModuleRecord → Except BuildError α} {key : β → γ}
    {keys : ModulePath → ModuleRecord → List γ}
    (each : ∀ path found made, emit path found = .ok made → (part made).map key = keys path found)
    {items : List (ModulePath × ModuleRecord)} {whole : α} (h : ofEach emit items = .ok whole) :
    (part whole).map key = items.flatMap fun item => keys item.1 item.2 := by
  induction items generalizing whole with
  | nil =>
      obtain rfl := Except.ok.inj h
      rw [collects.empty, List.map_nil, List.flatMap_nil]
  | cons item rest ih =>
      obtain ⟨first, emits, others, later, rfl⟩ := ofEach_cons.mp h
      rw [collects.append, List.map_append, List.flatMap_cons, each _ _ _ emits, ih later]

/-- What a module of a graph of the server gives. -/
def serverSlots (path : ModulePath) (found : ModuleRecord) : List Slot :=
  [⟨.server, path, found.realm.roleOnServer⟩]

/-- What a module of the client graph gives. -/
def clientSlots (path : ModulePath) (found : ModuleRecord) : List Slot :=
  (if found.realm = .client then [⟨.server, path, .clientReference⟩] else []) ++ [⟨.client, path, .module⟩]

/-- What a module of functions gives that the client calls. -/
def stubSlots (path : ModulePath) (_ : ModuleRecord) : List Slot := [⟨.client, path, .serverFunctionStub⟩]

theorem serverModule_slots {made : ServerPart} (h : serverModule options path found = .ok made) :
    made.emission.artifacts.map Artifact.slot = serverSlots path found := by
  by_cases realm : found.realm = .serverFunction
  · obtain rfl := serverModule_functions realm h
    rw [serverSlots, realm]
    rfl
  · unfold serverModule at h
    split at h
    · contradiction
    · rename_i shared
      obtain rfl := pure_eq_ok.mp h
      rw [serverSlots, shared]
      rfl
    · rename_i notShared
      obtain rfl := pure_eq_ok.mp h
      have plain : found.realm.roleOnServer = .module := by
        cases same : found.realm <;> first | rfl | exact absurd same ‹_›
      rw [serverSlots, plain]
      rfl

theorem clientModule_slots {made : Emission} (h : clientModule options path found = .ok made) :
    made.artifacts.map Artifact.slot = clientSlots path found := by
  obtain ⟨references, refers, h⟩ := bind_eq_ok.mp h
  obtain rfl := pure_eq_ok.mp h
  unfold referencesFor at refers
  split at refers
  · rename_i client
    obtain ⟨crossed, _, refers⟩ := bind_eq_ok.mp refers
    obtain ⟨code, _, refers⟩ := bind_eq_ok.mp refers
    obtain rfl := pure_eq_ok.mp refers
    rw [clientSlots, if_pos (beq_iff_eq.mp client)]
    rfl
  · rename_i other
    obtain rfl := pure_eq_ok.mp refers
    rw [clientSlots, if_neg fun client => other (beq_iff_eq.mpr client)]
    rfl

theorem functionStub_slots {server : ServerPart} {made : Emission}
    (h : functionStub options server path found = .ok made) :
    made.artifacts.map Artifact.slot = stubSlots path found := by
  obtain ⟨crossed, code, _, _, rfl⟩ := functionStub_eq_ok h
  rfl

/-- The slots of modules, one module behind the other. -/
def slotsOf (each : ModulePath → ModuleRecord → List Slot) (items : List (ModulePath × ModuleRecord)) :
    List Slot := items.flatMap fun item => each item.1 item.2

/-- The slots of a partition in the order in which they are filled. -/
def slots (partition : Partition) : List Slot :=
  slotsOf serverSlots (withRecords partition (serverSide partition)) ++
    slotsOf clientSlots (withRecords partition partition.client.modules) ++
    slotsOf stubSlots (withRecords partition partition.serverFunctionModules)

theorem generate_slots {emission : Emission} (h : generate options partition = .ok emission) :
    emission.artifacts.map Artifact.slot = slots partition := by
  obtain ⟨server, client, stubs, serverPass, clientPass, stubsPass, rfl, _⟩ := generate_eq_ok h
  have first := ofEach_map Collects.artifacts.ofServer (fun _ _ _ => serverModule_slots) serverPass
  have second := ofEach_map Collects.artifacts (fun _ _ _ => clientModule_slots) clientPass
  have third := ofEach_map Collects.artifacts (fun _ _ _ => functionStub_slots) stubsPass
  rw [Collects.artifacts.append, Collects.artifacts.append, List.map_append, List.map_append, first, second,
    third]
  rfl

theorem mem_slotsOf {each : ModulePath → ModuleRecord → List Slot} {paths : PathSet} {slot : Slot} :
    slot ∈ slotsOf each (withRecords partition paths) ↔
      ∃ path ∈ paths, ∃ found, partition.record? path = some found ∧ slot ∈ each path found := by
  simp only [slotsOf, List.mem_flatMap, Prod.exists, mem_withRecords]
  constructor
  · rintro ⟨path, found, ⟨member, known⟩, own⟩
    exact ⟨path, member, found, known, own⟩
  · rintro ⟨path, member, found, known, own⟩
    exact ⟨path, found, ⟨member, known⟩, own⟩

/-- Modules whose slots carry their paths share no place. -/
theorem slotsOf_nodup {each : ModulePath → ModuleRecord → List Slot} {items : List (ModulePath × ModuleRecord)}
    (keys : (items.map Prod.fst).Nodup) (own : ∀ path found, ((each path found).map Slot.place).Nodup)
    (named : ∀ path found, ∀ slot ∈ each path found, slot.path = path) :
    ((slotsOf each items).map Slot.place).Nodup := by
  induction items with
  | nil => exact .nil
  | cons item rest ih =>
      obtain ⟨absent, keys⟩ := List.nodup_cons.mp keys
      rw [slotsOf, List.flatMap_cons, List.map_append, List.nodup_append]
      refine ⟨own _ _, ih keys, ?_⟩
      intro place here other there same
      obtain ⟨slot, mine, rfl⟩ := List.mem_map.mp here
      obtain ⟨later, theirs, rfl⟩ := List.mem_map.mp there
      obtain ⟨next, listed, theirs⟩ := List.mem_flatMap.mp theirs
      have paths : item.1 = next.1 :=
        (named _ _ slot mine).symm.trans ((congrArg Prod.snd same).trans (named _ _ later theirs))
      exact absent (paths ▸ List.mem_map_of_mem listed)

theorem mem_clientSlots {slot : Slot} : slot ∈ clientSlots path found ↔
    (found.realm = .client ∧ slot = ⟨.server, path, .clientReference⟩) ∨ slot = ⟨.client, path, .module⟩ := by
  rw [clientSlots]
  split
  · rename_i client
    simp [client]
  · rename_i other
    simp [other]

theorem path_of_mem_clientSlots {slot : Slot} (member : slot ∈ clientSlots path found) : slot.path = path := by
  rcases mem_clientSlots.mp member with ⟨_, rfl⟩ | rfl <;> rfl

theorem clientSlots_nodup (path : ModulePath) (found : ModuleRecord) :
    ((clientSlots path found).map Slot.place).Nodup := by
  rw [clientSlots]
  split <;> simp [Slot.place]

theorem realm?_of_record (known : partition.record? path = some found) :
    partition.realm? path = some found.realm := by
  rw [Partition.realm?, known, Option.map_some]

section Boundary

variable (emittable : partition.Emittable) (keeps : partition.KeepsBoundary)

include emittable keeps

/-- The slots are those that the rule names. Every module has its record, so none is passed over. -/
theorem mem_slots {slot : Slot} : slot ∈ slots partition ↔ partition.Builds slot := by
  simp only [slots, List.mem_append, mem_slotsOf]
  constructor
  · rintro ((⟨path, member, found, known, own⟩ | ⟨path, member, found, known, own⟩) |
      ⟨path, member, found, known, own⟩)
    · obtain rfl := List.mem_singleton.mp own
      exact .onServer (PathSet.mem_union.mp member) (realm?_of_record known)
    · rcases mem_clientSlots.mp own with ⟨client, rfl⟩ | rfl
      · exact .references member (client ▸ realm?_of_record known)
      · exact .onClient member
    · obtain rfl := List.mem_singleton.mp own
      exact .stub member
  · rintro (⟨member, known⟩ | ⟨member, known⟩ | member | member)
    · obtain ⟨found, record, rfl⟩ := Option.map_eq_some_iff.mp known
      exact .inl (.inl ⟨_, PathSet.mem_union.mpr member, found, record, List.mem_singleton_self _⟩)
    · obtain ⟨found, record, client⟩ := Option.map_eq_some_iff.mp known
      exact .inl (.inr ⟨_, member, found, record, mem_clientSlots.mpr (.inl ⟨client, rfl⟩)⟩)
    · obtain ⟨realm, known⟩ := keeps.recorded .client _ member
      obtain ⟨found, record, _⟩ := Option.map_eq_some_iff.mp known
      exact .inl (.inr ⟨_, member, found, record, mem_clientSlots.mpr (.inr rfl)⟩)
    · obtain ⟨_, found, record, _⟩ := emittable.serves _ member
      exact .inr ⟨_, member, found, record, List.mem_singleton_self _⟩

theorem generate_builds {emission : Emission} (h : generate options partition = .ok emission) {slot : Slot} :
    (∃ artifact ∈ emission.artifacts, artifact.slot = slot) ↔ partition.Builds slot := by
  rw [← List.mem_map, generate_slots h]
  exact mem_slots emittable keeps

/-- No side gets two artifacts of one path: client modules stand in no graph of the server, and modules of
functions not in that of the client. -/
theorem slots_nodup (modules : partition.client.modules.Nodup) : ((slots partition).map Slot.place).Nodup := by
  rw [slots, List.map_append, List.map_append, List.nodup_append, List.nodup_append]
  refine ⟨⟨?_, ?_, ?_⟩, ?_, ?_⟩
  · exact slotsOf_nodup (withRecords_keys emittable.serverSide) (fun _ _ => List.nodup_singleton _)
      fun _ _ slot own => List.mem_singleton.mp own ▸ rfl
  · exact slotsOf_nodup (withRecords_keys modules) clientSlots_nodup fun _ _ slot => path_of_mem_clientSlots
  · intro place here other there same
    obtain ⟨slot, mine, rfl⟩ := List.mem_map.mp here
    obtain ⟨later, theirs, rfl⟩ := List.mem_map.mp there
    obtain ⟨path, onServer, _, _, own⟩ := mem_slotsOf.mp mine
    obtain ⟨path', _, found, known, own'⟩ := mem_slotsOf.mp theirs
    obtain rfl := List.mem_singleton.mp own
    rcases mem_clientSlots.mp own' with ⟨client, rfl⟩ | rfl
    · obtain rfl : path = path' := congrArg Prod.snd same
      obtain ⟨notServer, notFunctions⟩ := keeps.client path (client ▸ realm?_of_record known)
      rcases PathSet.mem_union.mp onServer with within | within
      · exact notServer within
      · exact notFunctions within
    · cases congrArg Prod.fst same
  · exact slotsOf_nodup (withRecords_keys emittable.functionModules) (fun _ _ => List.nodup_singleton _)
      fun _ _ slot own => List.mem_singleton.mp own ▸ rfl
  · intro place here other there same
    obtain ⟨later, theirs, rfl⟩ := List.mem_map.mp there
    obtain ⟨path, called, _, _, own⟩ := mem_slotsOf.mp theirs
    obtain rfl := List.mem_singleton.mp own
    rcases List.mem_append.mp here with here | here
    · obtain ⟨slot, mine, rfl⟩ := List.mem_map.mp here
      obtain ⟨_, _, _, _, own⟩ := mem_slotsOf.mp mine
      obtain rfl := List.mem_singleton.mp own
      cases congrArg Prod.fst same
    · obtain ⟨slot, mine, rfl⟩ := List.mem_map.mp here
      obtain ⟨path', onClient, _, _, own⟩ := mem_slotsOf.mp mine
      obtain rfl : path' = path :=
        (path_of_mem_clientSlots own).symm.trans (congrArg Prod.snd same)
      obtain ⟨_, found, known, functions⟩ := emittable.serves path' called
      exact (keeps.serverFunction path' (functions ▸ realm?_of_record known)).2.1 onClient

end Boundary

end Emission

theorem FilePath.splitParts_injective : Function.Injective splitParts := by
  intro a b same
  have parts : a.toList.splitOn '/' = b.toList.splitOn '/' :=
    List.map_injective_iff.mpr (fun _ _ => String.ofList_injective) same
  have joined := congrArg (['/'].intercalate ·) parts
  simp only [List.intercalate_splitOn] at joined
  exact String.toList_injective joined

theorem Target.name_injective : Function.Injective Target.name := by
  intro a b same
  cases a <;> cases b <;> first | rfl | exact absurd same (by decide)

/-- Artifacts of different places are written to different files. -/
theorem Build.place_artifactFile_injective {a b : Artifact} (here : Place) (folder : String)
    (normal : a.path.Normal) (other : b.path.Normal)
    (same : FilePath.place here (artifactFile folder a) = FilePath.place here (artifactFile folder b)) :
    a.slot.place = b.slot.place := by
  rw [place_artifactFile normal, place_artifactFile other, List.append_cancel_left_eq, List.cons.injEq] at same
  obtain ⟨target, path⟩ := same
  exact Prod.ext (Target.name_injective target)
    (ModulePath.text_injective (FilePath.splitParts_injective path))

namespace Project

variable {project : Project} {listed : List ModulePath} {partition : Partition} {options : EmissionOptions}
  {emission : Emission}

/-- The artifacts of a partition are exactly those that it builds, and each of them has a place of its own in
the output, so that none is written over another one. -/
theorem partition_builds (splits : project.partition listed = .ok partition)
    (h : Emission.generate options partition = .ok emission) :
    (∀ slot, (∃ artifact ∈ emission.artifacts, artifact.slot = slot) ↔ partition.Builds slot) ∧
      (emission.artifacts.map fun artifact => (artifact.target, artifact.path)).Nodup ∧
        ((∀ path ∈ listed, path.Normal) → ∀ here folder, (emission.artifacts.map fun artifact =>
          FilePath.place here (Build.artifactFile folder artifact)).Nodup) := by
  obtain ⟨round, settled, rfl, _⟩ := partition_eq_ok splits
  have nodup := Emission.slots_nodup settled.emittable settled.keepsBoundary
    (settled.finished .client).ascending.nodup
  rw [← Emission.generate_slots h, List.map_map] at nodup
  refine ⟨fun slot => Emission.generate_builds settled.emittable settled.keepsBoundary h, nodup,
    fun normal here folder => ?_⟩
  have named : ∀ artifact ∈ emission.artifacts, artifact.path.Normal := by
    intro artifact member
    obtain ⟨found, known⟩ := Emission.generate_record h member
    exact settled.record_normal normal known
  refine List.Nodup.map_on ?_ nodup.of_map
  intro a first b second same
  have place := Build.place_artifactFile_injective here folder (named a first) (named b second) same
  exact List.inj_on_of_nodup_map nodup first second place

/-- A page with a button that calls a function, all with one shared state. -/
def buttonPage : Project where
  shared := [⟨"s.js"⟩]
  sources := .ofTexts [(⟨"p.js"⟩, "import './b.js'"), (⟨"b.js"⟩, "'use client'; import './f.js'"),
    (⟨"f.js"⟩, "'use server'; import './s.js'"), (⟨"s.js"⟩, "")]

/-- The button is built for the client and stands as references on the server, and the function is built for
the server and called over its stub. -/
def buttonSlots : List Slot :=
  [⟨.server, ⟨"f.js"⟩, .serverFunction⟩, ⟨.server, ⟨"p.js"⟩, .module⟩, ⟨.server, ⟨"s.js"⟩, .shared⟩,
    ⟨.server, ⟨"b.js"⟩, .clientReference⟩, ⟨.client, ⟨"b.js"⟩, .module⟩,
    ⟨.client, ⟨"f.js"⟩, .serverFunctionStub⟩]

/-- Six artifacts for four modules. -/
theorem buttonPage_builds : (∀ path ∈ [(⟨"p.js"⟩ : ModulePath)], path.Normal) ∧
    ∃ partition emission, buttonPage.partition [⟨"p.js"⟩] = .ok partition ∧
      Emission.generate .standard partition = .ok emission ∧
        emission.artifacts.map Artifact.slot = buttonSlots ∧
          (∀ slot, (∃ artifact ∈ emission.artifacts, artifact.slot = slot) ↔ partition.Builds slot) ∧
            (emission.artifacts.map fun artifact => (artifact.target, artifact.path)).Nodup ∧
              ∀ here folder, (emission.artifacts.map fun artifact =>
                FilePath.place here (Build.artifactFile folder artifact)).Nodup := by
  have normal : ∀ path ∈ [(⟨"p.js"⟩ : ModulePath)], path.Normal := by
    intro path member
    obtain rfl := List.mem_singleton.mp member
    exact ⟨["p.js".toList], by decide, by decide, by decide⟩
  have runs : ((buttonPage.partition [⟨"p.js"⟩]).toOption.bind fun partition =>
      (Emission.generate .standard partition).toOption.map fun emission =>
        emission.artifacts.map Artifact.slot) = some buttonSlots := by decide +kernel
  refine ⟨normal, ?_⟩
  cases splits : buttonPage.partition [⟨"p.js"⟩] with
  | error e =>
      rw [splits] at runs
      cases runs
  | ok partition =>
      cases emits : Emission.generate .standard partition with
      | error e => simp [splits, emits, Except.toOption] at runs
      | ok emission =>
          simp only [splits, emits, Except.toOption, Option.bind_some, Option.map_some, Option.some.injEq] at runs
          obtain ⟨exact, nodup, files⟩ := partition_builds splits emits
          exact ⟨partition, emission, rfl, emits, runs, exact, nodup, files normal⟩

end Project
end Realms
