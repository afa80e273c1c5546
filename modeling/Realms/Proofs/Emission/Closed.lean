import Realms.Proofs.Emission.Ready

/-!
Builds are closed under their imports. What a module of a graph imports is built into the graph or asked of
the graph of its realm, and either way its side gets an artifact for it. The one exception is by design: a
shared module that the client imports is left outside and built for the server alone.
-/
namespace Realms

namespace Project

variable {project : Project} {listed : List ModulePath} {round : Round} {kind : GraphKind}
  {importer target : ModulePath} {realm : Realm}

/-- What a member imports is a member too, or an entry of the graph of its realm. -/
theorem Stands.leads (stands : project.Stands listed .member kind importer)
    (imports : project.Imports importer target realm) :
    (project.Stands listed .member kind target ∧ (link kind realm).linkage = .inline) ∨
      project.Stands listed .member (GraphKind.ofRealm realm) target := by
  rcases link_cases kind realm with ⟨inline, _, _⟩ | ⟨_, asks⟩
  · exact .inl ⟨.inlined stands ⟨realm, imports, inline⟩, inline⟩
  · exact .inr (.entry (.asked stands ⟨realm, imports, asks⟩))

theorem Settled.edge_imports (settled : project.Settled listed round) {edge : Edge}
    (member : edge ∈ (round.walk kind).graph.edges) (leads : edge.target = some target) :
    ∃ realm, project.Imports edge.importer target realm := by
  obtain ⟨realm, imports, _⟩ := settled.exists_import member leads
  exact ⟨realm, imports⟩

theorem Settled.mem_graph (settled : project.Settled listed round) (kind : GraphKind) {path : ModulePath} :
    path ∈ ((project.partitionOf round).graph kind).modules ↔ project.Stands listed .member kind path := by
  rw [graph_partitionOf]
  exact settled.mem_modules kind path

theorem Settled.realm?_eq (settled : project.Settled listed round)
    (stands : project.Stands listed .member kind target) (imports : project.Imports importer target realm) :
    (project.partitionOf round).realm? target = some realm :=
  realm?_eq_some.mpr ⟨(settled.mem_loaded target).mpr ⟨kind, stands⟩, imports.loads⟩

theorem Settled.realm?_of_imports (settled : project.Settled listed round)
    (stands : project.Stands listed .member kind importer) (imports : project.Imports importer target realm) :
    (project.partitionOf round).realm? target = some realm := by
  rcases stands.leads imports with ⟨inline, _⟩ | asked
  · exact settled.realm?_eq inline imports
  · exact settled.realm?_eq asked imports

/-- Whatever stands in the graph of its realm is built for the server, a client module as its references. -/
theorem Settled.builds_of_realm (settled : project.Settled listed round)
    (stands : project.Stands listed .member (GraphKind.ofRealm realm) target)
    (imports : project.Imports importer target realm) :
    ∃ role, (project.partitionOf round).Builds ⟨.server, target, role⟩ := by
  have known := settled.realm?_eq stands imports
  have within := (settled.mem_graph _).mpr stands
  cases realm with
  | server => exact ⟨_, .onServer (.inl within) known⟩
  | shared => exact ⟨_, .onServer (.inl within) known⟩
  | serverFunction => exact ⟨_, .onServer (.inr within) known⟩
  | client => exact ⟨_, .references within known⟩

/-- The server gets what its modules import. -/
theorem Settled.builds_onServer (settled : project.Settled listed round)
    (stands : project.Stands listed .member kind importer) (imports : project.Imports importer target realm)
    (server : kind ≠ .client) : ∃ role, (project.partitionOf round).Builds ⟨.server, target, role⟩ := by
  rcases stands.leads imports with ⟨inline, _⟩ | asked
  · have known := settled.realm?_eq inline imports
    have within := (settled.mem_graph _).mpr inline
    cases kind with
    | server => exact ⟨_, .onServer (.inl within) known⟩
    | serverFunction => exact ⟨_, .onServer (.inr within) known⟩
    | client => exact absurd rfl server
  · exact settled.builds_of_realm asked imports

/-- The client gets what its modules import, unless it is shared. -/
theorem Settled.builds_onClient (settled : project.Settled listed round)
    (stands : project.Stands listed .member .client importer) (imports : project.Imports importer target realm)
    (notShared : realm ≠ .shared) : ∃ role, (project.partitionOf round).Builds ⟨.client, target, role⟩ := by
  cases realm with
  | shared => exact absurd rfl notShared
  | serverFunction =>
      have within : importer ∈ (round.walk .client).graph.modules := (settled.mem_modules _ _).mpr stands
      exact ⟨_, .stub (((settled.finished .client).mem_fromClient target).mpr
        ⟨importer, within, .serverFunction, imports, rfl⟩)⟩
  | client => exact ⟨_, .onClient ((settled.mem_graph _).mpr (.inlined stands ⟨.client, imports, rfl⟩))⟩
  | server => exact ⟨_, .onClient ((settled.mem_graph _).mpr (.inlined stands ⟨.server, imports, rfl⟩))⟩

/-- A shared module is built for the server, as one that is shared, and for nothing else. -/
theorem Settled.builds_shared (settled : project.Settled listed round)
    (known : (project.partitionOf round).realm? target = some .shared) {slot : Slot}
    (builds : (project.partitionOf round).Builds slot) (named : slot.path = target) :
    slot = ⟨.server, target, .shared⟩ := by
  obtain ⟨notClient, _, _⟩ := settled.keepsBoundary.shared target known
  cases builds with
  | onServer _ realm =>
      obtain rfl := named
      obtain rfl := Option.some.inj (known.symm.trans realm)
      rfl
  | references member _ => exact absurd (named ▸ member) notClient
  | onClient member => exact absurd (named ▸ member) notClient
  | stub member =>
      obtain ⟨_, found, record, functions⟩ := settled.emittable.serves _ member
      obtain rfl := named
      have functions := functions ▸ Emission.realm?_of_record record
      cases known.symm.trans functions

end Project

namespace Build

variable {options : BuildOptions} {sources : Sources} {build : Build}

/-- A side of a build has an artifact of a path. -/
def Has (build : Build) (target : Target) (path : ModulePath) : Prop :=
  ∃ artifact ∈ build.emission.artifacts, artifact.target = target ∧ artifact.path = path

theorem has_iff {target : Target} {path : ModulePath} : build.Has target path ↔
    ∃ role, ∃ artifact ∈ build.emission.artifacts, artifact.slot = ⟨target, path, role⟩ := by
  constructor
  · rintro ⟨artifact, member, rfl, rfl⟩
    exact ⟨artifact.role, artifact, member, rfl⟩
  · rintro ⟨role, artifact, member, same⟩
    exact ⟨artifact, member, congrArg Slot.target same, congrArg Slot.path same⟩

/-- A build is closed under its imports. The server has an artifact for whatever a module of its graphs
imports, and so has the client but for shared modules: these are left outside of it and built for the server
alone. -/
theorem compile_closed (h : compile options sources = .ok build) {kind : GraphKind} {edge : Edge}
    (drawn : edge ∈ (build.partition.graph kind).edges) {target : ModulePath} (leads : edge.target = some target) :
    (edge.importer ∈ build.partition.server.modules ∨ edge.importer ∈ build.partition.serverFunctions.modules →
        build.Has .server target) ∧
      (edge.importer ∈ build.partition.client.modules → build.partition.realm? target ≠ some .shared →
        build.Has .client target) ∧
      (edge.importer ∈ build.partition.client.modules → build.partition.realm? target = some .shared →
        build.Has .server target ∧ ¬build.Has .client target) := by
  obtain ⟨project, listed, round, settled, _, whole, emits, _⟩ := compile_eq_ok h
  have builds {slot : Slot} : (∃ artifact ∈ build.emission.artifacts, artifact.slot = slot) ↔
      (project.partitionOf round).Builds slot := by
    rw [whole] at emits
    exact Emission.generate_builds settled.emittable settled.keepsBoundary emits
  rw [whole] at drawn ⊢
  rw [Project.graph_partitionOf] at drawn
  obtain ⟨realm, imports⟩ := settled.edge_imports drawn leads
  simp only [has_iff, builds]
  refine ⟨?_, ?_, ?_⟩
  · rintro (server | functions)
    · exact settled.builds_onServer ((settled.mem_graph .server).mp server) imports nofun
    · exact settled.builds_onServer ((settled.mem_graph .serverFunction).mp functions) imports nofun
  · intro client notShared
    have stands := (settled.mem_graph .client).mp client
    refine settled.builds_onClient stands imports ?_
    rintro rfl
    exact notShared (settled.realm?_of_imports stands imports)
  · intro client shared
    have stands := (settled.mem_graph .client).mp client
    obtain rfl : realm = .shared := Option.some.inj ((settled.realm?_of_imports stands imports).symm.trans shared)
    constructor
    · rcases stands.leads imports with ⟨_, inline⟩ | asked
      · cases inline
      · exact settled.builds_of_realm asked imports
    · rintro ⟨role, found⟩
      cases settled.builds_shared shared found rfl

/-- A button, the function it calls and a state of both. -/
def savedSources : Sources :=
  .ofTexts [(⟨"b.js"⟩, "'use client'; import './f.js'; import './s.js'"),
    (⟨"f.js"⟩, "'use server'; import './s.js'"), (⟨"s.js"⟩, "")]

def savedOptions : BuildOptions :=
  ⟨".", ["b.js"], ["s.js"], .standard⟩

def savedEdges : List Edge :=
  [⟨⟨"b.js"⟩, "./f.js", some ⟨"f.js"⟩, .external, .intoServerFunction⟩,
    ⟨⟨"b.js"⟩, "./s.js", some ⟨"s.js"⟩, .external, .none⟩]

def savedPlaces : List (Target × ModulePath) :=
  [(.server, ⟨"f.js"⟩), (.server, ⟨"s.js"⟩), (.server, ⟨"b.js"⟩), (.client, ⟨"b.js"⟩), (.client, ⟨"f.js"⟩)]

theorem savedSources_runs : ∃ build, compile savedOptions savedSources = .ok build ∧
    build.partition.client.modules = [⟨"b.js"⟩] ∧ build.partition.client.edges = savedEdges ∧
      build.partition.realm? ⟨"f.js"⟩ = some .serverFunction ∧
        build.emission.artifacts.map (fun artifact => (artifact.target, artifact.path)) = savedPlaces := by
  have sees : (split savedOptions savedSources).toOption.map (fun partition =>
      (partition.isReady savedOptions.emission, decide (partition.client.modules = [⟨"b.js"⟩] ∧
        partition.client.edges = savedEdges ∧ partition.realm? ⟨"f.js"⟩ = some .serverFunction ∧
          (Emission.slots partition).map Slot.place = savedPlaces))) = some (true, true) := by decide +kernel
  obtain ⟨build, compiles, sees⟩ := compile_sees sees
  obtain ⟨modules, edges, functions, places⟩ := of_decide_eq_true sees
  obtain ⟨_, _, _, _, _, _, emits, _⟩ := compile_eq_ok compiles
  rw [← Emission.generate_slots emits, List.map_map] at places
  exact ⟨build, compiles, modules, edges, functions, places⟩

/-- The function that the button calls is built for the client, as a stub. -/
theorem savedSources_closed : ∃ build, compile savedOptions savedSources = .ok build ∧
    ∃ edge ∈ build.partition.client.edges, edge.target = some ⟨"f.js"⟩ ∧
      edge.importer ∈ build.partition.client.modules ∧ build.partition.realm? ⟨"f.js"⟩ ≠ some .shared ∧
        build.Has .client ⟨"f.js"⟩ := by
  obtain ⟨build, compiles, modules, edges, functions, _⟩ := savedSources_runs
  have drawn : savedEdges[0] ∈ (build.partition.graph .client).edges := by
    rw [Partition.graph, edges]
    decide
  have client : savedEdges[0].importer ∈ build.partition.client.modules := by
    rw [modules]
    decide
  have notShared : build.partition.realm? ⟨"f.js"⟩ ≠ some .shared := by
    rw [functions]
    decide
  obtain ⟨_, closed, _⟩ := compile_closed compiles drawn rfl
  exact ⟨build, compiles, savedEdges[0], drawn, rfl, client, notShared, closed client notShared⟩

/-- Their state is not, though the button imports it. -/
theorem savedSources_open : ∃ build, compile savedOptions savedSources = .ok build ∧
    ∃ edge ∈ build.partition.client.edges, edge.target = some ⟨"s.js"⟩ ∧
      edge.importer ∈ build.partition.client.modules ∧ ¬build.Has .client ⟨"s.js"⟩ := by
  obtain ⟨build, compiles, modules, edges, _, artifacts⟩ := savedSources_runs
  refine ⟨build, compiles, savedEdges[1], ?_, rfl, ?_, ?_⟩
  · rw [edges]
    decide
  · rw [modules]
    decide
  · rintro ⟨artifact, member, target, path⟩
    have placed : (artifact.target, artifact.path) ∈ savedPlaces :=
      artifacts ▸ List.mem_map_of_mem member
    rw [target, path] at placed
    exact absurd placed (by decide)

end Build
end Realms
