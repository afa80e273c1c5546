import Realms.Proofs.Partition.Records

/-!
What a partition says of its project. Each import of a module is one edge in the graphs that hold the module,
the parts of a graph can be read off its edges, and the records are those of what is built.
-/
namespace Realms

namespace Followed

variable {step : Followed} {kind : GraphKind} {form : Link → Prop} {holds : Edge → Prop}
  {target path : ModulePath} {realm : Realm}

theorem edge_package {name : String} (package : step.destination = .package name) :
    step.edge kind = ⟨step.importer, step.found.specifier, none, .package, .none⟩ := by
  rw [edge, package]

theorem edge_module (module : step.destination = .module target realm) : step.edge kind =
    ⟨step.importer, step.found.specifier, some target, (link kind realm).linkage, (link kind realm).crossing⟩ := by
  rw [edge, module]

theorem edge_importer : (step.edge kind).importer = step.importer := by
  cases destination : step.destination with
  | package name => rw [edge_package destination]
  | module target realm => rw [edge_module destination]

/-- The edge of an import tells where it leads, and over which link. -/
theorem leadsTo_iff_edge (same : ∀ importer specifier target realm, form (link kind realm) ↔
      holds ⟨importer, specifier, target, (link kind realm).linkage, (link kind realm).crossing⟩) :
    step.LeadsTo kind form path ↔ holds (step.edge kind) ∧ (step.edge kind).target = some path := by
  cases destination : step.destination with
  | package name =>
      rw [edge_package destination]
      exact iff_of_false (not_leadsTo destination) fun ⟨_, target⟩ => nomatch target
  | module target realm =>
      rw [edge_module destination, leadsTo_iff destination, same, Option.some.injEq, and_comm, eq_comm]

/-- Only packages are linked as such. -/
theorem edge_linkage_package : (step.edge kind).linkage = .package ↔ ∃ name, step.destination = .package name := by
  cases destination : step.destination with
  | package name =>
      rw [edge_package destination]
      exact iff_of_true rfl ⟨name, rfl⟩
  | module target realm =>
      rw [edge_module destination]
      refine iff_of_false ?_ fun ⟨_, package⟩ => nomatch package
      rcases link_cases kind realm with ⟨inline, _⟩ | ⟨external, _⟩
      · simp [inline]
      · simp [external]

end Followed

namespace Resolution

theorem firstOf_ne_package {isFile : ModulePath → Bool} (candidates : List String) {name : String} :
    firstOf isFile candidates ≠ .ok (.package name) := by
  induction candidates with
  | nil => exact fun h => nomatch h
  | cons candidate rest ih =>
      intro h
      obtain ⟨path, _, h⟩ := bind_eq_ok.mp h
      split at h
      · cases h
      · exact ih h

/-- A package goes by the specifier of its import. -/
theorem resolve_package {isFile : ModulePath → Bool} {importer : ModulePath} {specifier name : String}
    (h : resolve isFile importer specifier = .ok (.package name)) : name = specifier := by
  unfold resolve at h
  split at h
  · cases h
    rfl
  · obtain ⟨base, _, h⟩ := bind_eq_ok.mp h
    exact absurd h (firstOf_ne_package _)

end Resolution

namespace Partition

/-- The edge of an import: what its specifier resolves to, linked by the rule for the graph. -/
inductive Linked (project : Project) (partition : Partition) (kind : GraphKind) (importer : ModulePath)
    (found : ImportRecord) : Edge → Prop
  | package {name} : project.resolve importer found.specifier = .ok (.package name) →
      Linked project partition kind importer found ⟨importer, found.specifier, none, .package, .none⟩
  | module {target realm} : project.resolve importer found.specifier = .ok (.module target) →
      partition.realm? target = some realm → Linked project partition kind importer found
        ⟨importer, found.specifier, some target, (link kind realm).linkage, (link kind realm).crossing⟩

/-- A graph has an edge for each import of its modules and no other ones, and its other parts are read off them. -/
structure Draws (project : Project) (partition : Partition) (kind : GraphKind) (graph : BuildGraph) : Prop where
  kind_eq : graph.kind = kind
  edgesFrom : ∀ path ∈ graph.modules, ∃ record, partition.record? path = some record ∧
    project.load path = .ok record ∧
      List.Forall₂ (partition.Linked project kind path) record.imports (graph.edgesFrom path)
  importers : ∀ edge ∈ graph.edges, edge.importer ∈ graph.modules
  externals : ∀ path, path ∈ graph.externals ↔
    ∃ edge ∈ graph.edges, edge.linkage = .external ∧ edge.target = some path
  packages : ∀ name, name ∈ graph.packages ↔
    ∃ edge ∈ graph.edges, edge.linkage = .package ∧ edge.specifier = name

/-- What a partition says of its project. -/
structure Represents (project : Project) (partition : Partition) : Prop where
  graphs : ∀ kind, partition.Draws project kind (partition.graph kind)
  functionModules : ∀ path, path ∈ partition.serverFunctionModules ↔
    ∃ edge ∈ partition.client.edges, edge.crossing = .intoServerFunction ∧ edge.target = some path
  functionEntries : ∀ path ∈ partition.serverFunctionModules, path ∈ partition.serverFunctions.entries
  modules : ∀ path, path ∈ partition.modules.map Prod.fst ↔ ∃ kind, path ∈ (partition.graph kind).modules
  /-- A module has one record. -/
  nodup : (partition.modules.map Prod.fst).Nodup
  shared : ∀ path, path ∈ partition.shared ↔ partition.realm? path = some .shared

end Partition

namespace Project

variable {project : Project} {listed : List ModulePath} {entries : Entries} {loaded : PathSet} {round : Round}
  {kind : GraphKind} {path : ModulePath}

theorem destination_package {importer : ModulePath} {found : ImportRecord} {name : String}
    (leads : project.destination importer found = .ok (.package name)) :
    project.resolve importer found.specifier = .ok (.package name) := by
  obtain ⟨resolution, resolves, leads⟩ := bind_eq_ok.mp leads
  cases resolution with
  | package other =>
      cases leads
      exact resolves
  | unresolved => cases leads
  | module target =>
      obtain ⟨_, _, leads⟩ := bind_eq_ok.mp leads
      cases leads

/-- Imports that all lead somewhere have an edge each, in their order. -/
theorem forall₂_followedFrom {imports : List ImportRecord} {linked : ImportRecord → Edge → Prop}
    (leads : ∀ found ∈ imports, ∃ destination, project.destination path found = .ok destination ∧
      linked found (Followed.edge kind ⟨path, found, destination⟩)) :
    List.Forall₂ linked imports ((project.followedFrom path imports).map (·.edge kind)) := by
  induction imports with
  | nil => exact .nil
  | cons found rest ih =>
      obtain ⟨destination, lead, first⟩ := leads found List.mem_cons_self
      have followed : project.followedFrom path (found :: rest) =
          ⟨path, found, destination⟩ :: project.followedFrom path rest := by
        simp only [followedFrom, List.filterMap_cons, lead]
      rw [followed, List.map_cons]
      exact .cons first (ih fun other member => leads other (List.mem_cons_of_mem found member))

/-- Among the edges of modules, those of one of them are behind each other. -/
theorem edgesFrom_visitSteps {visited : List ModulePath} (nodup : visited.Nodup) (visit : path ∈ visited) :
    ((visited.flatMap project.visitSteps).map (·.edge kind)).filter (·.importer == path) =
      (project.visitSteps path).map (·.edge kind) := by
  have from_eq (importer : ModulePath) :
      ∀ edge ∈ (project.visitSteps importer).map (·.edge kind), edge.importer = importer := by
    intro edge member
    obtain ⟨step, follows, rfl⟩ := List.mem_map.mp member
    exact Followed.edge_importer.trans (mem_visitSteps.mp follows).1
  obtain ⟨front, back, rfl⟩ := List.append_of_mem visit
  obtain ⟨_, behind, apart⟩ := List.nodup_append.mp nodup
  have others {paths : List ModulePath} (absent : path ∉ paths) :
      ((paths.flatMap project.visitSteps).map (·.edge kind)).filter (·.importer == path) = [] := by
    rw [List.map_flatMap, List.filter_eq_nil_iff]
    intro edge member same
    obtain ⟨importer, present, member⟩ := List.mem_flatMap.mp member
    exact absent (beq_iff_eq.mp same ▸ from_eq importer edge member ▸ present)
  have own : ((project.visitSteps path).map (·.edge kind)).filter (·.importer == path) =
      (project.visitSteps path).map (·.edge kind) :=
    List.filter_eq_self.mpr fun edge member => beq_iff_eq.mpr (from_eq path edge member)
  rw [List.flatMap_append, List.flatMap_cons, List.map_append, List.map_append, List.filter_append,
    List.filter_append, own, others fun present => apart path present path List.mem_cons_self rfl,
    others (List.nodup_cons.mp behind).1, List.nil_append, List.append_nil]

end Project

namespace Walk

variable {project : Project} {kind : GraphKind} {entries loaded : PathSet} {walk : Walk} {path : ModulePath}

theorem walk_edgesFrom (ascending : entries.Ascending) (h : project.walk kind entries loaded = .ok walk)
    (member : path ∈ walk.graph.modules) :
    walk.graph.edgesFrom path = (project.visitSteps path).map (·.edge kind) := by
  obtain ⟨visited, visits, perm⟩ := walk_visits ascending h
  have holds := visits.holds ascending
  rw [BuildGraph.edgesFrom, holds.edges_eq]
  exact Project.edgesFrom_visitSteps (perm.nodup_iff.mp holds.ascending.nodup) (perm.mem_iff.mp member)

/-- What imports lead to over links of some form is what their edges show. -/
theorem Holds.leadsTo_iff_edge {visited : List ModulePath} {followed : List Followed}
    (holds : Holds kind entries loaded visited followed walk) {form : Link → Prop} {shows : Edge → Prop}
    (same : ∀ importer specifier target realm, form (link kind realm) ↔
      shows ⟨importer, specifier, target, (link kind realm).linkage, (link kind realm).crossing⟩) :
    (∃ step ∈ followed, step.LeadsTo kind form path) ↔
      ∃ edge ∈ walk.graph.edges, shows edge ∧ edge.target = some path := by
  simp only [holds.edges_eq, List.mem_map, exists_exists_and_eq_and, Followed.leadsTo_iff_edge same]

theorem walk_externals (ascending : entries.Ascending) (h : project.walk kind entries loaded = .ok walk)
    (path : ModulePath) : path ∈ walk.graph.externals ↔
      ∃ edge ∈ walk.graph.edges, edge.linkage = .external ∧ edge.target = some path := by
  obtain ⟨visited, visits, _⟩ := walk_visits ascending h
  have holds := visits.holds ascending
  exact (holds.mem_externals path).trans (holds.leadsTo_iff_edge fun _ _ _ _ => Iff.rfl)

theorem walk_fromClient (ascending : entries.Ascending) (h : project.walk kind entries loaded = .ok walk)
    (path : ModulePath) : path ∈ walk.fromClient ↔
      ∃ edge ∈ walk.graph.edges, edge.crossing = .intoServerFunction ∧ edge.target = some path := by
  obtain ⟨visited, visits, _⟩ := walk_visits ascending h
  have holds := visits.holds ascending
  exact (holds.mem_fromClient path).trans (holds.leadsTo_iff_edge fun _ _ _ _ => Iff.rfl)

theorem walk_packages (ascending : entries.Ascending) (h : project.walk kind entries loaded = .ok walk)
    (name : String) : name ∈ walk.graph.packages ↔
      ∃ edge ∈ walk.graph.edges, edge.linkage = .package ∧ edge.specifier = name := by
  obtain ⟨visited, visits, _⟩ := walk_visits ascending h
  have holds := visits.holds ascending
  have single {step : Followed} (followed : step ∈ visited.flatMap project.visitSteps) :
      step.destination = .package name ↔ (step.edge kind).linkage = .package ∧ (step.edge kind).specifier = name := by
    obtain ⟨_, _, member⟩ := List.mem_flatMap.mp followed
    obtain ⟨_, _, _, _, leads⟩ := Project.mem_visitSteps.mp member
    rw [Followed.edge_linkage_package]
    cases destination : step.destination with
    | package other =>
        rw [destination] at leads
        obtain rfl := Resolution.resolve_package (Project.destination_package leads)
        rw [Followed.edge_package destination, Destination.package.injEq]
        exact (and_iff_right ⟨_, rfl⟩).symm
    | module target realm => exact iff_of_false nofun fun ⟨⟨_, package⟩, _⟩ => nomatch package
  rw [holds.mem_packages, holds.edges_eq]
  simp only [List.mem_map, exists_exists_and_eq_and]
  exact exists_congr fun step => and_congr_right single

theorem walk_importers (ascending : entries.Ascending) (h : project.walk kind entries loaded = .ok walk)
    {edge : Edge} (member : edge ∈ walk.graph.edges) : edge.importer ∈ walk.graph.modules := by
  obtain ⟨importer, within, step, follows, rfl⟩ := ((walk_finished ascending h).mem_edges edge).mp member
  rwa [Followed.edge_importer, (Project.mem_visitSteps.mp follows).1]

end Walk

namespace Project

variable {project : Project} {listed : List ModulePath} {entries : Entries} {loaded : PathSet} {round : Round}
  {kind : GraphKind} {path : ModulePath}

theorem round_walk (h : project.round entries loaded = .ok round) (kind : GraphKind) :
    ∃ before, project.walk kind (entries.of kind) before = .ok (round.walk kind) := by
  obtain ⟨server, client, serverFunctions⟩ := round_eq_ok h
  cases kind with
  | server => exact ⟨loaded, server⟩
  | client => exact ⟨round.server.loaded, client⟩
  | serverFunction => exact ⟨round.client.loaded, serverFunctions⟩

theorem Final.linked (final : project.Final listed entries loaded round)
    (member : path ∈ (round.walk kind).graph.modules) {record : ModuleRecord}
    (loads : project.load path = .ok record) {found : ImportRecord} (imported : found ∈ record.imports)
    {destination : Destination} (leads : project.destination path found = .ok destination) :
    (project.partitionOf round).Linked project kind path found
      (Followed.edge kind ⟨path, found, destination⟩) := by
  cases destination with
  | package name => exact .package (destination_package leads)
  | module target realm =>
      obtain ⟨resolves, again, found', same⟩ := destination_module leads
      have imports : project.Imports path target realm := ⟨record, loads, found, imported, leads⟩
      have known : target ∈ round.loaded := (final.settled.mem_loaded target).mpr
        (final.justified.loads final.runs member (.inr ⟨realm, imports⟩))
      exact .module resolves (realm?_eq_some.mpr ⟨known, again, found', same⟩)

theorem Final.draws (final : project.Final listed entries loaded round) (kind : GraphKind) :
    (project.partitionOf round).Draws project kind ((project.partitionOf round).graph kind) := by
  obtain ⟨before, walks⟩ := round_walk final.runs kind
  have ascending := final.justified.ascending kind
  have finished := Walk.walk_finished ascending walks
  rw [graph_partitionOf]
  exact {
    kind_eq := finished.kind_eq
    edgesFrom := fun path member => by
      obtain ⟨record, loads, lead⟩ := finished.visitable path member
      obtain ⟨_, found, known⟩ := final.settled.record member
      obtain rfl := Except.ok.inj (loads.symm.trans found)
      refine ⟨record, known, loads, ?_⟩
      rw [Walk.walk_edgesFrom ascending walks member, visitSteps, loads]
      refine forall₂_followedFrom fun found imported => ?_
      obtain ⟨destination, leads⟩ := lead found imported
      exact ⟨destination, leads, final.linked member loads imported leads⟩
    importers := fun edge => Walk.walk_importers ascending walks
    externals := Walk.walk_externals ascending walks
    packages := Walk.walk_packages ascending walks }

theorem mem_records {paths : PathSet} {record : ModuleRecord} :
    (path, record) ∈ project.records paths ↔ path ∈ paths ∧ project.load path = .ok record := by
  rw [records, List.mem_filterMap]
  constructor
  · rintro ⟨other, member, same⟩
    split at same
    · rename_i found loads
      cases same
      exact ⟨member, loads⟩
    · cases same
  · rintro ⟨member, loads⟩
    exact ⟨path, member, by rw [loads]⟩

theorem records_fst {paths : PathSet} (loads : ∀ path ∈ paths, ∃ record, project.load path = .ok record) :
    (project.records paths).map Prod.fst = paths := by
  induction paths with
  | nil => rfl
  | cons first rest ih =>
      obtain ⟨record, found⟩ := loads first List.mem_cons_self
      rw [records_cons, found, List.map_cons, ih fun path member => loads path (List.mem_cons_of_mem first member)]

/-- All that has been loaded has a record. -/
theorem Settled.keys_eq (settled : project.Settled listed round) :
    (project.partitionOf round).modules.map Prod.fst = round.loaded := by
  refine records_fst fun path member => ?_
  obtain ⟨kind, stands⟩ := (settled.mem_loaded path).mp member
  obtain ⟨record, loads, _⟩ := settled.record ((settled.mem_modules kind path).mpr stands)
  exact ⟨record, loads⟩

/-- A shared module is an entry of the server, whichever graph has imported it. -/
theorem Settled.shared_entry (settled : project.Settled listed round) {record : ModuleRecord}
    (known : path ∈ round.loaded) (loads : project.load path = .ok record) (shared : record.realm = .shared) :
    path ∈ round.server.graph.entries := by
  obtain ⟨kind, stands⟩ := (settled.mem_loaded path).mp known
  have holds := settled.mayHold ((settled.mem_modules kind path).mpr stands) loads
  rw [shared] at holds
  cases kind with
  | server => exact List.contains_iff_mem.mp holds
  | client => cases holds
  | serverFunction => cases holds

theorem Settled.mem_shared (settled : project.Settled listed round) (path : ModulePath) :
    path ∈ (project.partitionOf round).shared ↔ (project.partitionOf round).realm? path = some .shared := by
  rw [realm?_eq_some]
  constructor
  · intro member
    obtain ⟨⟨_, record⟩, kept, rfl⟩ := List.mem_map.mp member
    obtain ⟨recorded, shared⟩ := List.mem_filter.mp kept
    obtain ⟨known, loads⟩ := mem_records.mp recorded
    exact ⟨known, record, loads, beq_iff_eq.mp (Bool.and_eq_true_iff.mp shared).1⟩
  · rintro ⟨known, record, loads, shared⟩
    have entry := List.contains_iff_mem.mpr (settled.shared_entry known loads shared)
    exact List.mem_map.mpr ⟨(path, record), List.mem_filter.mpr ⟨mem_records.mpr ⟨known, loads⟩,
      Bool.and_eq_true_iff.mpr ⟨beq_iff_eq.mpr shared, entry⟩⟩, rfl⟩

theorem Final.represents (final : project.Final listed entries loaded round) :
    (project.partitionOf round).Represents project where
  graphs := final.draws
  functionModules path := by
    obtain ⟨before, walks⟩ := round_walk final.runs .client
    exact Walk.walk_fromClient (final.justified.ascending .client) walks path
  functionEntries path member :=
    (final.settled.mem_entries .serverFunction path).mpr (final.settled.fromClient member).1
  modules path := by
    simp only [final.settled.keys_eq, final.settled.mem_loaded, graph_partitionOf, final.settled.mem_modules]
  nodup := by
    rw [final.settled.keys_eq]
    exact (round_ascending_loaded final.justified.ascending final.justified.ascending_loaded final.runs).nodup
  shared := final.settled.mem_shared

/-- Every partition represents its project. -/
theorem partition_represents {partition : Partition} (h : project.partition listed = .ok partition) :
    partition.Represents project := by
  obtain ⟨_, _, _, final, rfl, _⟩ := partition_final h
  exact final.represents

/-- A page that imports a component twice, with a package, a function and a state that all of them share. -/
def repeatedImport : Project where
  shared := [⟨"theme.js"⟩]
  sources := .ofTexts [
    (⟨"page.js"⟩, "import 'react'; import './list.js'; import './theme.js'; import './list.js'"),
    (⟨"list.js"⟩, "'use client'; import './add.js'; import './theme.js'"),
    (⟨"add.js"⟩, "'use server'; import './theme.js'; export async function add() {}"),
    (⟨"theme.js"⟩, "export const theme = 0")]

theorem repeatedImport_represents : ∃ partition, repeatedImport.partition [⟨"page.js"⟩] = .ok partition ∧
    (partition.server.edgesFrom ⟨"page.js"⟩).map (·.specifier) = ["react", "./list.js", "./theme.js", "./list.js"] ∧
    partition.serverFunctionModules = [⟨"add.js"⟩] ∧ partition.shared = [⟨"theme.js"⟩] ∧
    partition.Represents repeatedImport := by
  have splits : ((repeatedImport.partition [⟨"page.js"⟩]).toOption.map fun partition =>
      ((partition.server.edgesFrom ⟨"page.js"⟩).map (·.specifier), partition.serverFunctionModules,
        partition.shared)) = some (["react", "./list.js", "./theme.js", "./list.js"], [⟨"add.js"⟩],
          [⟨"theme.js"⟩]) := by decide +kernel
  obtain ⟨partition, h, found⟩ := exists_of_toOption splits
  obtain ⟨specifiers, rest⟩ := Prod.mk.inj found
  obtain ⟨functions, shared⟩ := Prod.mk.inj rest
  exact ⟨partition, h, specifiers, functions, shared, partition_represents h⟩

end Project
end Realms
