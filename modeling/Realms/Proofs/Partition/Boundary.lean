import Realms.Proofs.Partition.Records

/-!
The boundary of a partition. What the rules give keeps to it, so that the check behind the rounds never
refuses anything and no build fails on it.
-/
namespace Realms

namespace Partition

variable {partition : Partition} {graph : BuildGraph}

/-- Two imports of one module are of one linkage. -/
def Agree (links : List LinkedTarget) : Prop :=
  ∀ a ∈ links, ∀ b ∈ links, a.target = b.target → a.found.linkage = b.found.linkage

theorem checkModules_eq_ok {paths : List ModulePath} :
    checkModules partition graph paths = .ok () ↔ ∀ path ∈ paths, ∀ realm,
      partition.realm? path = some realm →
        mayHold graph.kind (List.contains graph.entries path) realm = true := by
  induction paths with
  | nil => simp [checkModules]
  | cons first rest ih =>
      rw [checkModules, List.forall_mem_cons]
      split
      · rename_i unknown
        simp [unknown, ih]
      · rename_i realm known
        simp only [known, Option.some.injEq, forall_eq']
        split
        · rename_i allowed
          rw [and_iff_right allowed]
          exact ih
        · rename_i refused
          exact iff_of_false nofun fun all => refused all.1

/-- Another import of a module changes nothing, if it is like one that is there. -/
theorem agree_insert {seen rest : List LinkedTarget} {first link : LinkedTarget} (known : first ∈ seen)
    (target : first.target = link.target) (linkage : first.found.linkage = link.found.linkage) :
    Agree (seen ++ link :: rest) ↔ Agree (seen ++ rest) := by
  have like {a : LinkedTarget} (member : a ∈ seen ++ link :: rest) :
      ∃ b ∈ seen ++ rest, b.target = a.target ∧ b.found.linkage = a.found.linkage := by
    rcases List.mem_append.mp member with old | new
    · exact ⟨a, List.mem_append_left rest old, rfl, rfl⟩
    · rcases List.mem_cons.mp new with rfl | later
      · exact ⟨first, List.mem_append_left rest known, target, linkage⟩
      · exact ⟨a, List.mem_append_right seen later, rfl, rfl⟩
  constructor
  · intro agree a left b right
    exact agree a (List.Sublist.mem left (by simp)) b (List.Sublist.mem right (by simp))
  · intro agree a left b right same
    obtain ⟨a', left', targetA, linkageA⟩ := like left
    obtain ⟨b', right', targetB, linkageB⟩ := like right
    rw [← linkageA, ← linkageB]
    exact agree a' left' b' right' (targetA.trans (same.trans targetB.symm))

theorem checkLinkages_eq_ok {seen links : List LinkedTarget} (agree : Agree seen) :
    checkLinkages seen links = .ok () ↔ Agree (seen ++ links) := by
  induction links generalizing seen with
  | nil => simp [checkLinkages, agree]
  | cons link rest ih =>
      rw [checkLinkages]
      split
      · rename_i first found
        have known := List.mem_of_find?_eq_some found
        have target : first.target = link.target := by simpa using List.find?_some found
        split
        · rename_i same
          rw [ih agree, agree_insert known target (beq_iff_eq.mp same)]
        · rename_i mixed
          refine iff_of_false nofun fun all => mixed (beq_iff_eq.mpr ?_)
          exact all first (List.mem_append_left _ known) link (by simp) target
      · rename_i absent
        rw [List.find?_eq_none] at absent
        rw [ih, List.append_assoc, List.singleton_append]
        intro a left b right same
        simp only [List.mem_append, List.mem_singleton] at left right
        rcases left with left | rfl
        · rcases right with right | rfl
          · exact agree a left b right same
          · exact absurd (beq_iff_eq.mpr same) (absent a left)
        · rcases right with right | rfl
          · exact absurd (beq_iff_eq.mpr same.symm) (absent b right)
          · rfl

theorem mem_linkedTargets {link : LinkedTarget} : link ∈ linkedTargets graph ↔
    ∃ edge ∈ graph.edges, edge.target = some link.target ∧ link.found = ⟨edge.linkage, graph.kind⟩ := by
  rw [linkedTargets, List.mem_filterMap]
  constructor
  · rintro ⟨edge, member, same⟩
    obtain ⟨target, leads, rfl⟩ := Option.map_eq_some_iff.mp same
    exact ⟨edge, member, leads, rfl⟩
  · rintro ⟨edge, member, leads, same⟩
    refine ⟨edge, member, ?_⟩
    rw [leads, Option.map_some, ← same]

theorem checkBoundary_eq : partition.checkBoundary = (do
    checkModules partition partition.server partition.server.modules
    checkModules partition partition.client partition.client.modules
    checkModules partition partition.serverFunctions partition.serverFunctions.modules
    checkLinkages [] (linkedTargets partition.server ++ linkedTargets partition.serverFunctions)) := by
  simp only [checkBoundary, graphs, List.forIn_cons, List.forIn_nil, bind_assoc, pure_bind]

theorem checkBoundary_eq_ok : partition.checkBoundary = .ok () ↔
    (∀ kind, checkModules partition (partition.graph kind) (partition.graph kind).modules = .ok ()) ∧
      Agree (linkedTargets partition.server ++ linkedTargets partition.serverFunctions) := by
  have nothing : Agree [] := by simp [Agree]
  have linkages : checkLinkages []
      (linkedTargets partition.server ++ linkedTargets partition.serverFunctions) = .ok () ↔
        Agree (linkedTargets partition.server ++ linkedTargets partition.serverFunctions) :=
    checkLinkages_eq_ok nothing
  rw [checkBoundary_eq]
  simp only [bind_eq_ok]
  constructor
  · rintro ⟨_, server, _, client, _, serverFunctions, agree⟩
    refine ⟨?_, linkages.mp agree⟩
    intro kind
    cases kind with
    | server => exact server
    | client => exact client
    | serverFunction => exact serverFunctions
  · rintro ⟨modules, agree⟩
    exact ⟨_, modules .server, _, modules .client, _, modules .serverFunction, linkages.mpr agree⟩

/-- What a partition must keep to. Its modules have records; shared modules and modules of functions stand in
their own graph alone, as entries; client modules stand in no graph of the server; and both graphs of the
server import a module in one way. -/
structure KeepsBoundary (partition : Partition) : Prop where
  recorded : ∀ kind, ∀ path ∈ (partition.graph kind).modules, ∃ realm, partition.realm? path = some realm
  client : ∀ path, partition.realm? path = some .client →
    path ∉ partition.server.modules ∧ path ∉ partition.serverFunctions.modules
  serverFunction : ∀ path, partition.realm? path = some .serverFunction →
    path ∉ partition.server.modules ∧ path ∉ partition.client.modules ∧
      (path ∈ partition.serverFunctions.modules → path ∈ partition.serverFunctions.entries)
  shared : ∀ path, partition.realm? path = some .shared →
    path ∉ partition.client.modules ∧ path ∉ partition.serverFunctions.modules ∧
      (path ∈ partition.server.modules → path ∈ partition.server.entries)
  linkage : ∀ a ∈ partition.server.edges, ∀ b ∈ partition.serverFunctions.edges, ∀ target,
    a.target = some target → b.target = some target → a.linkage = b.linkage

end Partition

namespace Project

variable {project : Project} {listed : List ModulePath} {round : Round}

theorem Settled.allowed (settled : project.Settled listed round) (kind : GraphKind) {path : ModulePath}
    {realm : Realm} (known : (project.partitionOf round).realm? path = some realm)
    (member : path ∈ ((project.partitionOf round).graph kind).modules) :
    Partition.mayHold kind (List.contains ((project.partitionOf round).graph kind).entries path) realm =
      true := by
  obtain ⟨_, record, loads, rfl⟩ := realm?_eq_some.mp known
  rw [graph_partitionOf] at member ⊢
  exact settled.mayHold member loads

/-- The two graphs of the server link a realm in one way. -/
theorem link_server_linkage {kind : GraphKind} (server : kind ≠ .client) (realm : Realm) :
    (link kind realm).linkage = (link .server realm).linkage := by
  cases kind with
  | server => rfl
  | client => exact absurd rfl server
  | serverFunction => cases realm <;> rfl

/-- In the graphs of the server, the realm of a module decides how it is imported. -/
theorem Settled.server_linkage (settled : project.Settled listed round) (kind : GraphKind)
    (server : kind ≠ .client) {edge : Edge} (member : edge ∈ (round.walk kind).graph.edges)
    {target : ModulePath} (leads : edge.target = some target) : ∃ record,
      project.load target = .ok record ∧ edge.linkage = (link .server record.realm).linkage := by
  obtain ⟨record, loads, linkage⟩ := settled.edge_linkage kind member leads
  exact ⟨record, loads, linkage.trans (link_server_linkage server record.realm)⟩

theorem Settled.keepsBoundary (settled : project.Settled listed round) :
    (project.partitionOf round).KeepsBoundary where
  recorded kind path member := by
    rw [graph_partitionOf] at member
    obtain ⟨record, _, known⟩ := settled.record member
    exact ⟨record.realm, congrArg (Option.map ModuleRecord.realm) known⟩
  client path known := by
    constructor
    · intro member
      cases settled.allowed .server known member
    · intro member
      cases settled.allowed .serverFunction known member
  serverFunction path known := by
    refine ⟨?_, ?_, ?_⟩
    · intro member
      cases settled.allowed .server known member
    · intro member
      cases settled.allowed .client known member
    · intro member
      exact List.contains_iff_mem.mp (settled.allowed .serverFunction known member)
  shared path known := by
    refine ⟨?_, ?_, ?_⟩
    · intro member
      cases settled.allowed .client known member
    · intro member
      cases settled.allowed .serverFunction known member
    · intro member
      exact List.contains_iff_mem.mp (settled.allowed .server known member)
  linkage a first b second target leadsA leadsB := by
    obtain ⟨record, loads, linkageA⟩ := settled.server_linkage .server nofun first leadsA
    obtain ⟨again, found, linkageB⟩ := settled.server_linkage .serverFunction nofun second leadsB
    obtain rfl := Except.ok.inj (loads.symm.trans found)
    exact linkageA.trans linkageB.symm

/-- The check behind the rounds passes whatever they give. -/
theorem Settled.checkBoundary (settled : project.Settled listed round) :
    (project.partitionOf round).checkBoundary = .ok () := by
  refine Partition.checkBoundary_eq_ok.mpr ⟨?_, ?_⟩
  · intro kind
    apply Partition.checkModules_eq_ok.mpr
    intro path member realm known
    have kind_eq : ((project.partitionOf round).graph kind).kind = kind := by
      rw [graph_partitionOf, (settled.finished kind).kind_eq]
    rw [kind_eq]
    exact settled.allowed kind known member
  · have linked {found : Partition.LinkedTarget} (member : found ∈
        Partition.linkedTargets round.server.graph ++
          Partition.linkedTargets round.serverFunctions.graph) : ∃ record,
        project.load found.target = .ok record ∧
          found.found.linkage = (link .server record.realm).linkage := by
      rcases List.mem_append.mp member with server | serverFunction
      · obtain ⟨edge, member, leads, same⟩ := Partition.mem_linkedTargets.mp server
        rw [same]
        exact settled.server_linkage .server nofun member leads
      · obtain ⟨edge, member, leads, same⟩ := Partition.mem_linkedTargets.mp serverFunction
        rw [same]
        exact settled.server_linkage .serverFunction nofun member leads
    intro a first b second same
    obtain ⟨record, loads, linkageA⟩ := linked first
    obtain ⟨again, found, linkageB⟩ := linked second
    rw [same, found] at loads
    obtain rfl := Except.ok.inj loads
    exact linkageA.trans linkageB.symm

end Project
end Realms
