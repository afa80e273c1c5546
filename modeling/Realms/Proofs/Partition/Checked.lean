import Realms.Proofs.Partition.Boundary

/-!
What the check of a boundary decides, for any partition: one that no rounds have made, with graphs of any kinds, modules
without a record and imports in any number. It passes exactly where no module and no two imports break a rule, and an
error of it names what breaks one.
-/
namespace Realms

/-- The rule for a module of a realm in a graph. Plain modules may stand in every graph. -/
structure BuildGraph.Admits (graph : BuildGraph) (path : ModulePath) (realm : Realm) : Prop where
  shared : realm = .shared → graph.kind = .server ∧ path ∈ graph.entries
  serverFunction : realm = .serverFunction → graph.kind = .serverFunction ∧ path ∈ graph.entries
  client : realm = .client → graph.kind = .client

namespace Partition

variable {partition : Partition} {graph : BuildGraph} {path : ModulePath} {realm : Realm}

theorem mayHold_iff :
    mayHold graph.kind (List.contains graph.entries path) realm = true ↔ graph.Admits path realm := by
  cases realm with
  | server => exact iff_of_true rfl ⟨nofun, nofun, nofun⟩
  | client =>
      rw [mayHold, beq_iff_eq]
      constructor
      · intro client
        exact ⟨nofun, nofun, fun _ => client⟩
      · intro admits
        exact admits.client rfl
  | serverFunction =>
      rw [mayHold, Bool.and_eq_true, beq_iff_eq, List.contains_iff_mem]
      constructor
      · intro entry
        exact ⟨nofun, fun _ => entry, nofun⟩
      · intro admits
        exact admits.serverFunction rfl
  | shared =>
      rw [mayHold, Bool.and_eq_true, beq_iff_eq, List.contains_iff_mem]
      constructor
      · intro entry
        exact ⟨fun _ => entry, nofun, nofun⟩
      · intro admits
        exact admits.shared rfl

/-- The graphs that are built for the server. -/
def serverGraphs (partition : Partition) : List BuildGraph := [partition.server, partition.serverFunctions]

/-- An error that names what breaks a rule: a module that a graph does not admit, or two imports of one module, in a
graph of the server each, that are not linked alike. -/
inductive Breach (partition : Partition) : BuildError → Prop
  | inlined {graph : BuildGraph} {path : ModulePath} {realm : Realm} (within : graph ∈ partition.graphs)
      (member : path ∈ graph.modules) (known : partition.realm? path = some realm)
      (refused : ¬graph.Admits path realm) :
      Breach partition (.atFile (.inlined graph.kind path realm) path.text)
  | mixed {graph other : BuildGraph} {a b : Edge} {target : ModulePath} (within : graph ∈ partition.serverGraphs)
      (otherWithin : other ∈ partition.serverGraphs) (member : a ∈ graph.edges) (otherMember : b ∈ other.edges)
      (leads : a.target = some target) (otherLeads : b.target = some target) (unlike : a.linkage ≠ b.linkage) :
      Breach partition
        (.atFile (.mixedLinkage target ⟨a.linkage, graph.kind⟩ ⟨b.linkage, other.kind⟩) target.text)

theorem checkModules_fails (within : graph ∈ partition.graphs) {paths : List ModulePath}
    (members : ∀ path ∈ paths, path ∈ graph.modules) :
    FailsWith partition.Breach (checkModules partition graph paths) := by
  induction paths with
  | nil => exact .ok ()
  | cons first rest ih =>
      have others := ih fun path later => members path (List.mem_cons_of_mem first later)
      rw [checkModules]
      split
      · exact others
      · rename_i realm known
        split
        · exact others
        · rename_i refused
          apply FailsWith.error
          apply Breach.inlined within (members first List.mem_cons_self) known
          intro admits
          exact refused (mayHold_iff.mpr admits)

/-- The imports that are compared: those of the graphs of the server. -/
def serverLinks (partition : Partition) : List LinkedTarget :=
  linkedTargets partition.server ++ linkedTargets partition.serverFunctions

theorem mem_serverLinks {link : LinkedTarget} : link ∈ partition.serverLinks ↔
    ∃ graph ∈ partition.serverGraphs, ∃ edge ∈ graph.edges,
      edge.target = some link.target ∧ link.found = ⟨edge.linkage, graph.kind⟩ := by
  rw [serverLinks, List.mem_append, mem_linkedTargets, mem_linkedTargets]
  simp [serverGraphs]

theorem checkLinkages_fails {seen links : List LinkedTarget} (known : ∀ link ∈ seen, link ∈ partition.serverLinks)
    (members : ∀ link ∈ links, link ∈ partition.serverLinks) :
    FailsWith partition.Breach (checkLinkages seen links) := by
  induction links generalizing seen with
  | nil => exact .ok ()
  | cons link rest ih =>
      have own := members link List.mem_cons_self
      have others := fun other later => members other (List.mem_cons_of_mem link later)
      rw [checkLinkages]
      split
      · rename_i first found
        split
        · exact ih known others
        · rename_i mixed
          apply FailsWith.error
          have target : first.target = link.target := by simpa using List.find?_some found
          obtain ⟨graph, within, a, member, leads, isFirst⟩ :=
            mem_serverLinks.mp (known first (List.mem_of_find?_eq_some found))
          obtain ⟨other, otherWithin, b, otherMember, otherLeads, isLink⟩ := mem_serverLinks.mp own
          rw [isFirst, isLink] at mixed ⊢
          apply Breach.mixed within otherWithin member otherMember (target ▸ leads) otherLeads
          intro alike
          exact mixed (beq_iff_eq.mpr alike)
      · apply ih _ others
        intro other member
        rcases List.mem_append.mp member with old | new
        · exact known other old
        · rw [List.mem_singleton.mp new]
          exact own

theorem checkBoundary_fails (partition : Partition) : FailsWith partition.Breach partition.checkBoundary := by
  have modules {graph : BuildGraph} (within : graph ∈ partition.graphs) :
      FailsWith partition.Breach (checkModules partition graph graph.modules) :=
    checkModules_fails within fun _ member => member
  rw [checkBoundary_eq]
  refine .bind (modules (by simp [graphs])) fun _ _ => ?_
  refine .bind (modules (by simp [graphs])) fun _ _ => ?_
  refine .bind (modules (by simp [graphs])) fun _ _ => ?_
  exact checkLinkages_fails (List.forall_mem_nil _) fun _ member => member

theorem checkModules_all_ok :
    (∀ kind, checkModules partition (partition.graph kind) (partition.graph kind).modules = .ok ()) ↔
      ∀ graph ∈ partition.graphs, ∀ path ∈ graph.modules, ∀ realm, partition.realm? path = some realm →
        graph.Admits path realm := by
  simp only [checkModules_eq_ok, mayHold_iff]
  constructor
  · intro all graph within
    simp only [graphs, List.mem_cons, List.not_mem_nil, or_false] at within
    rcases within with rfl | rfl | rfl
    · exact all .server
    · exact all .client
    · exact all .serverFunction
  · intro all kind
    apply all
    cases kind with
    | server => simp [graphs, Partition.graph]
    | client => simp [graphs, Partition.graph]
    | serverFunction => simp [graphs, Partition.graph]

theorem agree_serverLinks : Agree partition.serverLinks ↔
    ∀ a ∈ partition.server.edges ++ partition.serverFunctions.edges,
      ∀ b ∈ partition.server.edges ++ partition.serverFunctions.edges, ∀ target,
        a.target = some target → b.target = some target → a.linkage = b.linkage := by
  have within {edge : Edge} : edge ∈ partition.server.edges ++ partition.serverFunctions.edges ↔
      ∃ graph ∈ partition.serverGraphs, edge ∈ graph.edges := by
    simp [serverGraphs]
  constructor
  · intro agree a left b right target leads otherLeads
    obtain ⟨graph, isGraph, member⟩ := within.mp left
    obtain ⟨other, isOther, otherMember⟩ := within.mp right
    exact agree ⟨target, a.linkage, graph.kind⟩ (mem_serverLinks.mpr ⟨graph, isGraph, a, member, leads, rfl⟩)
      ⟨target, b.linkage, other.kind⟩ (mem_serverLinks.mpr ⟨other, isOther, b, otherMember, otherLeads, rfl⟩) rfl
  · intro alike first left second right same
    obtain ⟨graph, isGraph, a, member, leads, isFirst⟩ := mem_serverLinks.mp left
    obtain ⟨other, isOther, b, otherMember, otherLeads, isSecond⟩ := mem_serverLinks.mp right
    rw [isFirst, isSecond]
    exact alike a (within.mpr ⟨graph, isGraph, member⟩) b (within.mpr ⟨other, isOther, otherMember⟩) second.target
      (same ▸ leads) otherLeads

/-- A partition passes exactly where each module that has a record is admitted by its graph and any two imports of one
module on the server, of one graph or of both, are linked alike. What it fails with is a breach of one of the two. -/
theorem checkBoundary_isExact (partition : Partition) :
    (partition.checkBoundary = .ok () ↔
      (∀ graph ∈ partition.graphs, ∀ path ∈ graph.modules, ∀ realm, partition.realm? path = some realm →
        graph.Admits path realm) ∧
      ∀ a ∈ partition.server.edges ++ partition.serverFunctions.edges,
        ∀ b ∈ partition.server.edges ++ partition.serverFunctions.edges, ∀ target,
          a.target = some target → b.target = some target → a.linkage = b.linkage) ∧
    ∀ e, partition.checkBoundary = .error e → partition.Breach e := by
  refine ⟨?_, checkBoundary_fails partition⟩
  rw [checkBoundary_eq_ok, checkModules_all_ok]
  exact and_congr_right fun _ => agree_serverLinks

end Partition
end Realms
