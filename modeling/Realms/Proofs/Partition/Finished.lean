import Realms.Proofs.Partition.Ends

/-!
Walks that succeed. Nothing is queued when they end, so the modules of their graphs are exactly what the
entries reach over imports that are built in.
-/
namespace Realms

namespace Walk

variable {project : Project} {kind : GraphKind} {entries loaded : PathSet} {walk : Walk}

/-- What a walk that has ended holds, without the order of its visits. -/
structure Finished (project : Project) (kind : GraphKind) (entries : PathSet) (walk : Walk) : Prop where
  kind_eq : walk.graph.kind = kind
  entries_eq : walk.graph.entries = entries
  mem_modules : ∀ path, path ∈ walk.graph.modules ↔
    ∃ entry ∈ entries, Relation.ReflTransGen (project.Inlines kind) entry path
  visitable : ∀ path ∈ walk.graph.modules, project.Visitable path
  mem_edges : ∀ edge, edge ∈ walk.graph.edges ↔
    ∃ importer ∈ walk.graph.modules, ∃ step ∈ project.visitSteps importer, step.edge kind = edge
  mem_wanted : ∀ path other, (path, other) ∈ walk.wanted ↔
    ∃ importer ∈ walk.graph.modules, project.Asks kind other importer path
  mem_fromClient : ∀ path, path ∈ walk.fromClient ↔ ∃ importer ∈ walk.graph.modules, ∃ realm,
    project.Imports importer path realm ∧ (link kind realm).crossing = .intoServerFunction
  ascending : walk.graph.modules.Ascending
  ascending_fromClient : walk.fromClient.Ascending

theorem mem_wanted_iff {importer path : ModulePath} {other : GraphKind} :
    (∃ step ∈ project.visitSteps importer, (path, other) ∈ step.wanted kind) ↔
      project.Asks kind other importer path := by
  have single (step : Followed) : (path, other) ∈ step.wanted kind ↔
      step.LeadsTo kind (·.entryFor = some other) path := by
    cases destination : step.destination with
    | package name =>
        rw [Followed.wanted, destination]
        exact iff_of_false List.not_mem_nil (Followed.not_leadsTo destination)
    | module target realm =>
        rw [Followed.wanted, destination, Followed.leadsTo_iff destination]
        cases asks : (link kind realm).entryFor with
        | none => simp [asks]
        | some found => simp [asks, eq_comm]
  simp only [single]
  exact Project.leadsTo_iff

/-- The imports that modules give, all together or one module after the other. -/
theorem exists_visitStep {visited : List ModulePath} {modules : PathSet}
    (same : ∀ path, path ∈ modules ↔ path ∈ visited) (holds : Followed → Prop) :
    (∃ step ∈ visited.flatMap project.visitSteps, holds step) ↔
      ∃ importer ∈ modules, ∃ step ∈ project.visitSteps importer, holds step := by
  constructor
  · rintro ⟨step, member, h⟩
    obtain ⟨importer, visit, member⟩ := List.mem_flatMap.mp member
    exact ⟨importer, (same importer).mpr visit, step, member, h⟩
  · rintro ⟨importer, module, step, member, h⟩
    exact ⟨step, List.mem_flatMap.mpr ⟨importer, (same importer).mp module, member⟩, h⟩

theorem walk_finished (ascending : entries.Ascending) (h : project.walk kind entries loaded = .ok walk) :
    Finished project kind entries walk := by
  obtain ⟨visited, visits, perm⟩ := walk_visits ascending h
  have holds := visits.holds ascending
  have visit (path : ModulePath) : path ∈ walk.graph.modules ↔ path ∈ visited := perm.mem_iff
  have closed {entry path : ModulePath} (listed : entry ∈ entries)
      (chain : Relation.ReflTransGen (project.Inlines kind) entry path) : path ∈ walk.graph.modules := by
    induction chain with
    | refl => exact (holds.mem_modules entry).mpr (.inl listed)
    | @tail importer target _ inlines ih =>
        have follows : ∃ step ∈ project.visitSteps importer,
            step.LeadsTo kind (·.linkage = .inline) target := Project.leadsTo_iff.mpr inlines
        exact (holds.mem_modules target).mpr (.inr
          ((exists_visitStep visit _).mpr ⟨importer, ih, follows⟩))
  exact {
    kind_eq := holds.kind_eq
    entries_eq := holds.entries_eq
    mem_modules := fun path =>
      ⟨visits.reached ascending path, fun ⟨_, listed, chain⟩ => closed listed chain⟩
    visitable := fun path member => visits.visitable path ((visit path).mp member)
    mem_edges := fun edge => by
      rw [holds.edges_eq, List.mem_map]
      exact exists_visitStep visit (Followed.edge kind · = edge)
    mem_wanted := fun path other => by
      rw [holds.wanted_eq, List.mem_flatMap, exists_visitStep visit]
      simp only [mem_wanted_iff]
    mem_fromClient := fun path => by
      rw [holds.mem_fromClient, exists_visitStep visit]
      simp only [Project.leadsTo_iff]
    ascending := holds.ascending
    ascending_fromClient := holds.ascending_fromClient }

/-- What a module of a graph brings into the records of a project. -/
def Loads (project : Project) (importer path : ModulePath) : Prop :=
  path = importer ∨ ∃ realm, project.Imports importer path realm

theorem walk_loaded (ascending : entries.Ascending) (h : project.walk kind entries loaded = .ok walk)
    (path : ModulePath) : path ∈ walk.loaded ↔
      path ∈ loaded ∨ ∃ importer ∈ walk.graph.modules, Loads project importer path := by
  obtain ⟨visited, visits, perm⟩ := walk_visits ascending h
  have holds := visits.holds ascending
  have visit (path : ModulePath) : path ∈ walk.graph.modules ↔ path ∈ visited := perm.mem_iff
  rw [holds.mem_loaded, exists_visitStep visit, ← visit path]
  simp only [Project.leadsTo_iff, and_true, Loads, and_or_left, exists_or, exists_eq_right']

theorem walk_ascending_loaded (ascending : entries.Ascending) (before : loaded.Ascending)
    (h : project.walk kind entries loaded = .ok walk) : walk.loaded.Ascending := by
  obtain ⟨visited, visits, _⟩ := walk_visits ascending h
  exact (visits.holds ascending).ascending_loaded before

end Walk
end Realms
