import Realms.Partition.Boundary
import Realms.Proofs.Partition.Settled

/-!
The records of a partition. Every module of a graph has the record that its project gives it, and what the
graph may hold follows from the realm in it. What the client imports of functions is an entry of their graph.
-/
namespace Realms

namespace Project

variable {project : Project} {listed : List ModulePath} {round : Round}

theorem records_cons (path : ModulePath) (rest : PathSet) : project.records (path :: rest) =
    match project.load path with
    | .ok found => (path, found) :: project.records rest
    | .error _ => project.records rest := by
  cases loads : project.load path <;> simp [records, loads]

theorem find?_records {paths : PathSet} {path : ModulePath} {record : ModuleRecord} :
    ((project.records paths).find? (·.1 == path)).map Prod.snd = some record ↔
      path ∈ paths ∧ project.load path = .ok record := by
  induction paths with
  | nil => simp [records]
  | cons first rest ih =>
      rw [List.mem_cons, or_and_right, ← ih, records_cons]
      cases loads : project.load first with
      | error e =>
          refine (or_iff_right ?_).symm
          rintro ⟨rfl, same⟩
          cases loads.symm.trans same
      | ok found =>
          by_cases same : path = first
          · subst same
            simp [ih, loads]
          · simp [Ne.symm same, same]

theorem record?_eq_some {path : ModulePath} {record : ModuleRecord} :
    (project.partitionOf round).record? path = some record ↔
      path ∈ round.loaded ∧ project.load path = .ok record := find?_records

theorem realm?_eq_some {path : ModulePath} {realm : Realm} :
    (project.partitionOf round).realm? path = some realm ↔
      path ∈ round.loaded ∧ ∃ record, project.load path = .ok record ∧ record.realm = realm := by
  rw [Partition.realm?, Option.map_eq_some_iff]
  simp only [record?_eq_some, and_assoc, exists_and_left]

theorem graph_partitionOf (kind : GraphKind) :
    (project.partitionOf round).graph kind = (round.walk kind).graph := by
  cases kind <;> rfl

theorem Settled.record (settled : project.Settled listed round) {kind : GraphKind} {path : ModulePath}
    (member : path ∈ (round.walk kind).graph.modules) : ∃ record,
      project.load path = .ok record ∧ (project.partitionOf round).record? path = some record := by
  obtain ⟨record, loads, _⟩ := (settled.finished kind).visitable path member
  have known : path ∈ round.loaded :=
    (settled.mem_loaded path).mpr ⟨kind, (settled.mem_modules kind path).mp member⟩
  exact ⟨record, loads, record?_eq_some.mpr ⟨known, loads⟩⟩

theorem mayHold_entry {kind : GraphKind} {realm : Realm} (own : GraphKind.ofRealm realm = kind) :
    Partition.mayHold kind true realm = true := by
  subst own
  cases realm <;> rfl

theorem mayHold_inline {kind : GraphKind} {realm : Realm} (inline : (link kind realm).linkage = .inline)
    (isEntry : Bool) : Partition.mayHold kind isEntry realm = true := by
  cases kind <;> cases realm <;> first | rfl | cases inline

/-- A member came in as an entry of its own graph or over an import that is built in. -/
theorem Settled.mayHold (settled : project.Settled listed round) {kind : GraphKind} {path : ModulePath}
    (member : path ∈ (round.walk kind).graph.modules) {record : ModuleRecord}
    (loads : project.load path = .ok record) :
    Partition.mayHold kind (List.contains (round.walk kind).graph.entries path) record.realm = true := by
  cases (settled.mem_modules kind path).mp member with
  | entry stands =>
      obtain ⟨again, found, own⟩ := stands.entry_loads
      obtain rfl := Except.ok.inj (loads.symm.trans found)
      rw [List.contains_iff_mem.mpr ((settled.mem_entries kind path).mpr stands)]
      exact mayHold_entry own
  | inlined _ inlines =>
      obtain ⟨realm, imports, inline⟩ := inlines
      obtain ⟨again, found, rfl⟩ := imports.loads
      obtain rfl := Except.ok.inj (loads.symm.trans found)
      exact mayHold_inline inline _

/-- An edge is an import of its first module, and has the linkage of the graph and of the realm of its target. -/
theorem Settled.exists_import (settled : project.Settled listed round) {kind : GraphKind} {edge : Edge}
    (member : edge ∈ (round.walk kind).graph.edges) {target : ModulePath} (leads : edge.target = some target) :
    ∃ realm, project.Imports edge.importer target realm ∧ edge.linkage = (link kind realm).linkage := by
  obtain ⟨importer, _, step, follows, rfl⟩ := ((settled.finished kind).mem_edges edge).mp member
  cases destination : step.destination with
  | package name =>
      rw [Followed.edge, destination] at leads
      cases leads
  | module path realm =>
      rw [Followed.edge, destination] at leads ⊢
      obtain rfl := Option.some.inj leads
      rw [(mem_visitSteps.mp follows).1]
      exact ⟨realm, imports_iff.mpr ⟨step, follows, destination⟩, rfl⟩

theorem Settled.edge_linkage (settled : project.Settled listed round) (kind : GraphKind) {edge : Edge}
    (member : edge ∈ (round.walk kind).graph.edges) {target : ModulePath}
    (leads : edge.target = some target) : ∃ record, project.load target = .ok record ∧
      edge.linkage = (link kind record.realm).linkage := by
  obtain ⟨realm, imports, linkage⟩ := settled.exists_import member leads
  obtain ⟨record, loads, rfl⟩ := imports.loads
  exact ⟨record, loads, linkage⟩

theorem link_intoServerFunction {kind : GraphKind} {realm : Realm}
    (crossing : (link kind realm).crossing = .intoServerFunction) : realm = .serverFunction := by
  cases kind <;> cases realm <;> first | rfl | cases crossing

/-- What the client asks of the server is an entry of the graph of functions. -/
theorem Settled.fromClient (settled : project.Settled listed round) {path : ModulePath}
    (member : path ∈ (project.partitionOf round).serverFunctionModules) :
    project.Stands listed .entry .serverFunction path ∧ ∃ record,
      (project.partitionOf round).record? path = some record ∧ record.realm = .serverFunction := by
  obtain ⟨importer, within, realm, imports, crossing⟩ :=
    ((settled.finished .client).mem_fromClient path).mp member
  obtain rfl := link_intoServerFunction crossing
  have stands : project.Stands listed .entry .serverFunction path :=
    .asked ((settled.mem_modules .client importer).mp within) ⟨.serverFunction, imports, rfl⟩
  obtain ⟨record, loads, realm⟩ := imports.loads
  have known : path ∈ round.loaded := (settled.mem_loaded path).mpr ⟨.serverFunction, .entry stands⟩
  exact ⟨stands, record, record?_eq_some.mpr ⟨known, loads⟩, realm⟩

end Project
end Realms
