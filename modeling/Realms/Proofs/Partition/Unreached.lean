import Realms.Proofs.Partition.Order
import Realms.Proofs.Partition.Represents
import Realms.Proofs.Partition.Termination

/-!
Files that a build does not come to. Partitioning looks at the modules that stand by the rules, and at the paths
that their imports may mean. A project that is the same there has the same partition, whatever else is in it: each
walk takes the same modules from its queue, and how many files there are only bounds the walks.
-/
namespace Realms

namespace Project

variable {project other : Project} {path : ModulePath}

/-- A module is the same in another project: it has one record in both, and its imports lead to the same. -/
structure AgreesAt (project other : Project) (path : ModulePath) : Prop where
  load_eq : other.load path = project.load path
  destination_eq : ∀ record, project.load path = .ok record → ∀ found ∈ record.imports,
    other.destination path found = project.destination path found

theorem AgreesAt.visitable (agrees : project.AgreesAt other path) (visitable : project.Visitable path) :
    other.Visitable path := by
  obtain ⟨record, loads, lead⟩ := visitable
  refine ⟨record, agrees.load_eq.trans loads, fun found imported => ?_⟩
  rw [agrees.destination_eq record loads found imported]
  exact lead found imported

theorem AgreesAt.imports_iff (agrees : project.AgreesAt other path) {target : ModulePath} {realm : Realm} :
    other.Imports path target realm ↔ project.Imports path target realm := by
  rw [Imports, Imports, agrees.load_eq]
  refine exists_congr fun record => and_congr_right fun loads => exists_congr fun found => ?_
  refine and_congr_right fun imported => ?_
  rw [agrees.destination_eq record loads found imported]

end Project

namespace Walk

variable {project other : Project} {kind : GraphKind} {entries loaded : PathSet} {walk : Walk} {path : ModulePath}

theorem visit_agrees (agrees : project.AgreesAt other path) (walk : Walk) :
    visit other walk path = visit project walk path := by
  have follows (imports : List ImportRecord)
      (same : ∀ found ∈ imports, other.destination path found = project.destination path found) (walk : Walk) :
      imports.foldlM (follow other path) walk = imports.foldlM (follow project path) walk := by
    induction imports generalizing walk with
    | nil => rfl
    | cons found rest ih =>
        have first : follow other path walk found = follow project path walk found := by
          rw [follow, follow, same found List.mem_cons_self]
        rw [List.foldlM_cons, List.foldlM_cons, first]
        exact congrArg _ (funext fun next => ih (fun found later => same found (List.mem_cons_of_mem _ later)) next)
  rw [visit, visit, agrees.load_eq]
  cases loads : project.load path with
  | error e => rfl
  | ok record => exact follows record.imports (agrees.destination_eq record loads) _

/-- A walk is the same in a project that agrees at the modules that it takes from its queue. -/
theorem Ends.agrees {taken : List ModulePath} {outcome : Except BuildError Walk}
    (ends : Ends project walk taken outcome) (agrees : ∀ path ∈ taken, project.AgreesAt other path) :
    Ends other walk taken outcome := by
  induction ends with
  | empty queue => exact .empty queue
  | failed queue fails => exact .failed queue ((visit_agrees (agrees _ List.mem_cons_self) _).trans fails)
  | visit queue visits _ ih =>
      exact .visit queue ((visit_agrees (agrees _ List.mem_cons_self) _).trans visits)
        (ih fun path later => agrees path (List.mem_cons_of_mem _ later))

/-- The bounds of the two walks may differ, but both are enough. -/
theorem walk_agrees (ascending : entries.Ascending) (h : project.walk kind entries loaded = .ok walk)
    (agrees : ∀ path ∈ walk.graph.modules, project.AgreesAt other path) :
    other.walk kind entries loaded = .ok walk := by
  obtain ⟨taken, ends, _, perm⟩ := walk_taken ascending h
  obtain ⟨_, again⟩ := walk_ends other kind loaded ascending
  have same := ends.agrees fun path member => agrees path (perm.mem_iff.mpr member)
  exact (again.unique same).2

end Walk

namespace Project

variable {project other : Project} {listed : List ModulePath} {entries : Entries} {loaded : PathSet} {round : Round}
  {standing : Standing} {kind : GraphKind} {path : ModulePath}

theorem round_agrees (ascending : ∀ kind, (entries.of kind).Ascending)
    (h : project.round entries loaded = .ok round)
    (agrees : ∀ kind, ∀ path ∈ (round.walk kind).graph.modules, project.AgreesAt other path) :
    other.round entries loaded = .ok round := by
  obtain ⟨server, client, serverFunctions⟩ := round_eq_ok h
  have first := Walk.walk_agrees (ascending .server) server (agrees .server)
  have second := Walk.walk_agrees (ascending .client) client (agrees .client)
  have third := Walk.walk_agrees (ascending .serverFunction) serverFunctions (agrees .serverFunction)
  exact bind_eq_ok.mpr ⟨_, first, bind_eq_ok.mpr ⟨_, second, bind_eq_ok.mpr ⟨_, third, rfl⟩⟩⟩

section

variable (agrees : ∀ kind path, project.Stands listed .member kind path → project.AgreesAt other path)

include agrees

theorem Stands.in_other (stands : project.Stands listed standing kind path) :
    other.Stands listed standing kind path := by
  induction stands with
  | @listed kind path lists =>
      refine .listed ⟨lists.1, ?_⟩
      rw [(agrees kind path (.entry (.listed lists))).load_eq]
      exact lists.2
  | @asked graph kind importer path member asks ih =>
      obtain ⟨realm, imports, asks⟩ := asks
      exact .asked ih ⟨realm, (agrees graph importer member).imports_iff.mpr imports, asks⟩
  | entry _ ih => exact .entry ih
  | @inlined kind importer path member inlines ih =>
      obtain ⟨realm, imports, inline⟩ := inlines
      exact .inlined ih ⟨realm, (agrees kind importer member).imports_iff.mpr imports, inline⟩

variable (loads : ∀ path ∈ listed, ∃ record, project.load path = .ok record)

include loads

theorem Lists.of_other (lists : other.Lists listed kind path) : project.Lists listed kind path := by
  obtain ⟨member, record, found, own⟩ := lists
  obtain ⟨known, loads⟩ := loads path member
  have stands : project.Stands listed .entry (GraphKind.ofRealm known.realm) path :=
    .listed ⟨member, known, loads, rfl⟩
  refine ⟨member, record, ?_, own⟩
  rw [← (agrees _ path (.entry stands)).load_eq]
  exact found

/-- Nothing more stands by the rules in the other project. -/
theorem Stands.of_other (stands : other.Stands listed standing kind path) :
    project.Stands listed standing kind path := by
  induction stands with
  | listed lists => exact .listed (Lists.of_other agrees loads lists)
  | @asked graph kind importer path _ asks ih =>
      obtain ⟨realm, imports, asks⟩ := asks
      exact .asked ih ⟨realm, (agrees graph importer ih).imports_iff.mp imports, asks⟩
  | entry _ ih => exact .entry ih
  | @inlined kind importer path _ inlines ih =>
      obtain ⟨realm, imports, inline⟩ := inlines
      exact .inlined ih ⟨realm, (agrees kind importer ih).imports_iff.mp imports, inline⟩

/-- The last round is the last one in the other project, too. -/
theorem Final.in_other (final : project.Final listed entries loaded round) :
    other.Final listed entries loaded round where
  justified := {
    ascending := final.justified.ascending
    ascending_loaded := final.justified.ascending_loaded
    stands := fun kind path member => (final.justified.stands kind path member).in_other agrees
    lists := fun kind path lists => final.justified.lists kind path (Lists.of_other agrees loads lists)
    loaded := fun path member => (final.justified.loaded path member).imp fun _ stands => stands.in_other agrees }
  runs := round_agrees final.justified.ascending final.runs fun kind path member =>
    agrees kind path (final.justified.member final.runs member)
  nothing := final.nothing

end

theorem records_agrees {paths : PathSet} (agrees : ∀ path ∈ paths, project.AgreesAt other path) :
    other.records paths = project.records paths := by
  induction paths with
  | nil => rfl
  | cons first rest ih =>
      rw [records_cons, records_cons, (agrees first List.mem_cons_self).load_eq,
        ih fun path later => agrees path (List.mem_cons_of_mem first later)]

/-- A project has the partition of another one that it agrees with at the modules of that. -/
theorem partition_agrees {partition : Partition} (h : project.partition listed = .ok partition)
    (agrees : ∀ path ∈ partition.modules.map Prod.fst, project.AgreesAt other path) :
    other.partition listed = .ok partition := by
  obtain ⟨loads, visitable⟩ := partition_isOk_iff.mp ⟨partition, h⟩
  obtain ⟨_, _, round, final, rfl, _⟩ := partition_final h
  rw [final.settled.keys_eq] at agrees
  have members (kind : GraphKind) (path : ModulePath) (stands : project.Stands listed .member kind path) :
      project.AgreesAt other path := agrees path ((final.settled.mem_loaded path).mpr ⟨kind, stands⟩)
  have lists (path : ModulePath) (member : path ∈ listed) : project.AgreesAt other path := by
    obtain ⟨record, found⟩ := loads path member
    exact members _ path (.entry (.listed ⟨member, record, found, rfl⟩))
  obtain ⟨partition, h'⟩ : ∃ partition, other.partition listed = .ok partition := by
    refine partition_isOk_iff.mpr ⟨fun path member => ?_, fun kind path stands => ?_⟩
    · rw [(lists path member).load_eq]
      exact loads path member
    · have own := stands.of_other members loads
      exact (members kind path own).visitable (visitable kind path own)
  obtain ⟨_, _, round', final', rfl, _⟩ := partition_final h'
  rw [h', final'.partitionOf_eq (fun _ => Iff.rfl) (final.in_other members loads)]
  simp only [partitionOf, records_agrees agrees]

end Project
end Realms
