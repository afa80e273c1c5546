import Realms.Build
import Realms.Proofs.Emission.Passes
import Realms.Proofs.Partition.Normal

/-!
What generating code relies on in a partition, and that every partition of a project has it. A build is
then a settled round, with what is generated from it.
-/
namespace Realms

/-- What the passes rely on. Every function that the client calls is one that the server has. -/
structure Partition.Emittable (partition : Partition) : Prop where
  record_path : ∀ path found, partition.record? path = some found → found.path = path
  serverSide : (Emission.serverSide partition).Nodup
  functionModules : partition.serverFunctionModules.Nodup
  serves : ∀ path ∈ partition.serverFunctionModules, path ∈ Emission.serverSide partition ∧
    ∃ found, partition.record? path = some found ∧ found.realm = .serverFunction

theorem ModuleRecord.parse?_path {shared : SharedSet} {path : ModulePath} {source : String}
    {record : ModuleRecord} (h : ModuleRecord.parse? shared path source = some record) :
    record.path = path := by
  obtain ⟨script, _, rfl⟩ := Option.map_eq_some_iff.mp h
  rfl

namespace Project

variable {project : Project} {listed : List ModulePath} {round : Round} {path : ModulePath}

theorem load_path {record : ModuleRecord} (loads : project.load path = .ok record) :
    record.path = path := by
  unfold load at loads
  split at loads
  · cases loads
  · split at loads
    · rename_i parses
      obtain rfl := Except.ok.inj loads
      exact ModuleRecord.parse?_path parses
    · cases loads

theorem Settled.emittable (settled : project.Settled listed round) :
    (project.partitionOf round).Emittable where
  record_path path found known := load_path (record?_eq_some.mp known).2
  serverSide := ((settled.finished .server).ascending.union _).nodup
  functionModules := (settled.finished .client).ascending_fromClient.nodup
  serves path member := by
    obtain ⟨stands, known⟩ := settled.fromClient member
    have within : path ∈ round.serverFunctions.graph.modules :=
      (settled.mem_modules .serverFunction path).mpr (.entry stands)
    exact ⟨PathSet.mem_union.mpr (.inr within), known⟩

end Project

namespace Build

variable {options : BuildOptions} {sources : Sources} {build : Build}

theorem compile_eq_ok (h : compile options sources = .ok build) : ∃ project : Project, ∃ listed round,
    project.Settled listed round ∧ (∀ path ∈ listed, path.Normal) ∧
      build.partition = project.partitionOf round ∧
        Emission.generate options.emission build.partition = .ok build.emission ∧
          build.manifest = Manifest.ofEmission build.partition.shared build.emission := by
  obtain ⟨shared, _, h⟩ := bind_eq_ok.mp h
  obtain ⟨listed, made, h⟩ := bind_eq_ok.mp h
  obtain ⟨partition, splits, h⟩ := bind_eq_ok.mp h
  obtain ⟨emission, emits, h⟩ := bind_eq_ok.mp h
  obtain rfl := pure_eq_ok.mp h
  obtain ⟨round, settled, whole, _⟩ := Project.partition_eq_ok splits
  exact ⟨_, listed, round, settled, ModulePath.mapM_ofText_normal made, whole, emits, rfl⟩

/-- The path of an artifact never leads out of the folder of its side. -/
theorem artifact_normal (h : compile options sources = .ok build) {artifact : Artifact}
    (member : artifact ∈ build.emission.artifacts) : artifact.path.Normal := by
  obtain ⟨project, listed, round, settled, normal, whole, emits, _⟩ := compile_eq_ok h
  obtain ⟨found, known⟩ := Emission.generate_record emits member
  rw [whole] at known
  exact settled.record_normal normal known

end Build
end Realms
