import Realms.Proofs.ModulePath
import Realms.Proofs.Partition.Records

/-!
The paths of a partition. Entries and the targets of imports are made from texts, so every module that has
a record has a path in normal form.
-/
namespace Realms

namespace Resolution

theorem firstOf_normal {isFile : ModulePath → Bool} {candidates : List String} {path : ModulePath}
    (h : firstOf isFile candidates = .ok (.module path)) : path.Normal := by
  induction candidates with
  | nil => cases h
  | cons candidate rest ih =>
      obtain ⟨found, made, h⟩ := bind_eq_ok.mp h
      split at h
      · cases h
        exact ModulePath.ofText_normal made
      · exact ih h

theorem resolve_normal {isFile : ModulePath → Bool} {importer path : ModulePath} {specifier : String}
    (h : resolve isFile importer specifier = .ok (.module path)) : path.Normal := by
  unfold resolve at h
  split at h
  · cases h
  · obtain ⟨base, _, h⟩ := bind_eq_ok.mp h
    exact firstOf_normal h

end Resolution

namespace Project

variable {project : Project} {listed : List ModulePath}

theorem Imports.normal {importer path : ModulePath} {realm : Realm}
    (imports : project.Imports importer path realm) : path.Normal := by
  obtain ⟨record, _, found, _, leads⟩ := imports
  exact Resolution.resolve_normal (destination_module leads).1

theorem Stands.normal (normal : ∀ path ∈ listed, path.Normal) {standing : Standing} {kind : GraphKind}
    {path : ModulePath} (stands : project.Stands listed standing kind path) : path.Normal := by
  induction stands with
  | listed lists => exact normal _ lists.1
  | asked _ asks _ => exact asks.elim fun _ found => found.1.normal
  | entry _ ih => exact ih
  | inlined _ inlines _ => exact inlines.elim fun _ found => found.1.normal

theorem Settled.record_normal {round : Round} (settled : project.Settled listed round)
    (normal : ∀ path ∈ listed, path.Normal) {path : ModulePath} {record : ModuleRecord}
    (known : (project.partitionOf round).record? path = some record) : path.Normal := by
  obtain ⟨kind, stands⟩ := (settled.mem_loaded path).mp (record?_eq_some.mp known).1
  exact stands.normal normal

end Project
end Realms
