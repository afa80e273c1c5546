import Realms.Emission.Generate
import Realms.Manifest
import Realms.Partition.Rounds

/-!
A build from its sources: they are partitioned, and every module of the partition is emitted.
-/
namespace Realms

structure BuildOptions where
  root : String
  entries : List String
  shared : List String
  emission : EmissionOptions
deriving DecidableEq, Repr, Inhabited

structure Build where
  partition : Partition
  emission : Emission
  manifest : Manifest
deriving DecidableEq, Repr, Inhabited

namespace Build

/-- Builds the project that options name. Paths of shared modules are looked at before entries. -/
def compile (options : BuildOptions) (sources : Sources) : Except BuildError Build := do
  let shared ← options.shared.mapM ModulePath.ofText
  let entries ← options.entries.mapM ModulePath.ofText
  let project : Project := ⟨PathSet.ofList shared, sources⟩
  let partition ← project.partition entries
  let emission ← Emission.generate options.emission partition
  return ⟨partition, emission, Manifest.ofEmission partition.shared emission⟩

end Build
end Realms
