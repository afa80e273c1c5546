import Realms.BuildError
import Realms.Partition.Basic

/-!
The boundary between realms as a check on partitions: what must exist once is built into no graph but
its own, and both graphs of the server import a module in the same way.
-/
namespace Realms.Partition

/-- Whether a graph may hold a module of a realm. Shared modules and modules of functions stand in
their own graph alone, as entries; client modules stand in no graph of the server. -/
def mayHold (kind : GraphKind) (isEntry : Bool) : Realm → Bool
  | .shared => kind == .server && isEntry
  | .serverFunction => kind == .serverFunction && isEntry
  | .client => kind == .client
  | .server => true

def checkModules (partition : Partition) (graph : BuildGraph) : List ModulePath → Except BuildError Unit
  | [] => .ok ()
  | path :: rest =>
    match partition.realm? path with
    | none => checkModules partition graph rest
    | some realm =>
      if mayHold graph.kind (List.contains graph.entries path) realm then
        checkModules partition graph rest
      else .error (.atFile (.inlined graph.kind path realm) path.text)

structure LinkedTarget where
  target : ModulePath
  found : LinkedIn
deriving DecidableEq, Repr, Inhabited

def linkedTargets (graph : BuildGraph) : List LinkedTarget :=
  graph.edges.filterMap fun edge => edge.target.map fun target => ⟨target, ⟨edge.linkage, graph.kind⟩⟩

/-- Checks that a module is imported in one way. `seen` holds the first import of each module so far. -/
def checkLinkages (seen : List LinkedTarget) : List LinkedTarget → Except BuildError Unit
  | [] => .ok ()
  | link :: rest =>
    match seen.find? (·.target == link.target) with
    | some first =>
      if first.found.linkage == link.found.linkage then checkLinkages seen rest
      else
        .error (.atFile (.mixedLinkage link.target first.found link.found) link.target.text)
    | none => checkLinkages (seen ++ [link]) rest

/-- Whether a partition keeps to the boundary, or the first place where it does not. -/
def checkBoundary (partition : Partition) : Except BuildError Unit := do
  for graph in partition.graphs do
    checkModules partition graph graph.modules
  checkLinkages [] (linkedTargets partition.server ++ linkedTargets partition.serverFunctions)

end Realms.Partition
