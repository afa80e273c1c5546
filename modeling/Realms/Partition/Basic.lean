import Realms.Linkage
import Realms.ModuleRecord

/-!
Partitions: the three graphs of a build and the records of their modules.
-/
namespace Realms

structure Edge where
  importer : ModulePath
  specifier : String
  /-- The imported module, unless it is a package. -/
  target : Option ModulePath
  linkage : Linkage
  crossing : Crossing
deriving DecidableEq, Repr, Inhabited

structure BuildGraph where
  kind : GraphKind
  entries : PathSet
  /-- What is built into this graph, the entries included. -/
  modules : PathSet
  edges : List Edge
  /-- What is imported and not built into this graph. -/
  externals : PathSet
  packages : List String
deriving DecidableEq, Repr, Inhabited

namespace PathSet

def insert (path : ModulePath) (paths : PathSet) : PathSet := Sorted.insert (·.text) path paths

def ofList (paths : List ModulePath) : PathSet := Sorted.ofList (·.text) paths

def union (xs ys : PathSet) : PathSet := Sorted.union (·.text) xs ys

end PathSet

namespace BuildGraph

def contains (graph : BuildGraph) (path : ModulePath) : Bool := List.contains graph.modules path

def edgesFrom (graph : BuildGraph) (path : ModulePath) : List Edge :=
  graph.edges.filter (·.importer == path)

def edgesTo (graph : BuildGraph) (path : ModulePath) : List Edge :=
  graph.edges.filter (·.target == some path)

end BuildGraph

structure Partition where
  server : BuildGraph
  client : BuildGraph
  serverFunctions : BuildGraph
  /-- Modules of functions that the client graph imports. -/
  serverFunctionModules : PathSet
  /-- The shared modules of the server graph. -/
  shared : PathSet
  modules : List (ModulePath × ModuleRecord)
deriving DecidableEq, Repr, Inhabited

namespace Partition

def record? (partition : Partition) (path : ModulePath) : Option ModuleRecord :=
  (partition.modules.find? (·.1 == path)).map Prod.snd

def realm? (partition : Partition) (path : ModulePath) : Option Realm :=
  (partition.record? path).map (·.realm)

def graphs (partition : Partition) : List BuildGraph :=
  [partition.server, partition.client, partition.serverFunctions]

/-- The records of the client graph whose exports get references. -/
def clientReferenceModules (partition : Partition) : List ModuleRecord :=
  (partition.client.modules.filterMap partition.record?).filter (·.realm == .client)

end Partition
end Realms
