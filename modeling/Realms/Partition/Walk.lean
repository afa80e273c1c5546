import Realms.Partition.Basic
import Realms.Resolution

/-!
Walking a graph from its entries. Every import becomes an edge; what is built in is walked in turn, and
what is left out may ask for an entry of another graph.
-/
namespace Realms

/-- The modules of a build: what a path holds and what a specifier means. -/
structure Project where
  shared : SharedSet
  sources : Sources

inductive Destination where
  | package (name : String)
  | module (path : ModulePath) (realm : Realm)
deriving DecidableEq, Repr, Inhabited

namespace Project

def load (project : Project) (path : ModulePath) : Except BuildError ModuleRecord :=
  match project.sources.read path with
  | .error reason => .error (.atFile (.unreadable reason) path.text)
  | .ok source =>
    match ModuleRecord.parse? project.shared path source with
    | some found => .ok found
    | none => .error (.atFile .unparsable path.text)

def resolve (project : Project) (importer : ModulePath) (specifier : String) :
    Except BuildError Resolution :=
  Realms.resolve project.sources.contains importer specifier

def unresolved (importer : ModulePath) (found : ImportRecord) : BuildError :=
  ⟨.unresolved found.specifier, importer.text, found.location, none⟩

/-- What an import of a module leads to. A module that it leads to is loaded. -/
def destination (project : Project) (importer : ModulePath) (found : ImportRecord) :
    Except BuildError Destination := do
  match ← project.resolve importer found.specifier with
  | .package name => return .package name
  | .unresolved => .error (unresolved importer found)
  | .module target =>
    let record ← project.load target
    return .module target record.realm

end Project

structure Walk where
  graph : BuildGraph
  /-- What other graphs must take as entries. -/
  wanted : List (ModulePath × GraphKind)
  /-- Modules of functions that are imported from a client module. -/
  fromClient : PathSet
  queue : List ModulePath
  /-- Modules whose records were asked for, by this walk or by one before it. -/
  loaded : PathSet
deriving DecidableEq, Repr, Inhabited

namespace Walk

/-- A walk before its first step, behind walks that have loaded some modules. -/
def start (kind : GraphKind) (entries loaded : PathSet) : Walk where
  graph := ⟨kind, entries, entries, [], [], []⟩
  wanted := []
  fromClient := []
  queue := entries
  loaded

def addLoaded (walk : Walk) (path : ModulePath) : Walk :=
  { walk with loaded := walk.loaded.insert path }

def addEdge (walk : Walk) (edge : Edge) : Walk :=
  { walk with graph := { walk.graph with edges := walk.graph.edges ++ [edge] } }

def addPackage (walk : Walk) (importer : ModulePath) (specifier name : String) : Walk :=
  let walk := walk.addEdge ⟨importer, specifier, none, .package, .none⟩
  { walk with graph := { walk.graph with packages := Sorted.insert id name walk.graph.packages } }

/-- A module that is built into the graph; it is queued the first time. -/
def addInline (walk : Walk) (target : ModulePath) : Walk :=
  if walk.graph.contains target then walk
  else
    { walk with
      graph := { walk.graph with modules := walk.graph.modules.insert target }
      queue := walk.queue ++ [target] }

def addExternal (walk : Walk) (target : ModulePath) (found : Link) : Walk :=
  { walk with
    graph := { walk.graph with externals := walk.graph.externals.insert target }
    fromClient :=
      if found.crossing == .intoServerFunction then walk.fromClient.insert target else walk.fromClient
    wanted := match found.entryFor with
      | some kind => walk.wanted ++ [(target, kind)]
      | none => walk.wanted }

def addModule (walk : Walk) (importer : ModulePath) (specifier : String) (target : ModulePath)
    (realm : Realm) : Walk :=
  let found := link walk.graph.kind realm
  let walk := walk.addEdge ⟨importer, specifier, some target, found.linkage, found.crossing⟩
  match found.linkage with
  | .inline => walk.addInline target
  | .external => walk.addExternal target found
  | .package => walk

def add (walk : Walk) (importer : ModulePath) (specifier : String) : Destination → Walk
  | .package name => walk.addPackage importer specifier name
  | .module target realm => (walk.addLoaded target).addModule importer specifier target realm

def follow (project : Project) (importer : ModulePath) (walk : Walk) (found : ImportRecord) :
    Except BuildError Walk := do
  return walk.add importer found.specifier (← project.destination importer found)

def visit (project : Project) (walk : Walk) (path : ModulePath) : Except BuildError Walk := do
  let record ← project.load path
  record.imports.foldlM (follow project path) (walk.addLoaded path)

def run (project : Project) : Nat → Walk → Except BuildError Walk
  | 0, walk => .ok walk
  | rounds + 1, walk =>
    match walk.queue with
    | [] => .ok walk
    | path :: rest => do run project rounds (← visit project { walk with queue := rest } path)

end Walk

/-- The walk of a graph from its entries. Each file is visited at most once, so there are enough
rounds, one more for an entry that is no file. -/
def Project.walk (project : Project) (kind : GraphKind) (entries loaded : PathSet) :
    Except BuildError Walk :=
  Walk.run project (project.sources.files.length + 1) (Walk.start kind entries loaded)

end Realms
