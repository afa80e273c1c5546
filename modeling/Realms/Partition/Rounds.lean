import Realms.Partition.Boundary
import Realms.Partition.Walk

/-!
Partitioning a project. The three graphs are walked in rounds, until none of them asks for an entry
that its graph does not have.
-/
namespace Realms

structure Entries where
  server : PathSet
  client : PathSet
  serverFunctions : PathSet
deriving DecidableEq, Repr, Inhabited

namespace Entries

def empty : Entries := ⟨[], [], []⟩

def of (entries : Entries) : GraphKind → PathSet
  | .server => entries.server
  | .client => entries.client
  | .serverFunction => entries.serverFunctions

def insert (entries : Entries) (path : ModulePath) : GraphKind → Entries
  | .server => { entries with server := entries.server.insert path }
  | .client => { entries with client := entries.client.insert path }
  | .serverFunction => { entries with serverFunctions := entries.serverFunctions.insert path }

def insertAll (entries : Entries) (more : List (ModulePath × GraphKind)) : Entries :=
  more.foldl (fun entries (path, kind) => entries.insert path kind) entries

def has (entries : Entries) (path : ModulePath) (kind : GraphKind) : Bool :=
  List.contains (entries.of kind) path

end Entries

structure Round where
  server : Walk
  client : Walk
  serverFunctions : Walk
deriving DecidableEq, Repr, Inhabited

namespace Round

def wanted (round : Round) : List (ModulePath × GraphKind) :=
  round.server.wanted ++ round.client.wanted ++ round.serverFunctions.wanted

def loaded (round : Round) : PathSet := round.serverFunctions.loaded

end Round

namespace Project

/-- The entries of the modules that are listed as such, by their realms. -/
def listedEntries (project : Project) : List ModulePath → Entries → Except BuildError Entries
  | [], entries => .ok entries
  | path :: rest, entries => do
    let record ← project.load path
    project.listedEntries rest (entries.insert path (GraphKind.ofRealm record.realm))

def round (project : Project) (entries : Entries) (loaded : PathSet) : Except BuildError Round := do
  let server ← project.walk .server entries.server loaded
  let client ← project.walk .client entries.client server.loaded
  let serverFunctions ← project.walk .serverFunction entries.serverFunctions client.loaded
  return ⟨server, client, serverFunctions⟩

/-- Repeats the walks until they ask for no new entry, for so many more rounds at most. -/
def rounds (project : Project) : Nat → Entries → PathSet → Except BuildError Round
  | 0, entries, loaded => project.round entries loaded
  | left + 1, entries, loaded => do
    let round ← project.round entries loaded
    let missing := round.wanted.filter fun (path, kind) => !entries.has path kind
    if missing.isEmpty then return round
    else project.rounds left (entries.insertAll missing) round.loaded

/-- The records of modules. A module that cannot be loaded has none. -/
def records (project : Project) (paths : PathSet) : List (ModulePath × ModuleRecord) :=
  paths.filterMap fun path =>
    match project.load path with
    | .ok found => some (path, found)
    | .error _ => none

def partitionOf (project : Project) (round : Round) : Partition :=
  let modules := project.records round.loaded
  { server := round.server.graph
    client := round.client.graph
    serverFunctions := round.serverFunctions.graph
    serverFunctionModules := round.client.fromClient
    shared := (modules.filter fun (path, found) =>
      found.realm == .shared && List.contains round.server.graph.entries path).map Prod.fst
    modules }

/-- The partition of a project by its entries. Each round but the last adds an entry, and every file is
an entry of one graph at most, so there are enough rounds. -/
def partition (project : Project) (listed : List ModulePath) : Except BuildError Partition := do
  let entries ← project.listedEntries listed .empty
  let round ← project.rounds (project.sources.files.length + 1) entries (PathSet.ofList listed)
  let partition := project.partitionOf round
  partition.checkBoundary
  return partition

end Project
end Realms
