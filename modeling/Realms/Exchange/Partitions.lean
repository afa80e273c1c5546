import Realms.Exchange.Modules
import Realms.Exchange.Shape
import Realms.Partition.Basic

/-!
Partitions as values of the data format, and values as partitions.
-/
namespace Realms.Exchange

open Realms.Json

def linkage (l : Linkage) : Value := .text l.name

def crossing (c : Crossing) : Value := .text c.name

def graphKind (kind : GraphKind) : Value := .text kind.name

def linkValue (found : Link) : Value :=
  .object [("linkage", linkage found.linkage), ("crossing", crossing found.crossing),
    ("entryFor", .optional graphKind found.entryFor)]

def edge (e : Edge) : Value :=
  .object [("from", path e.importer), ("specifier", .text e.specifier),
    ("target", .optional path e.target), ("linkage", linkage e.linkage),
    ("crossing", crossing e.crossing)]

def graph (g : BuildGraph) : Value :=
  .object [("kind", graphKind g.kind), ("entries", paths g.entries), ("modules", paths g.modules),
    ("edges", .list (g.edges.map edge)), ("externals", paths g.externals),
    ("packages", .texts g.packages)]

/-- A partition, and the modules with references in addition. -/
def partition (p : Partition) : Value :=
  .object [("server", graph p.server), ("client", graph p.client),
    ("serverFunctions", graph p.serverFunctions),
    ("serverFunctionModules", paths p.serverFunctionModules), ("shared", paths p.shared),
    ("modules", .object (p.modules.map fun (path, found) => (path.text, moduleRecord found))),
    ("clientReferenceModules", paths (p.clientReferenceModules.map (·.path)))]

def partitionQuery (p : Partition) (of : ModulePath) : Value :=
  .object [("realm", .optional realm (p.realm? of)),
    ("graphs", .list (p.graphs.map fun g =>
      .object [("contains", .bool (g.contains of)),
        ("edgesFrom", .list ((g.edgesFrom of).map edge)),
        ("edgesTo", .list ((g.edgesTo of).map edge))]))]

namespace Shape

def caseOf {α : Type} (names : List (α × String)) (name : String) : Option α :=
  (names.find? (·.2 == name)).map Prod.fst

def location : Shape Location := fun v => do
  match ← fields ["line", "column"] v with
  | [line, column] => return ⟨← required size line, ← required size column⟩
  | _ => none

def realm : Shape Realm := named Realm.ofName?

def graphKind : Shape GraphKind := named GraphKind.ofName?

def importRecord : Shape ImportRecord := fun v => do
  match ← fields ["specifier", "kind", "location"] v with
  | [specifier, kind, place] =>
    return ⟨← required text specifier, ← required (named (caseOf ImportKind.names)) kind,
      ← required location place⟩
  | _ => none

def exportRecord : Shape ExportRecord := fun v => do
  match ← fields ["name", "kind", "location"] v with
  | [name, kind, place] =>
    return ⟨← required text name, ← required (named (caseOf ExportKind.names)) kind,
      ← required location place⟩
  | _ => none

def moduleRecord : Shape ModuleRecord := fun v => do
  match ← fields ["path", "realm", "source", "imports", "exports", "defaultExport", "starExports"] v with
  | [pathOf, realmOf, source, imports, exports, defaultExport, starExports] =>
    return {
      path := ← required path pathOf
      realm := ← required realm realmOf
      source := ← required text source
      imports := ← required (list importRecord) imports
      exports := ← required (list exportRecord) exports
      defaultExport := ← optionalField location defaultExport
      starExports := ← required (list location) starExports }
  | _ => none

def edge : Shape Edge := fun v => do
  match ← fields ["from", "specifier", "target", "linkage", "crossing"] v with
  | [importer, specifier, target, linkage, crossing] =>
    return {
      importer := ← required path importer
      specifier := ← required text specifier
      target := ← optionalField path target
      linkage := ← required (named Linkage.ofName?) linkage
      crossing := ← required (named Crossing.ofName?) crossing }
  | _ => none

def graph : Shape BuildGraph := fun v => do
  match ← fields ["kind", "entries", "modules", "edges", "externals", "packages"] v with
  | [kind, entries, modules, edges, externals, packages] =>
    return {
      kind := ← required graphKind kind
      entries := ← required pathSet entries
      modules := ← required pathSet modules
      edges := ← required (list edge) edges
      externals := ← required pathSet externals
      packages := Sorted.ofList id (← required (list text) packages) }
  | _ => none

def records : Shape (List (ModulePath × ModuleRecord)) := fun v => do
  return (← map moduleRecord v).map fun (path, found) => (⟨path⟩, found)

def partition : Shape Partition := fun v => do
  match ← fields ["server", "client", "serverFunctions", "serverFunctionModules", "shared", "modules"] v with
  | [server, client, serverFunctions, functionModules, shared, modules] =>
    return {
      server := ← required graph server
      client := ← required graph client
      serverFunctions := ← required graph serverFunctions
      serverFunctionModules := ← required pathSet functionModules
      shared := ← required pathSet shared
      modules := ← required records modules }
  | _ => none

end Shape
end Realms.Exchange
