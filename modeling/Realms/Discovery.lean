import Realms.BuildError
import Realms.Disk
import Realms.ModuleRecord
import Realms.Partition.Basic

/-!
Discovery: all module files below a folder and what they are, reached by a build or not. Folders of
packages, of output and with hidden names are left out.
-/
namespace Realms

structure DiscoveredModule where
  path : ModulePath
  realm : Realm
  exports : List String
  hasDefaultExport : Bool
deriving DecidableEq, Repr, Inhabited

structure Discovery where
  /-- What could be read, sorted by path. -/
  modules : List DiscoveredModule
  /-- What could not, in the order of the files. -/
  errors : List BuildError
deriving DecidableEq, Repr, Inhabited

namespace Discovery

def moduleEndings : List String := ["js", "jsx", "mjs", "cjs", "ts", "tsx", "mts", "cts"]

def isModuleName (name : String) : Bool :=
  match FilePath.ending? name with
  | some ending => moduleEndings.contains ending
  | none => false

def isSkipped (folder : String) : Bool :=
  folder.startsWith "." || ["node_modules", "dist", "target"].contains folder

def isWanted (names : Place) : Bool :=
  !names.dropLast.any isSkipped && names.getLast?.any isModuleName

def placeLe : Place → Place → Bool
  | [], _ => true
  | _ :: _, [] => false
  | a :: as, b :: bs => if a < b then true else if b < a then false else placeLe as bs

/-- The module files below a written path, as written paths, in the order of their places. A path that
is a module file stands for itself. -/
def moduleFiles (disk : Disk) (root : String) : List String :=
  match disk.locate root with
  | .error _ => []
  | .ok place =>
    match disk.node? place with
    | none => []
    | some (.file _) =>
      if ((FilePath.lastName? root).map String.ofList).any isModuleName then [root] else []
    | some .folder =>
      let names := ((disk.filesBelow place).map Prod.fst).filter isWanted
      (names.mergeSort placeLe).map fun names => names.foldl FilePath.join root

def discoverFile (disk : Disk) (shared : SharedSet) (root file : String) :
    Except BuildError DiscoveredModule := do
  let path ← ModulePath.ofFile root file
  match disk.read file with
  | .error fault => .error (.atFile (.unreadable fault.message) path.text)
  | .ok source =>
    match ModuleRecord.parse? shared path source with
    | none => .error (.atFile .unparsable path.text)
    | some found =>
      return ⟨path, found.realm, found.exports.map (·.name), found.defaultExport.isSome⟩

def add (found : Discovery) : Except BuildError DiscoveredModule → Discovery
  | .ok one => { found with modules := found.modules ++ [one] }
  | .error e => { found with errors := found.errors ++ [e] }

def pathLe (a b : DiscoveredModule) : Bool := a.path.le b.path

/-- All module files below a written path. One that cannot be read changes nothing for the others. -/
def discover (disk : Disk) (shared : SharedSet) (root : String) : Discovery :=
  let found := ((moduleFiles disk root).map (discoverFile disk shared root)).foldl add ⟨[], []⟩
  { found with modules := found.modules.mergeSort pathLe }

def inRealm (found : Discovery) (realm : Realm) : List DiscoveredModule :=
  found.modules.filter (·.realm == realm)

/-- The modules that are reached by references. -/
def boundary (found : Discovery) : List DiscoveredModule :=
  found.modules.filter (·.realm.isBoundary)

/-- The modules among them that no graph of a partition contains. -/
def orphans (found : Discovery) (partition : Partition) : List DiscoveredModule :=
  found.boundary.filter fun one => !partition.graphs.any (·.contains one.path)

end Discovery
end Realms
