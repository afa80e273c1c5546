import Realms.Emission.Checked
import Realms.Emission.Code
import Realms.Partition.Basic

/-!
Generating all artifacts of a partition. The server gets every module of its two graphs, the references
that stand for client modules included; the client gets its own graph and the stubs of functions.
-/
namespace Realms.Emission

/-- The paths that have a record, with it. -/
def withRecords (partition : Partition) (paths : PathSet) : List (ModulePath × ModuleRecord) :=
  paths.filterMap fun path => (partition.record? path).map fun found => (path, found)

def serverSide (partition : Partition) : PathSet :=
  partition.server.modules.union partition.serverFunctions.modules

/-- What the server gets, and the references that were made for modules of functions on the way. -/
structure ServerPart where
  emission : Emission
  functions : List (ModulePath × List Reference)
deriving DecidableEq, Repr, Inhabited

namespace ServerPart

instance : EmptyCollection ServerPart := ⟨⟨∅, []⟩⟩

instance : Append ServerPart := ⟨fun a b => ⟨a.emission ++ b.emission, a.functions ++ b.functions⟩⟩

def references? (part : ServerPart) (path : ModulePath) : Option (List Reference) :=
  (part.functions.find? (·.1 == path)).map Prod.snd

end ServerPart

def serverModule (options : EmissionOptions) (path : ModulePath) (found : ModuleRecord) :
    Except BuildError ServerPart := do
  match found.realm with
  | .serverFunction =>
    let crossed ← crossedExports options.policy found .serverFunction
    let code ← checkText path (serverFunctionText options found crossed.references)
    return {
      emission := {
        artifacts := [⟨path, .server, .serverFunction, code⟩]
        clientReferences := []
        serverFunctions := crossed.references
        warnings := crossed.warnings }
      functions := [(path, crossed.references)] }
  | .shared => return ⟨ofArtifact ⟨path, .server, .shared, found.source⟩, []⟩
  | _ => return ⟨ofArtifact ⟨path, .server, .module, found.source⟩, []⟩

/-- What the server gets for a client module: the references to its exports. -/
def referencesFor (options : EmissionOptions) (path : ModulePath) (found : ModuleRecord) :
    Except BuildError Emission := do
  if found.realm == .client then
    let crossed ← crossedExports options.policy found .client
    let code ← printText path (clientReferenceText found crossed.references)
    return {
      artifacts := [⟨path, .server, .clientReference, code⟩]
      clientReferences := crossed.references
      serverFunctions := []
      warnings := crossed.warnings }
  else return ∅

def clientModule (options : EmissionOptions) (path : ModulePath) (found : ModuleRecord) :
    Except BuildError Emission := do
  let references ← referencesFor options path found
  return references ++ ofArtifact ⟨path, .client, .module, found.source⟩

/-- The references to a module of functions. Those that the server has made are taken as they are, so
that their warnings are given once. -/
def functionReferences (options : EmissionOptions) (server : ServerPart) (path : ModulePath)
    (found : ModuleRecord) : Except BuildError Crossed :=
  match server.references? path with
  | some references => .ok ⟨references, []⟩
  | none => crossedExports options.policy found .serverFunction

def functionStub (options : EmissionOptions) (server : ServerPart) (path : ModulePath)
    (found : ModuleRecord) : Except BuildError Emission := do
  let crossed ← functionReferences options server path found
  let code ← printText path (stubText options found crossed.references)
  return {
    artifacts := [⟨path, .client, .serverFunctionStub, code⟩]
    clientReferences := []
    serverFunctions := []
    warnings := crossed.warnings }

def ofEach {α : Type} [EmptyCollection α] [Append α]
    (emit : ModulePath → ModuleRecord → Except BuildError α) :
    List (ModulePath × ModuleRecord) → Except BuildError α
  | [] => .ok ∅
  | (path, found) :: rest => do
    let first ← emit path found
    return first ++ (← ofEach emit rest)

def generate (options : EmissionOptions) (partition : Partition) : Except BuildError Emission := do
  let server ← ofEach (serverModule options) (withRecords partition (serverSide partition))
  let client ← ofEach (clientModule options) (withRecords partition partition.client.modules)
  let stubs ← ofEach (functionStub options server)
    (withRecords partition partition.serverFunctionModules)
  let emission := server.emission ++ client ++ stubs
  Reference.checkUnique (emission.clientReferences ++ emission.serverFunctions)
  return emission

end Realms.Emission
