import Realms.BuildError
import Realms.Reference

/-!
What a build emits: artifacts for the server and for the client, and the references that cross between
them.
-/
namespace Realms

inductive ExportPolicy where
  | error
  /-- The export is left out, with a warning. -/
  | warnAndSkip
deriving DecidableEq, Repr, Inhabited

namespace ExportPolicy

def name : ExportPolicy → String
  | .error => "error"
  | .warnAndSkip => "warn-and-skip"

def all : List ExportPolicy := [.error, .warnAndSkip]

def ofName? (name : String) : Option ExportPolicy := all.find? (·.name == name)

end ExportPolicy

structure EmissionOptions where
  /-- Where modules of functions import their registration from. -/
  registryModule : String
  /-- Where the client imports its calls from. -/
  transportModule : String
  policy : ExportPolicy
deriving DecidableEq, Repr, Inhabited

namespace EmissionOptions

def standard : EmissionOptions := ⟨"realm-runtime/server", "realm-runtime/client", .error⟩

end EmissionOptions

inductive Target where
  | server
  | client
deriving DecidableEq, Repr, Inhabited

namespace Target

/-- The name, which is also that of the folder of its artifacts. -/
def name : Target → String
  | .server => "server"
  | .client => "client"

def all : List Target := [.server, .client]

def ofName? (name : String) : Option Target := all.find? (·.name == name)

end Target

inductive Role where
  | module
  /-- References to the exports of a client module. -/
  | clientReference
  /-- Calls of the functions of a module. -/
  | serverFunctionStub
  /-- A module of functions that registers them. -/
  | serverFunction
  | shared
deriving DecidableEq, Repr, Inhabited

namespace Role

def name : Role → String
  | .module => "module"
  | .clientReference => "clientReference"
  | .serverFunctionStub => "serverFunctionStub"
  | .serverFunction => "serverFunction"
  | .shared => "shared"

def all : List Role := [.module, .clientReference, .serverFunctionStub, .serverFunction, .shared]

def ofName? (name : String) : Option Role := all.find? (·.name == name)

end Role

structure Artifact where
  path : ModulePath
  target : Target
  role : Role
  code : String
deriving DecidableEq, Repr, Inhabited

/-- Artifacts and the references in them, in the order they were made. -/
structure Emission where
  artifacts : List Artifact
  clientReferences : List Reference
  serverFunctions : List Reference
  warnings : List BuildError
deriving DecidableEq, Repr, Inhabited

namespace Emission

def empty : Emission := ⟨[], [], [], []⟩

def append (a b : Emission) : Emission where
  artifacts := a.artifacts ++ b.artifacts
  clientReferences := a.clientReferences ++ b.clientReferences
  serverFunctions := a.serverFunctions ++ b.serverFunctions
  warnings := a.warnings ++ b.warnings

instance : EmptyCollection Emission := ⟨empty⟩

instance : Append Emission := ⟨append⟩

def ofArtifact (artifact : Artifact) : Emission := { empty with artifacts := [artifact] }

end Emission
end Realms
