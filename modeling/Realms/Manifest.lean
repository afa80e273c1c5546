import Realms.Digest.Sha256
import Realms.Emission.Basic
import Realms.Text.Utf8

/-!
Manifests: what a build has emitted, with a digest for each artifact and one for all of them.
-/
namespace Realms

structure ManifestArtifact where
  path : ModulePath
  target : Target
  role : Role
  hash : String
deriving DecidableEq, Repr, Inhabited

structure Manifest where
  buildId : String
  artifacts : List ManifestArtifact
  clientReferences : List Reference
  serverFunctions : List Reference
  shared : List ModulePath
deriving DecidableEq, Repr, Inhabited

namespace Manifest

def fileName : String := "manifest.json"

/-- Artifacts of the server stand before those of the client, and each side is sorted by path. -/
def artifactLe (a b : Artifact) : Bool :=
  match a.target, b.target with
  | .server, .client => true
  | .client, .server => false
  | _, _ => a.path.le b.path

def entryOf (artifact : Artifact) : ManifestArtifact :=
  ⟨artifact.path, artifact.target, artifact.role, Digest.hexOf (Text.bytesOf artifact.code)⟩

/-- What an entry adds to the digest of a build. -/
def markOf (entry : ManifestArtifact) : String :=
  entry.target.name ++ "/" ++ entry.path.text ++ "\x00" ++ entry.hash

def entriesOf (artifacts : List Artifact) : List ManifestArtifact :=
  (artifacts.mergeSort artifactLe).map entryOf

def idOf (entries : List ManifestArtifact) : String :=
  Digest.hexOf (Text.bytesOf (String.join (entries.map markOf)))

def ofEmission (shared : PathSet) (emission : Emission) : Manifest :=
  let entries := entriesOf emission.artifacts
  ⟨idOf entries, entries, emission.clientReferences, emission.serverFunctions, shared⟩

def serverFunctionIds (manifest : Manifest) : List String := manifest.serverFunctions.map (·.id)

def clientReference? (manifest : Manifest) (id : String) : Option Reference :=
  manifest.clientReferences.find? (·.id == id)

end Manifest
end Realms
