import Realms.Build
import Realms.Exchange.Partitions

/-!
Builds, manifests and their options as values of the data format, and values as these.
-/
namespace Realms.Exchange

open Realms.Json

def reference (r : Reference) : Value :=
  .object [("id", .text r.id), ("realm", realm r.realm), ("exportName", .text r.exportName),
    ("modulePath", path r.modulePath)]

def artifact (a : Artifact) : Value :=
  .object [("path", path a.path), ("target", .text a.target.name), ("role", .text a.role.name),
    ("code", .text a.code)]

def warnings (found : List BuildError) : Value := .list (found.map buildError)

def emission (e : Emission) : Value :=
  .object [("artifacts", .list (e.artifacts.map artifact)),
    ("clientReferences", .list (e.clientReferences.map reference)),
    ("serverFunctions", .list (e.serverFunctions.map reference)), ("warnings", warnings e.warnings)]

def manifestArtifact (a : ManifestArtifact) : Value :=
  .object [("path", path a.path), ("target", .text a.target.name), ("role", .text a.role.name),
    ("hash", .text a.hash)]

/-- A manifest, its fields in the order in which it is written. -/
def manifest (m : Manifest) : Value :=
  .object [("buildId", .text m.buildId), ("artifacts", .list (m.artifacts.map manifestArtifact)),
    ("clientReferences", .list (m.clientReferences.map reference)),
    ("serverFunctions", .list (m.serverFunctions.map reference)), ("shared", paths m.shared)]

def build (b : Build) : Value :=
  .object [("manifest", manifest b.manifest), ("artifacts", .list (b.emission.artifacts.map artifact)),
    ("warnings", warnings b.emission.warnings)]

def emissionOptions (options : EmissionOptions) : Value :=
  .object [("registryModule", .text options.registryModule),
    ("transportModule", .text options.transportModule),
    ("defaultExportPolicy", .text options.policy.name)]

def buildOptions (options : BuildOptions) : Value :=
  .object [("root", .text options.root), ("entries", .texts options.entries),
    ("shared", .texts options.shared), ("codegen", emissionOptions options.emission)]

namespace Shape

def reference : Shape Reference := fun v => do
  match ← fields ["id", "realm", "exportName", "modulePath"] v with
  | [id, realmOf, exportName, modulePath] =>
    return ⟨← required text id, ← required realm realmOf, ← required text exportName,
      ← required path modulePath⟩
  | _ => none

def emissionOptions : Shape EmissionOptions := fun v => do
  match ← fields ["registryModule", "transportModule", "defaultExportPolicy"] v with
  | [registryModule, transportModule, policy] =>
    return ⟨← required text registryModule, ← required text transportModule,
      ← required (named ExportPolicy.ofName?) policy⟩
  | _ => none

def buildOptions : Shape BuildOptions := fun v => do
  match ← fieldsLeaving 2 ["root", "entries", "shared", "codegen"] v with
  | [root, entries, shared, emission] =>
    return {
      root := ← required text root
      entries := ← required (list text) entries
      shared := ← withDefault [] (list text) shared
      emission := ← withDefault .standard emissionOptions emission }
  | _ => none

def manifestArtifact : Shape ManifestArtifact := fun v => do
  match ← fields ["path", "target", "role", "hash"] v with
  | [pathOf, target, role, hash] =>
    return ⟨← required path pathOf, ← required (named Target.ofName?) target,
      ← required (named Role.ofName?) role, ← required text hash⟩
  | _ => none

def manifest : Shape Manifest := fun v => do
  match ← fields ["buildId", "artifacts", "clientReferences", "serverFunctions", "shared"] v with
  | [buildId, artifacts, clientReferences, serverFunctions, shared] =>
    return {
      buildId := ← required text buildId
      artifacts := ← required (list manifestArtifact) artifacts
      clientReferences := ← required (list reference) clientReferences
      serverFunctions := ← required (list reference) serverFunctions
      shared := ← required (list path) shared }
  | _ => none

end Shape
end Realms.Exchange
