import Realms.Build
import Realms.Disk.Step
import Realms.Exchange.Builds
import Realms.Json.Record
import Realms.Json.Write

/-!
Writing what a build has emitted, and reading its manifest again. The output is written next to its
folder first and takes its place in one step at the end.
-/
namespace Realms

namespace Manifest

def text (manifest : Manifest) : String := (Exchange.manifest manifest).pretty

open Json in
def layout : List Field :=
  let artifact : Layout :=
    .record [("path", true, .text), ("target", true, .any), ("role", true, .any), ("hash", true, .text)]
  let reference : Layout :=
    .record [("id", true, .text), ("realm", true, .any), ("exportName", true, .text),
      ("modulePath", true, .text)]
  [("buildId", true, .text), ("artifacts", true, .list artifact),
    ("clientReferences", true, .list reference), ("serverFunctions", true, .list reference),
    ("shared", true, .list .text)]

def ofText? (source : String) : Option Manifest :=
  match Json.readRecord layout (Text.bytesOf source) with
  | .ok v => Exchange.Shape.manifest v
  | .error _ => none

def load (disk : Disk) (file : String) : Except BuildError Manifest :=
  match disk.read file with
  | .error fault => .error (.atFile (.manifestUnreadable fault.message) file)
  | .ok source =>
    match ofText? source with
    | some manifest => .ok manifest
    | none => .error (.atFile .manifestMalformed file)

end Manifest

namespace Build

/-- Where output is written before it takes its place. -/
def stagingOf (outDir : String) : String := FilePath.withEnding outDir "staging"

def artifactFile (folder : String) (artifact : Artifact) : String :=
  FilePath.ofModule (FilePath.join folder artifact.target.name) artifact.path

/-- Writes one artifact, after the folders that hold it. -/
def artifactSteps (staging : String) (artifact : Artifact) : List DiskStep :=
  let file := artifactFile staging artifact
  ((FilePath.parent? file).map DiskStep.createFolders).toList ++ [.write file artifact.code]

/-- Writes all artifacts and the manifest next to the output folder, and puts them in its place. -/
def steps (build : Build) (outDir : String) : List DiskStep :=
  let staging := stagingOf outDir
  [.clear staging] ++ build.emission.artifacts.flatMap (artifactSteps staging) ++
    [.createFolders staging, .write (FilePath.join staging Manifest.fileName) build.manifest.text,
      .clear outDir, .rename staging outDir]

def write (build : Build) (outDir : String) (disk : Disk) : DiskProgress :=
  DiskStep.makeAll (build.steps outDir) disk

/-- The file of the manifest after all steps were made, or the failure that stopped them. -/
def written (outDir : String) (progress : DiskProgress) : Except BuildError String :=
  match progress.failed with
  | none => .ok (FilePath.join outDir Manifest.fileName)
  | some (step, fault) => .error (.atFile (.unwritten fault.message) step.subject)

end Build
end Realms
