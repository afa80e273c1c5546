import Realms.Proofs.Disk.Filled
import Realms.Proofs.Output

/-!
Filling the folder next to the output folder. The steps that do this write each file of the build to its place there,
and create folders only where they hold files of the build and on the way.
-/
namespace Realms.Build

open FilePath (place through splitParts)

variable {build : Build} {outDir : String} {here : Place}

/-- What a build puts into its output folder: each artifact below the folder of its side, and the manifest. -/
def files (build : Build) : List (Place × List UInt8) :=
  (build.emission.artifacts.map fun artifact =>
      (artifact.target.name :: splitParts artifact.path.text, Text.bytesOf artifact.code)) ++
    [([Manifest.fileName], Text.bytesOf build.manifest.text)]

/-- A folder that holds files of a build. -/
def Holds (build : Build) (names : Place) : Prop :=
  ∃ file ∈ build.files, ∃ rest, rest ≠ [] ∧ file.1 = names ++ rest

theorem artifact_mem_files {artifact : Artifact} (listed : artifact ∈ build.emission.artifacts) :
    (artifact.target.name :: splitParts artifact.path.text, Text.bytesOf artifact.code) ∈ build.files :=
  List.mem_append_left _ (List.mem_map.mpr ⟨artifact, listed, rfl⟩)

theorem manifest_mem_files (build : Build) :
    ([Manifest.fileName], Text.bytesOf build.manifest.text) ∈ build.files :=
  List.mem_append_right _ List.mem_cons_self

/-- The steps that fill the folder next to the output folder. -/
def fillingSteps (build : Build) (staging : String) : List DiskStep :=
  build.emission.artifacts.flatMap (artifactSteps staging) ++
    [.createFolders staging, .write (FilePath.join staging Manifest.fileName) build.manifest.text]

theorem steps_filling (build : Build) (outDir : String) : build.steps outDir =
    .clear (stagingOf outDir) :: (build.fillingSteps (stagingOf outDir) ++
      [.clear outDir, .rename (stagingOf outDir) outDir]) := by
  simp [steps, fillingSteps]

theorem fillingSteps_adds (build : Build) (staging : String) :
    ∀ step ∈ build.fillingSteps staging, step.Adds := by
  intro step member
  simp only [fillingSteps, artifactSteps, List.mem_append, List.mem_flatMap, Option.mem_toList,
    Option.map_eq_some_iff, List.mem_cons, List.not_mem_nil, or_false] at member
  rcases member with ⟨_, _, ⟨_, _, rfl⟩ | rfl⟩ | rfl | rfl <;> trivial

/-- The files are written below the folder that is filled. -/
theorem fillingSteps_writes (normal : ∀ artifact ∈ build.emission.artifacts, artifact.path.Normal)
    (staging : String) : (build.fillingSteps staging).flatMap (DiskStep.writes here) =
      build.files.map fun file => (place here staging ++ file.1, file.2) := by
  have each (artifacts : List Artifact) (normal : ∀ artifact ∈ artifacts, artifact.path.Normal) :
      (artifacts.flatMap (artifactSteps staging)).flatMap (DiskStep.writes here) = artifacts.map fun artifact =>
        (place here staging ++ artifact.target.name :: splitParts artifact.path.text,
          Text.bytesOf artifact.code) := by
    induction artifacts with
    | nil => rfl
    | cons artifact rest ih =>
        have own : (artifactSteps staging artifact).flatMap (DiskStep.writes here) =
            [(place here (artifactFile staging artifact), Text.bytesOf artifact.code)] := by
          rw [artifactSteps]
          cases FilePath.parent? (artifactFile staging artifact) <;> simp [DiskStep.writes]
        rw [List.flatMap_cons, List.flatMap_append, own, place_artifactFile (normal artifact List.mem_cons_self),
          ih fun later member => normal later (List.mem_cons_of_mem _ member), List.map_cons, List.singleton_append]
  have last : ([.createFolders staging, .write (FilePath.join staging Manifest.fileName) build.manifest.text] :
      List DiskStep).flatMap (DiskStep.writes here) =
        [(place here staging ++ [Manifest.fileName], Text.bytesOf build.manifest.text)] := by
    rw [← place_manifest]
    simp [DiskStep.writes]
  simp only [fillingSteps, List.flatMap_append, each _ normal, last, files, List.map_append, List.map_map,
    List.map_cons, List.map_nil, Function.comp_def]

/-- Folders are created on the way and where they hold files. -/
theorem fillingSteps_creates (normal : ∀ artifact ∈ build.emission.artifacts, artifact.path.Normal)
    {staging : String} {step : DiskStep} (member : step ∈ build.fillingSteps staging) {spot : Place}
    (creates : step.creates here spot) :
    spot ∈ through here staging ∨ ∃ names, build.Holds names ∧ spot = place here staging ++ names := by
  rw [fillingSteps, List.mem_append, List.mem_flatMap] at member
  rcases member with ⟨artifact, listed, member⟩ | member
  · rw [artifactSteps] at member
    rcases List.mem_append.mp member with folder | file
    · rw [Option.mem_toList, Option.map_eq_some_iff] at folder
      obtain ⟨parent, holds, rfl⟩ := folder
      obtain ⟨own, way⟩ := FilePath.parent?_on_way here holds
      have onWay : spot ∈ through here (artifactFile staging artifact) :=
        creates.elim (fun before => way before) fun same => same ▸ own
      have names : ∀ name ∈ artifact.target.name :: splitParts artifact.path.text, FilePath.IsFileName name := by
        intro name member
        rcases List.mem_cons.mp member with rfl | member
        · exact FilePath.isFileName_of_name (target_name_isName _)
        · exact FilePath.isFileName_of_name ((FilePath.splitParts_normal (normal artifact listed)).2 name member)
      refine ((FilePath.mem_through_names names staging).mp onWay).imp_right ?_
      rintro ⟨front, rest, split, more, rfl⟩
      exact ⟨front, ⟨_, artifact_mem_files listed, rest, more, split⟩, rfl⟩
    · obtain rfl := List.mem_singleton.mp file
      exact creates.elim
  · simp only [List.mem_cons, List.not_mem_nil, or_false] at member
    rcases member with rfl | rfl
    · have whole : build.Holds [] := ⟨_, manifest_mem_files build, _, List.cons_ne_nil _ _, rfl⟩
      exact creates.imp_right fun same => ⟨[], whole, same.trans (List.append_nil _).symm⟩
    · exact creates.elim

end Realms.Build
