import Realms.Proofs.Disk.Created
import Realms.Proofs.Json.Record
import Realms.Proofs.Output.Written

/-!
Manifests that are loaded again. The text of a manifest is read as the manifest, whatever stands in its texts, and
after a build was written that text stands in its output folder. It is found there unless the path to the output folder
leads through the folder next to it, which is gone by then.
-/
namespace Realms

theorem Target.ofName?_name (target : Target) : ofName? target.name = some target := by
  cases target <;> decide

theorem Role.ofName?_name (role : Role) : ofName? role.name = some role := by
  cases role <;> decide

theorem Realm.ofName?_name (realm : Realm) : ofName? realm.name = some realm := by
  cases realm <;> decide

namespace Exchange

open Json

namespace Shape

theorem path_path (p : ModulePath) : path (Exchange.path p) = some p := rfl

theorem reference_reference (r : Reference) : reference (Exchange.reference r) = some r := by
  have realm : realm (Exchange.realm r.realm) = some r.realm := Realm.ofName?_name r.realm
  simp [reference, Exchange.reference, fields, fieldsLeaving, required, isRepeated, Value.get?, realm, path_path, text,
    Value.text?]

theorem manifestArtifact_manifestArtifact (a : ManifestArtifact) :
    manifestArtifact (Exchange.manifestArtifact a) = some a := by
  simp [manifestArtifact, Exchange.manifestArtifact, fields, fieldsLeaving, required, isRepeated, Value.get?, path_path,
    text, Value.text?, named, Target.ofName?_name, Role.ofName?_name]

theorem manifest_manifest (m : Manifest) : manifest (Exchange.manifest m) = some m := by
  have paths : list path (Exchange.paths m.shared) = some m.shared := list_map fun p _ => path_path p
  have artifacts := list_map fun a (_ : a ∈ m.artifacts) => manifestArtifact_manifestArtifact a
  have clients := list_map fun r (_ : r ∈ m.clientReferences) => reference_reference r
  have servers := list_map fun r (_ : r ∈ m.serverFunctions) => reference_reference r
  simp [manifest, Exchange.manifest, fields, fieldsLeaving, required, isRepeated, Value.get?, text, Value.text?,
    artifacts, clients, servers, paths]

end Shape

end Exchange

namespace Manifest

open Json

theorem reference_fits (levels : Nat) (r : Reference) : Layout.Fits (levels + 1) (.record
    [("id", true, .text), ("realm", true, .any), ("exportName", true, .text), ("modulePath", true, .text)])
      (Exchange.reference r) := by
  refine .record rfl (by simp) ?_
  simp [Exchange.realm, Exchange.path, Layout.Fits.text, Layout.Fits.any]

theorem artifact_fits (levels : Nat) (a : ManifestArtifact) : Layout.Fits (levels + 1) (.record
    [("path", true, .text), ("target", true, .any), ("role", true, .any), ("hash", true, .text)])
      (Exchange.manifestArtifact a) := by
  refine .record rfl (by simp) ?_
  simp [Exchange.path, Layout.Fits.text, Layout.Fits.any]

theorem layout_fits (levels : Nat) (manifest : Manifest) :
    Layout.Fits (levels + 3) (.record layout) (Exchange.manifest manifest) := by
  have artifacts : Layout.Fits (levels + 2) _ (.list (manifest.artifacts.map Exchange.manifestArtifact)) :=
    .list (List.forall_mem_map.mpr fun a _ => artifact_fits levels a)
  have references (listed : List Reference) : Layout.Fits (levels + 2) _ (.list (listed.map Exchange.reference)) :=
    .list (List.forall_mem_map.mpr fun r _ => reference_fits levels r)
  have shared : Layout.Fits (levels + 2) (.list .text) (Exchange.paths manifest.shared) :=
    .list (List.forall_mem_map.mpr fun p _ => .text p.text)
  refine .record rfl (by simp) ?_
  simp [layout, Layout.Fits.text, artifacts, references, shared]

/-- The text of a manifest is read as the manifest. -/
theorem ofText?_text (manifest : Manifest) : ofText? manifest.text = some manifest := by
  rw [ofText?, text, (layout_fits 124 manifest).readRecord_pretty]
  exact Exchange.Shape.manifest_manifest manifest

end Manifest

theorem DiskStep.makeAll_here (steps : List DiskStep) (disk : Disk) : (makeAll steps disk).disk.here = disk.here :=
  have keeps : Disk.Keeps (fun _ => True) disk (makeAll steps disk).disk := makeAll_keeps fun _ _ _ _ => trivial
  keeps.here

namespace Build

open FilePath (place through splitParts)

variable {build : Build} {outDir : String} {disk : Disk}

/-- The path to the output folder leads through the folder next to it. -/
def CrossesStaging (here : Place) (outDir : String) : Prop :=
  ∃ spot ∈ through here (FilePath.withoutSlashes outDir), place here (stagingOf outDir) <+: spot

theorem write_here (build : Build) (outDir : String) (disk : Disk) : (build.write outDir disk).disk.here = disk.here := by
  rw [write]
  exact DiskStep.makeAll_here _ disk

/-- The last step of a build that was written, on a tree. -/
theorem write_renames (tree : disk.IsTree) (done : (build.write outDir disk).failed = none) :
    ∃ last : Disk, last.IsTree ∧ (disk.IsNamed → last.IsNamed) ∧ last.here = disk.here ∧
      last.rename (stagingOf outDir) outDir = .ok (build.write outDir disk).disk := by
  have split : build.steps outDir = (build.stagingSteps outDir ++ [.clear outDir]) ++
      [.rename (stagingOf outDir) outDir] := by
    rw [steps_eq, List.append_assoc]
    rfl
  have stay : ∀ source target, .rename source target ∉ build.stagingSteps outDir ++ [.clear outDir] := by
    intro source target listed
    rw [stagingSteps_eq] at listed
    rcases List.mem_append.mp listed with staged | cleared
    · rcases List.mem_cons.mp staged with same | fills
      · cases same
      · exact fillingSteps_adds build _ _ fills
    · cases List.mem_singleton.mp cleared
  rw [write, split] at done ⊢
  obtain ⟨_, done, disk_eq⟩ := DiskStep.makeAll_append_done done
  obtain ⟨after, renames, _, last_eq⟩ := DiskStep.makeAll_cons_done done
  rw [disk_eq, last_eq]
  exact ⟨_, DiskStep.makeAll_isTree tree stay, fun named => DiskStep.makeAll_isNamed tree named stay,
    DiskStep.makeAll_here _ disk, renames⟩

/-- When a build was written, the way to its output folder is made of folders, apart from what lay in the folder next
to it. -/
theorem write_way (tree : disk.IsTree) (done : (build.write outDir disk).failed = none) :
    outDir ≠ "" ∧ (∀ part ∈ splitParts outDir, '\x00' ∉ part.toList) ∧
      (build.write outDir disk).disk.node? (place disk.here outDir) = some .folder ∧
      ∀ spot ∈ through disk.here (FilePath.withoutSlashes outDir), (build.write outDir disk).disk.node? spot =
        if (place disk.here (stagingOf outDir)).isPrefixOf spot then none else some .folder := by
  obtain ⟨last, tree, _, here, renames⟩ := write_renames tree done
  have leads := Disk.rename_leads renames
  have nonempty : outDir ≠ "" := by
    rintro rfl
    have nowhere : last.locate (FilePath.withoutSlashes "") = .error .notFound := rfl
    cases nowhere.symm.trans leads
  obtain ⟨folder, free, _⟩ := Disk.rename_eq_ok renames
  obtain ⟨apart, _⟩ := siblings_of_rename tree renames
  have moved := Disk.rename_node? tree renames apart
  have rests := Disk.rename_leaves renames
  obtain ⟨_, way, clean⟩ := Disk.locate_isOk.mp ⟨_, leads⟩
  rw [here] at folder free moved rests way
  refine ⟨nonempty, fun part listed => ?_, ?_, fun spot onWay => ?_⟩
  · rcases (FilePath.withoutSlashes_way disk.here nonempty).2.2.2 part listed with listed | rfl
    · exact clean part listed
    · simp
  · have own := (moved []).1
    rwa [List.append_nil, List.append_nil, folder] at own
  · split
    · rename_i within
      obtain ⟨names, rfl⟩ := List.isPrefixOf_iff_prefix.mp within
      exact (moved names).2
    · rename_i beside
      rw [rests.nodes spot, way spot onWay]
      rintro (within | within)
      · exact beside (List.isPrefixOf_iff_prefix.mpr within)
      · obtain ⟨names, rfl⟩ := within
        cases (tree.free_below free).symm.trans (way _ onWay)

theorem fileName_isFileName : FilePath.IsFileName Manifest.fileName := FilePath.isFileName_of_name (by decide)

/-- The path to the manifest of a build that was written leads through the way to its folder and that folder. -/
theorem manifest_way (tree : disk.IsTree) (done : (build.write outDir disk).failed = none) :
    FilePath.join outDir Manifest.fileName ≠ "" ∧
      (∀ part ∈ splitParts (FilePath.join outDir Manifest.fileName), '\x00' ∉ part.toList) ∧
      ∀ spot ∈ through disk.here (FilePath.join outDir Manifest.fileName),
        (build.write outDir disk).disk.node? spot = some .folder ∨
          (build.write outDir disk).disk.node? spot = none ∧ CrossesStaging disk.here outDir := by
  obtain ⟨nonempty, clean, folder, way⟩ := write_way tree done
  have listed {part : String} (notEmpty : part ≠ "") :=
    @FilePath.mem_splitParts_join outDir _ part fileName_isFileName notEmpty
  refine ⟨fun empty => ?_, fun part isPart => ?_, fun spot onWay => ?_⟩
  · have own := (listed (by decide)).mpr (.inr rfl)
    rw [empty] at own
    revert own
    decide
  · by_cases isEmpty : part = ""
    · simp [isEmpty]
    · rcases (listed isEmpty).mp isPart with front | rfl
      · exact clean part front
      · decide
  · rcases (FilePath.mem_through_join fileName_isFileName).mp onWay with onWay | rfl
    · rcases (FilePath.withoutSlashes_way disk.here nonempty).2.2.1 spot onWay with onWay | rfl
      · have stands := way spot onWay
        split at stands
        · rename_i within
          exact .inr ⟨stands, spot, onWay, List.isPrefixOf_iff_prefix.mp within⟩
        · exact .inl stands
      · exact .inl folder
    · exact .inl folder

theorem written_eq_ok {progress : DiskProgress} {file : String} (h : written outDir progress = .ok file) :
    progress.failed = none ∧ file = FilePath.join outDir Manifest.fileName := by
  unfold written at h
  split at h
  · rename_i none
    exact ⟨none, (Except.ok.inj h).symm⟩
  · cases h

/-- A manifest is not found where the path to it leads through the folder that was moved away. -/
theorem load_of_crosses (tree : disk.IsTree) (done : (build.write outDir disk).failed = none)
    (crosses : CrossesStaging disk.here outDir) :
    Manifest.load (build.write outDir disk).disk (FilePath.join outDir Manifest.fileName) =
      .error (.atFile (.manifestUnreadable FileFault.notFound.message) (FilePath.join outDir Manifest.fileName)) := by
  obtain ⟨nonempty, clean, way⟩ := manifest_way tree done
  have missing : (build.write outDir disk).disk.locate (FilePath.join outDir Manifest.fileName) =
      .error .notFound := by
    obtain ⟨spot, onWay, within⟩ := crosses
    obtain ⟨isPath, _, _, shortWay⟩ := write_way tree done
    have gone := shortWay spot onWay
    rw [if_pos (List.isPrefixOf_iff_prefix.mpr within)] at gone
    refine Disk.locate_notFound nonempty (fun stop onWay => ?_) ⟨spot, ?_, gone⟩ clean
    · rw [write_here] at onWay
      exact (way stop onWay).imp_right And.left
    · rw [write_here]
      exact (FilePath.mem_through_join fileName_isFileName).mpr
        (.inl ((FilePath.withoutSlashes_way disk.here isPath).2.1 onWay))
  simp [Manifest.load, Disk.read, missing, bind, Except.bind]

/-- The manifest of a build that was written is loaded as it is, unless the path to the output folder leads through
the folder next to it. It is not found then. -/
theorem compile_loaded {options : BuildOptions} {sources : Sources} {file : String}
    (compiles : compile options sources = .ok build) (tree : disk.IsTree)
    (done : written outDir (build.write outDir disk) = .ok file) :
    (¬CrossesStaging disk.here outDir →
        Manifest.load (build.write outDir disk).disk file = .ok build.manifest) ∧
      (CrossesStaging disk.here outDir → Manifest.load (build.write outDir disk).disk file =
        .error (.atFile (.manifestUnreadable FileFault.notFound.message) file)) := by
  obtain ⟨finished, rfl⟩ := written_eq_ok done
  obtain ⟨nonempty, clean, way⟩ := manifest_way tree finished
  have here := write_here build outDir disk
  refine ⟨fun apart => ?_, load_of_crosses tree finished⟩
  obtain ⟨_, _, passes⟩ := write_passes compiles tree finished
  have file : (build.write outDir disk).disk.node? (place disk.here outDir ++ [Manifest.fileName]) =
      some (.file (Text.bytesOf build.manifest.text)) :=
    Disk.fileAt?_eq_some.mp (passes.fileAt?_output.mpr (.inl (manifest_mem_files build)))
  have locates : (build.write outDir disk).disk.locate (FilePath.join outDir Manifest.fileName) =
      .ok (place disk.here outDir ++ [Manifest.fileName]) := by
    rw [Disk.locate_eq_place (Disk.locate_isOk.mpr ⟨nonempty, fun spot onWay => ?_, clean⟩), here, place_manifest]
    rw [here] at onWay
    exact (way spot onWay).resolve_right fun missing => apart missing.2
  have reads : (build.write outDir disk).disk.read (FilePath.join outDir Manifest.fileName) =
      .ok build.manifest.text := by
    simp [Disk.read, locates, file, Text.bytesOf, Text.decode?_encode, bind, Except.bind]
  rw [Manifest.load, reads]
  simp [Manifest.ofText?_text]

/-- A page for the client, whose path is not written as it stands. -/
def quotedPage : Sources := .ofTexts [(⟨"\"\né.js"⟩, "'use client'; export const a = 1")]

def quotedPageOptions : BuildOptions := ⟨".", ["\"\né.js"], [], .standard⟩

theorem quotedPage_loaded : ∃ build, compile quotedPageOptions quotedPage = .ok build ∧ oldOutput.IsTree ∧
    written "dist" (build.write "dist" oldOutput) = .ok "dist/manifest.json" ∧
      ¬CrossesStaging oldOutput.here "dist" ∧
        build.manifest.clientReferences.map Reference.id = ["\"\né.js#a"] ∧
          Manifest.load (build.write "dist" oldOutput).disk "dist/manifest.json" = .ok build.manifest := by
  have tree : oldOutput.IsTree := Disk.isTree_of_all (by decide) (by decide)
  have looks : ((compile quotedPageOptions quotedPage).toOption.map fun build =>
      (build.files.map Prod.fst, build.manifest.clientReferences.map Reference.id)) =
        some ([["server", "\"\né.js"], ["client", "\"\né.js"], ["manifest.json"]], ["\"\né.js#a"]) := by decide +kernel
  obtain ⟨build, compiles, found⟩ := exists_of_toOption looks
  obtain ⟨files, references⟩ := Prod.mk.inj found
  have finished := (writable_of_places files (by decide) (by decide)).write_isOk oldOutput_receives tree
    fun artifact member => artifact_normal compiles member
  have done : written "dist" (build.write "dist" oldOutput) = .ok "dist/manifest.json" := by
    rw [written, finished]
    rfl
  have apart : ¬CrossesStaging oldOutput.here "dist" := by
    unfold CrossesStaging
    decide
  exact ⟨build, compiles, tree, done, apart, references, (compile_loaded compiles tree done).1 apart⟩

/-- A folder without anything in it. -/
def emptyFolder : Disk := ⟨[(["work"], .folder)], ["work"]⟩

/-- The path leads through the folder that is written first and moved away at the end. -/
theorem movedWay_unreadable : ∃ build, compile onePageOptions onePage = .ok build ∧ emptyFolder.IsTree ∧
    written "x.staging/../x" (build.write "x.staging/../x" emptyFolder) = .ok "x.staging/../x/manifest.json" ∧
      Manifest.load (build.write "x.staging/../x" emptyFolder).disk "x.staging/../x/manifest.json" ≠
        .ok build.manifest := by
  have tree : emptyFolder.IsTree := Disk.isTree_of_all (by decide) (by decide)
  have runs : ((compile onePageOptions onePage).toOption.map fun build =>
      (build.write "x.staging/../x" emptyFolder).failed) = some none := by decide +kernel
  obtain ⟨build, compiles, done⟩ := exists_of_toOption runs
  have crosses : CrossesStaging emptyFolder.here "x.staging/../x" := by
    unfold CrossesStaging
    decide
  have file : FilePath.join "x.staging/../x" Manifest.fileName = "x.staging/../x/manifest.json" := by decide
  refine ⟨build, compiles, tree, ?_, fun loaded => ?_⟩
  · rw [written, done, file]
  · rw [← file, load_of_crosses tree done crosses] at loaded
    cases loaded

end Build
end Realms
