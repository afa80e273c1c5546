import Realms.Proofs.Disk.Ending
import Realms.Proofs.Output.Filling

/-!
Putting output in its place. Until the old output is removed no step reaches it, and once it is removed the
new one can always take its place, provided that the path of the folder names it and that neither the folder
nor the one next to it lies on the way to them.
-/
namespace Realms

namespace Disk

open FilePath (place through)

variable {disk : Disk}

/-- What is there can be found. -/
theorem locate_of_exists {text : String} (present : disk.exists? text = true) :
    ∃ last, disk.locate text = .ok last := by
  unfold exists? find? at present
  cases locates : disk.locate text with
  | ok last => exact ⟨last, rfl⟩
  | error fault =>
      rw [locates] at present
      cases present

end Disk

namespace Build

open FilePath (place through)

variable {build : Build} {outDir : String} {here : Place}

/-- An output folder whose path ends in its name, with another name than the folder next to it, so that
neither of the two lies on the way to them. -/
structure Replaceable (here : Place) (outDir : String) : Prop where
  named : ∃ front name, FilePath.IsFileName name ∧ FilePath.withoutSlashes outDir = FilePath.join front name
  different : place here (stagingOf outDir) ≠ place here outDir
  way : ∀ spot ∈ through here (stagingOf outDir),
    ¬place here outDir <+: spot ∧ ¬place here (stagingOf outDir) <+: spot

/-- The folder next to an output folder has the name of that with another ending. -/
theorem stagingOf_join {front name : String} (isName : FilePath.IsFileName name)
    (ends : FilePath.withoutSlashes outDir = FilePath.join front name) :
    FilePath.IsFileName (FilePath.otherEnding name "staging") ∧
      stagingOf outDir = FilePath.join front (FilePath.otherEnding name "staging") := by
  have isOther : FilePath.IsFileName (FilePath.otherEnding name "staging") :=
    FilePath.isFileName_otherEnding isName (by decide) (by decide)
  exact ⟨isOther, FilePath.withEnding_join isName ends isOther⟩

/-- An output folder whose path ends in its name and the one next to it have one way and different names. -/
theorem siblings (named : ∃ front name, FilePath.IsFileName name ∧
      FilePath.withoutSlashes outDir = FilePath.join front name)
    (different : place here (stagingOf outDir) ≠ place here outDir) : ∃ folder name other,
    place here outDir = folder ++ [name] ∧ place here (stagingOf outDir) = folder ++ [other] ∧ name ≠ other ∧
      stagingOf outDir ≠ "" ∧ FilePath.withoutSlashes outDir ≠ "" ∧
        ∀ spot, spot ∈ through here (FilePath.withoutSlashes outDir) ↔
          spot ∈ through here (stagingOf outDir) := by
  obtain ⟨front, name, isName, ends⟩ := named
  obtain ⟨isOther, staging⟩ := stagingOf_join isName ends
  have spot : place here outDir = place here front ++ [name] := by
    rw [← FilePath.place_withoutSlashes, ends, isName.place_join]
  have next : place here (stagingOf outDir) = place here front ++ [FilePath.otherEnding name "staging"] := by
    rw [staging, isOther.place_join]
  have notEmpty {name : String} (isName : FilePath.IsFileName name) : FilePath.join front name ≠ "" := by
    obtain ⟨folder, _, chars⟩ := FilePath.exists_join front
    intro empty
    have none : (FilePath.join front name).toList = [] := by rw [empty]; rfl
    rw [chars name isName] at none
    exact isName.nonempty (List.append_eq_nil_iff.mp none).2
  refine ⟨_, _, _, spot, next, ?_, staging ▸ notEmpty isOther, ends ▸ notEmpty isName, fun stop => ?_⟩
  · intro same
    exact different (by rw [spot, next, ← same])
  · rw [ends, staging, FilePath.mem_through_join isName, FilePath.mem_through_join isOther]

/-- Nothing lies in both of two folders next to each other. -/
theorem siblings_apart {folder other : Place} {name next : String} (different : name ≠ next)
    (within : folder ++ [name] <+: other) : ¬folder ++ [next] <+: other := by
  intro beside
  have same := (List.prefix_of_prefix_length_le within beside (by simp)).eq_of_length (by simp)
  exact different (List.singleton_inj.mp (List.append_cancel_left same))

theorem Replaceable.apart (replaceable : Replaceable here outDir) {other : Place}
    (within : place here outDir <+: other) : ¬place here (stagingOf outDir) <+: other := by
  obtain ⟨folder, name, next, spot, beside, different, _⟩ := siblings replaceable.named replaceable.different
  rw [spot] at within
  rw [beside]
  exact siblings_apart different within

theorem Replaceable.below (replaceable : Replaceable here outDir) : place here outDir ≠ [] := by
  obtain ⟨_, _, _, spot, _⟩ := siblings replaceable.named replaceable.different
  simp [spot]

/-- The steps before the old output is removed. -/
def stagingSteps (build : Build) (outDir : String) : List DiskStep :=
  [.clear (stagingOf outDir)] ++ build.emission.artifacts.flatMap (artifactSteps (stagingOf outDir)) ++
    [.createFolders (stagingOf outDir)] ++
      [.write (FilePath.join (stagingOf outDir) Manifest.fileName) build.manifest.text]

theorem steps_eq (build : Build) (outDir : String) : build.steps outDir =
    build.stagingSteps outDir ++ [.clear outDir, .rename (stagingOf outDir) outDir] := by
  simp [steps, stagingSteps]

theorem stagingSteps_eq (build : Build) (outDir : String) : build.stagingSteps outDir =
    .clear (stagingOf outDir) :: build.fillingSteps (stagingOf outDir) := by
  simp [stagingSteps, fillingSteps]

/-- Until the old output is removed, the steps reach the folder next to it and the way there. -/
theorem stagingSteps_reach (normal : ∀ artifact ∈ build.emission.artifacts, artifact.path.Normal)
    {step : DiskStep} (member : step ∈ build.stagingSteps outDir) {other : Place}
    (reaches : step.reaches here other) :
    other ∈ through here (stagingOf outDir) ∨ place here (stagingOf outDir) <+: other := by
  rw [stagingSteps_eq] at member
  rcases List.mem_cons.mp member with rfl | member
  · exact .inr reaches
  · rcases DiskStep.reaches_adds (fillingSteps_adds build _ step member) reaches with creates | ⟨content, writes⟩
    · refine (fillingSteps_creates normal member creates).imp_right ?_
      rintro ⟨names, _, same⟩
      exact same ▸ List.prefix_append _ names
    · have listed : (other, content) ∈
          (build.fillingSteps (stagingOf outDir)).flatMap (DiskStep.writes here) :=
        List.mem_flatMap.mpr ⟨step, member, writes⟩
      rw [fillingSteps_writes normal] at listed
      obtain ⟨file, _, same⟩ := List.mem_map.mp listed
      exact .inr ((Prod.mk.inj same).1 ▸ List.prefix_append _ _)

/-- Once everything is written next to it, the folder with the new output can be found. -/
theorem stagingSteps_done {disk staged : Disk} (nonempty : stagingOf outDir ≠ "")
    (way : ∀ spot ∈ through disk.here (stagingOf outDir), ¬place disk.here (stagingOf outDir) <+: spot)
    (done : (DiskStep.makeAll (build.stagingSteps outDir) disk).failed = none)
    (makes : (DiskStep.makeAll (build.stagingSteps outDir) disk).disk = staged) :
    (∃ last, staged.locate (stagingOf outDir) = .ok last) ∧
      staged.node? (place disk.here (stagingOf outDir)) = some .folder := by
  obtain ⟨last, here, writes⟩ := DiskStep.makeAll_last done
  have isName : FilePath.IsFileName Manifest.fileName := FilePath.isFileName_of_name (by decide)
  obtain ⟨found, locates, _⟩ := bind_eq_ok.mp writes
  obtain ⟨finds, folder⟩ := Disk.locate_of_join isName nonempty ⟨found, locates⟩
  obtain ⟨_, folders, clean⟩ := Disk.locate_isOk.mp finds
  -- the manifest is written below the folder, so the way to the folder is as it was
  have leaves := DiskStep.make_leaves writes
  rw [← stagingSteps, makes] at leaves
  have kept (spot : Place) (outside : spot ≠ place disk.here (stagingOf outDir) ++ [Manifest.fileName]) :
      staged.node? spot = last.node? spot := by
    refine leaves.nodes spot fun written => outside ?_
    rw [← place_manifest, ← here]
    exact written
  rw [here] at folder folders
  refine ⟨Disk.locate_isOk.mpr ⟨nonempty, fun stop member => ?_, clean⟩, ?_⟩
  · rw [leaves.here, here] at member
    rw [kept stop fun same => way stop member (same ▸ List.prefix_append _ _), folders stop member]
  · rw [kept _ (by simp), folder]

/-- What was filled can take the place of the old output once that is cleared. -/
theorem rename_of_cleared {staged cleared : Disk} (replaceable : Replaceable staged.here outDir)
    (finds : ∃ last, staged.locate (stagingOf outDir) = .ok last)
    (folder : staged.node? (place staged.here (stagingOf outDir)) = some .folder)
    (leads : ∃ last, staged.locate (FilePath.withoutSlashes outDir) = .ok last)
    (clears : (DiskStep.clear outDir).make staged = .ok cleared)
    (free : cleared.node? (place staged.here outDir) = none) :
    ∃ after, cleared.rename (stagingOf outDir) outDir = .ok after := by
  obtain ⟨_, _, _, _, _, _, _, named, sameWay⟩ := siblings replaceable.named replaceable.different
  have leaves := DiskStep.make_leaves clears
  have stays (stop : Place) (onWay : stop ∈ through staged.here (stagingOf outDir)) :
      cleared.node? stop = staged.node? stop := leaves.nodes stop (replaceable.way stop onWay).1
  obtain ⟨nonempty, way, clean⟩ := Disk.locate_isOk.mp finds
  have start : ∃ last, cleared.locate (stagingOf outDir) = .ok last := by
    refine Disk.locate_isOk.mpr ⟨nonempty, fun stop onWay => ?_, clean⟩
    rw [leaves.here] at onWay
    rw [stays stop onWay, way stop onWay]
  have goal : ∃ last, cleared.locate (FilePath.withoutSlashes outDir) = .ok last := by
    obtain ⟨_, _, clean⟩ := Disk.locate_isOk.mp leads
    refine Disk.locate_isOk.mpr ⟨named, fun stop onWay => ?_, clean⟩
    rw [leaves.here] at onWay
    have other := (sameWay stop).mp onWay
    rw [stays stop other, way stop other]
  have isFolder : cleared.node? (place cleared.here (stagingOf outDir)) = some .folder := by
    have outside : ¬place staged.here outDir <+: place staged.here (stagingOf outDir) := by
      intro within
      exact replaceable.apart within (List.prefix_refl _)
    rw [leaves.here, leaves.nodes _ outside, folder]
  exact Disk.rename_isOk start goal isFolder (leaves.here ▸ free)

/-- The new output takes the place of the old one, or neither is touched: where the old one can be removed,
the new one can be moved. -/
theorem replace_fails {staged : Disk} (replaceable : Replaceable staged.here outDir)
    (finds : ∃ last, staged.locate (stagingOf outDir) = .ok last)
    (folder : staged.node? (place staged.here (stagingOf outDir)) = some .folder)
    (fails : (DiskStep.makeAll [.clear outDir, .rename (stagingOf outDir) outDir] staged).failed ≠ none) :
    (DiskStep.makeAll [.clear outDir, .rename (stagingOf outDir) outDir] staged).disk = staged := by
  rw [DiskStep.makeAll] at fails ⊢
  cases clears : (DiskStep.clear outDir).make staged with
  | error fault => rfl
  | ok cleared =>
      rw [clears] at fails
      dsimp only at fails ⊢
      rw [DiskStep.makeAll] at fails ⊢
      cases renames : (DiskStep.rename (stagingOf outDir) outDir).make cleared with
      | ok after =>
          rw [renames] at fails
          exact absurd rfl fails
      | error fault =>
          dsimp only
          by_cases present : staged.exists? outDir = true
          · have leads := Disk.locate_withoutSlashes (Disk.locate_of_exists present)
            have removes := clears
            rw [DiskStep.make, if_pos present] at removes
            have free := Disk.removeFolder_node? removes (List.prefix_refl _) replaceable.below
            obtain ⟨after, moves⟩ := rename_of_cleared replaceable finds folder leads clears free
            rw [DiskStep.make, moves] at renames
            cases renames
          · rw [DiskStep.make, if_neg present] at clears
            exact (Except.ok.inj clears).symm

/-- A build that cannot be written leaves the output folder as it was. -/
theorem write_fails {disk : Disk} (normal : ∀ artifact ∈ build.emission.artifacts, artifact.path.Normal)
    (replaceable : Replaceable disk.here outDir) (fails : (build.write outDir disk).failed ≠ none)
    {other : Place} (within : place disk.here outDir <+: other) :
    (build.write outDir disk).disk.node? other = disk.node? other := by
  have leaves : disk.Leaves (fun other => other ∈ through disk.here (stagingOf outDir) ∨
      place disk.here (stagingOf outDir) <+: other)
      (DiskStep.makeAll (build.stagingSteps outDir) disk).disk :=
    DiskStep.makeAll_leaves fun step member other => stagingSteps_reach normal member
  have outside : ¬(other ∈ through disk.here (stagingOf outDir) ∨
      place disk.here (stagingOf outDir) <+: other) := by
    rintro (onWay | below)
    · exact (replaceable.way other onWay).1 within
    · exact replaceable.apart within below
  have kept := leaves.nodes other outside
  rw [write, steps_eq] at fails ⊢
  by_cases done : (DiskStep.makeAll (build.stagingSteps outDir) disk).failed = none
  · obtain ⟨disk_eq, failed_eq⟩ :=
      DiskStep.makeAll_append done [.clear outDir, .rename (stagingOf outDir) outDir]
    obtain ⟨_, _, _, _, _, _, nonempty, _⟩ := siblings replaceable.named replaceable.different
    obtain ⟨finds, folder⟩ := stagingSteps_done nonempty (fun spot onWay => (replaceable.way spot onWay).2) done rfl
    rw [← leaves.here] at replaceable folder
    rw [failed_eq] at fails
    rw [disk_eq, replace_fails replaceable finds folder fails, kept]
  · rw [DiskStep.makeAll_append_failed done, kept]

/-- An output folder that is the one next to it is never written. -/
theorem write_ownStaging {disk : Disk} (same : place disk.here (stagingOf outDir) = place disk.here outDir) :
    (build.write outDir disk).failed ≠ none := by
  intro done
  obtain ⟨front, all⟩ := steps_last build outDir
  rw [write, all] at done
  obtain ⟨last, here, renames⟩ := DiskStep.makeAll_last done
  obtain ⟨folder, free, _⟩ := Disk.rename_eq_ok renames
  rw [here, same] at folder
  rw [here, folder] at free
  cases free

theorem written_eq_error {progress : DiskProgress} :
    (∃ e, written outDir progress = .error e) ↔ progress.failed ≠ none := by
  unfold written
  cases progress.failed <;> simp

/-- Output that cannot be written leaves its folder, with all that is in it, as it was, if the folder can be
replaced. A folder that is the one next to it is never written. -/
theorem compile_written {options : BuildOptions} {sources : Sources} {disk : Disk}
    (compiles : compile options sources = .ok build) :
    (Replaceable disk.here outDir → ∀ e, written outDir (build.write outDir disk) = .error e →
        ∀ other, place disk.here outDir <+: other →
          (build.write outDir disk).disk.node? other = disk.node? other) ∧
      (place disk.here (stagingOf outDir) = place disk.here outDir →
        ∃ e, written outDir (build.write outDir disk) = .error e) := by
  have normal : ∀ artifact ∈ build.emission.artifacts, artifact.path.Normal := fun artifact member =>
    artifact_normal compiles member
  refine ⟨fun replaceable e fails other within => ?_, fun same => ?_⟩
  · exact write_fails normal replaceable (written_eq_error.mp ⟨e, fails⟩) within
  · exact written_eq_error.mpr (write_ownStaging same)

/-- A project of one page. -/
def onePage : Sources := .ofTexts [(⟨"page.js"⟩, "export const page = 1;\n")]

def onePageOptions : BuildOptions := ⟨".", ["page.js"], [], .standard⟩

/-- A file stands where the output is to be put, so the old output cannot be removed. -/
def blockedOutput : Disk where
  nodes := [(["work"], .folder), (["work", "dist"], .file (Text.bytesOf "kept"))]
  here := ["work"]

theorem blockedOutput_kept : ∃ build e, compile onePageOptions onePage = .ok build ∧
    Replaceable ["work"] "dist" ∧ written "dist" (build.write "dist" blockedOutput) = .error e ∧
      (build.write "dist" blockedOutput).disk.node? ["work", "dist"] =
        some (.file (Text.bytesOf "kept")) := by
  have runs : ((compile onePageOptions onePage).toOption.map fun build =>
      (build.write "dist" blockedOutput).failed.isSome) = some true := by decide +kernel
  have replaceable : Replaceable ["work"] "dist" := by
    refine ⟨⟨"", "dist", ⟨by unfold FilePath.IsPlain; decide, by decide⟩, by decide⟩, by decide, by decide⟩
  obtain ⟨build, compiles, fails⟩ := exists_of_toOption runs
  obtain ⟨e, error⟩ := written_eq_error.mpr (Option.isSome_iff_ne_none.mp fails)
  exact ⟨build, e, compiles, replaceable, error,
    (compile_written compiles).1 replaceable e error ["work", "dist"] (by decide)⟩

/-- Old output in a folder with the ending of those that are written first. -/
def stagedOutput : Disk where
  nodes := [
    (["work"], .folder),
    (["work", "app.staging"], .folder),
    (["work", "app.staging", "old.js"], .file (Text.bytesOf "old"))]
  here := ["work"]

/-- The build cannot be written there, and the old output is gone. -/
theorem stagedOutput_lost : ∃ build e, compile onePageOptions onePage = .ok build ∧
    written "app.staging" (build.write "app.staging" stagedOutput) = .error e ∧
      place ["work"] "app.staging" <+: ["work", "app.staging", "old.js"] ∧
        stagedOutput.node? ["work", "app.staging", "old.js"] = some (.file (Text.bytesOf "old")) ∧
          (build.write "app.staging" stagedOutput).disk.node? ["work", "app.staging", "old.js"] = none := by
  have runs : ((compile onePageOptions onePage).toOption.map fun build =>
      ((build.write "app.staging" stagedOutput).failed.isSome,
        (build.write "app.staging" stagedOutput).disk.node? ["work", "app.staging", "old.js"])) =
          some (true, none) := by decide +kernel
  obtain ⟨build, compiles, found⟩ := exists_of_toOption runs
  obtain ⟨fails, gone⟩ := Prod.mk.inj found
  obtain ⟨e, error⟩ := written_eq_error.mpr (Option.isSome_iff_ne_none.mp fails)
  exact ⟨build, e, compiles, error, by decide, rfl, gone⟩

end Build
end Realms
