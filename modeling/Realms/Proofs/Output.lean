import Realms.Output
import Realms.Proofs.Disk.Keeps
import Realms.Proofs.Emission.Emittable

/-!
Writing a build. All files are written below the folder next to the output folder, so the steps touch
nothing but these two.
-/
namespace Realms.Build

open FilePath (place)

variable {build : Build} {outDir : String} {here : Place}

/-- Where a build may touch files: its output folder and the one next to it. -/
def Touches (here : Place) (outDir : String) (other : Place) : Prop :=
  place here (stagingOf outDir) <+: other ∨ place here outDir <+: other

theorem target_name_isName (target : Target) : ModulePath.IsName target.name.toList := by
  cases target <;> decide

theorem place_artifactFile {artifact : Artifact} (normal : artifact.path.Normal) (folder : String) :
    place here (artifactFile folder artifact) =
      place here folder ++ artifact.target.name :: FilePath.splitParts artifact.path.text := by
  rw [artifactFile, FilePath.place_ofModule normal, FilePath.place_joinName (target_name_isName _),
    List.append_assoc]
  rfl

theorem place_manifest (folder : String) :
    place here (FilePath.join folder Manifest.fileName) = place here folder ++ [Manifest.fileName] :=
  FilePath.place_joinName (by decide)

/-- Each step clears one of the two folders, creates a folder, writes a file of the build or puts the output
in its place. -/
theorem steps_cases {step : DiskStep} (member : step ∈ build.steps outDir) :
    step = .clear (stagingOf outDir) ∨ step = .clear outDir ∨ (∃ folder, step = .createFolders folder) ∨
      (∃ artifact ∈ build.emission.artifacts,
        step = .write (artifactFile (stagingOf outDir) artifact) artifact.code) ∨
      step = .write (FilePath.join (stagingOf outDir) Manifest.fileName) build.manifest.text ∨
        step = .rename (stagingOf outDir) outDir := by
  simp only [steps, List.mem_append, List.mem_flatMap, List.mem_cons, List.not_mem_nil,
    or_false] at member
  rcases member with (clears | ⟨artifact, listed, own⟩) | creates | writes | clears | renames
  · exact .inl clears
  · rw [artifactSteps] at own
    rcases List.mem_append.mp own with folder | file
    · rw [Option.mem_toList, Option.map_eq_some_iff] at folder
      obtain ⟨parent, _, rfl⟩ := folder
      exact .inr (.inr (.inl ⟨parent, rfl⟩))
    · exact .inr (.inr (.inr (.inl ⟨artifact, listed, List.mem_singleton.mp file⟩)))
  · exact .inr (.inr (.inl ⟨_, creates⟩))
  · exact .inr (.inr (.inr (.inr (.inl writes))))
  · exact .inr (.inl clears)
  · exact .inr (.inr (.inr (.inr (.inr renames))))

/-- The steps that write a build touch no file outside its two folders. -/
theorem steps_confined (normal : ∀ artifact ∈ build.emission.artifacts, artifact.path.Normal) :
    ∀ step ∈ build.steps outDir, ∀ other, step.touches here other → Touches here outDir other := by
  intro step member other touches
  rcases steps_cases member with rfl | rfl | ⟨folder, rfl⟩ | ⟨artifact, listed, rfl⟩ | rfl | rfl
  · exact .inl touches
  · exact .inr touches
  · exact touches.elim
  · rw [DiskStep.touches, place_artifactFile (normal artifact listed)] at touches
    exact .inl (touches ▸ List.prefix_append _ _)
  · rw [DiskStep.touches, place_manifest] at touches
    exact .inl (touches ▸ List.prefix_append _ _)
  · exact touches

theorem rename_target {source target : String} (member : .rename source target ∈ build.steps outDir) :
    target = outDir := by
  rcases steps_cases member with same | same | ⟨_, same⟩ | ⟨_, _, same⟩ | same | same
  · cases same
  · cases same
  · cases same
  · cases same
  · cases same
  · exact (DiskStep.rename.inj same).2

theorem write_keeps (normal : ∀ artifact ∈ build.emission.artifacts, artifact.path.Normal) (disk : Disk) :
    disk.Keeps (Touches disk.here outDir) (build.write outDir disk).disk :=
  DiskStep.makeAll_keeps (steps_confined normal)

theorem steps_last (build : Build) (outDir : String) : ∃ front,
    build.steps outDir = front ++ [.rename (stagingOf outDir) outDir] :=
  ⟨_, (List.append_assoc _ [_, _, _] [_]).symm⟩

/-- Once a build is written, nothing is left in the folder next to its output. -/
theorem write_moves {disk : Disk} {other : Place} (done : (build.write outDir disk).failed = none)
    (within : place disk.here (stagingOf outDir) <+: other) (outside : ¬place disk.here outDir <+: other) :
    (build.write outDir disk).disk.fileAt? other = none := by
  obtain ⟨front, all⟩ := steps_last build outDir
  rw [write, all] at done ⊢
  obtain ⟨last, here, renames⟩ := DiskStep.makeAll_last done
  rw [← here] at within outside
  exact Disk.rename_clears renames within outside

/-- A build that has made a step has removed what was in the folder next to its output, so a file that is
there is one that the build wrote. -/
theorem write_fileAt? {disk : Disk} {other : Place} {content : List UInt8}
    (present : disk.exists? (stagingOf outDir) = true) (started : (build.write outDir disk).made ≠ [])
    (within : place disk.here (stagingOf outDir) <+: other) (outside : ¬place disk.here outDir <+: other)
    (file : (build.write outDir disk).disk.fileAt? other = some content) :
    ∃ written text, .write written text ∈ (build.write outDir disk).made ∧
      other = place disk.here written ∧ content = Text.bytesOf text := by
  obtain ⟨rest, all⟩ : ∃ rest, build.steps outDir = .clear (stagingOf outDir) :: rest := ⟨_, rfl⟩
  have apart : ∀ source target, .rename source target ∈ rest → ¬place disk.here target <+: other := by
    intro source target later
    have member : .rename source target ∈ build.steps outDir := all ▸ List.mem_cons_of_mem _ later
    exact rename_target member ▸ outside
  rw [write, all, DiskStep.makeAll] at started file ⊢
  cases makes : (DiskStep.clear (stagingOf outDir)).make disk with
  | error fault =>
      rw [makes] at started
      exact absurd rfl started
  | ok next =>
      rw [makes] at file
      have here := (DiskStep.make_keeps makes).here
      have cleared : next.fileAt? other = none := by
        rw [DiskStep.make, if_pos present] at makes
        exact Disk.removeFolder_clears makes within
      rcases DiskStep.makeAll_fileAt? (here ▸ apart) file with before | ⟨written, text, later, spot, same⟩
      · rw [cleared] at before
        cases before
      · exact ⟨written, text, List.mem_cons_of_mem _ later, here ▸ spot, same⟩

end Realms.Build
