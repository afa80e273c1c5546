import Realms.Proofs.Output.Loaded
import Realms.Proofs.Output.Writable

/-!
Output that is written once more. Where the output folder holds a build and nothing else, the same build can be
written again, and this leaves every file and folder as it is.
-/
namespace Realms

namespace Build

open FilePath (place through splitParts)

variable {build : Build} {outDir : String} {disk after : Disk}

/-- A disk whose output folder holds a build and nothing else, with nothing next to it, and with a way to both. -/
structure Stands (build : Build) (outDir : String) (disk : Disk) : Prop where
  tree : disk.IsTree
  file : ∀ names content, (names, content) ∈ build.files →
    disk.node? (place disk.here outDir ++ names) = some (.file content)
  folder : ∀ names, build.Holds names → disk.node? (place disk.here outDir ++ names) = some .folder
  other : ∀ names, names ∉ build.files.map Prod.fst → ¬build.Holds names →
    disk.node? (place disk.here outDir ++ names) = none
  gone : ∀ names, disk.node? (place disk.here (stagingOf outDir) ++ names) = none
  replaceable : Replaceable disk.here outDir
  finds : ∃ last, disk.locate (stagingOf outDir) = .ok last
  leads : ∃ last, disk.locate outDir = .ok last

/-- An output folder that was put in its place can be replaced, if its way does not lead through the folder next to
it. -/
theorem replaceable_of_rename (tree : disk.IsTree) (moves : disk.rename (stagingOf outDir) outDir = .ok after)
    (apart : ¬CrossesStaging disk.here outDir) : Replaceable disk.here outDir := by
  obtain ⟨named, different⟩ := named_of_rename tree moves
  obtain ⟨_, sameWay⟩ := siblings_of_rename tree moves
  obtain ⟨_, free, _⟩ := Disk.rename_eq_ok moves
  obtain ⟨_, starts, _⟩ := bind_eq_ok.mp moves
  refine ⟨named, different, fun spot onWay => ⟨?_, fun within => apart ⟨spot, (sameWay spot).mpr onWay, within⟩⟩⟩
  rintro ⟨rest, rfl⟩
  have holds := (Disk.locate_isOk.mp ⟨_, starts⟩).2.1 _ onWay
  rw [tree.free_below free] at holds
  cases holds

/-- A build that was written on a tree leaves a tree, with names that files can have if there were no others. -/
theorem write_isTree (tree : disk.IsTree) (done : (build.write outDir disk).failed = none) :
    (build.write outDir disk).disk.IsTree ∧ (disk.IsNamed → (build.write outDir disk).disk.IsNamed) := by
  obtain ⟨last, lastTree, lastNamed, _, renames⟩ := write_renames tree done
  obtain ⟨named, different⟩ := named_of_rename lastTree renames
  obtain ⟨folder, name, other, spot, beside, names, _⟩ := siblings named different
  refine ⟨lastTree.rename renames ?_ ?_, fun named => (lastNamed named).rename lastTree renames⟩
  · rw [spot, beside]
    exact fun rest within => siblings_apart names within (List.prefix_append _ rest)
  · rw [spot, beside]
    exact fun within => siblings_apart names (List.prefix_refl _) within

/-- Output that was written stands in its folder with nothing else, if nothing stale could be kept and its way does not
lead through the folder next to it. -/
theorem write_stands {options : BuildOptions} {sources : Sources} (compiles : compile options sources = .ok build)
    (tree : disk.IsTree) (done : (build.write outDir disk).failed = none)
    (fresh : disk.exists? (stagingOf outDir) = true ∨ disk.node? (place disk.here (stagingOf outDir)) = none)
    (apart : ¬CrossesStaging disk.here outDir) : Stands build outDir (build.write outDir disk).disk := by
  obtain ⟨output, exact⟩ := write_output compiles tree done
  have exact := exact fresh
  obtain ⟨afterTree, _⟩ := write_isTree tree done
  obtain ⟨last, lastTree, _, lastHere, renames⟩ := write_renames tree done
  obtain ⟨_, sameWay⟩ := siblings_of_rename lastTree renames
  obtain ⟨_, starts, moves⟩ := bind_eq_ok.mp renames
  have replaceable := replaceable_of_rename lastTree renames (lastHere.symm ▸ apart)
  obtain ⟨nonempty, clean, isFolder, way⟩ := write_way tree done
  have here := write_here build outDir disk
  rw [lastHere] at replaceable sameWay
  have stale (names : Place) (node : FileNode) : ¬Stale outDir disk names node := by
    rintro ⟨absent, stands⟩
    rcases fresh with present | free
    · cases absent.symm.trans present
    · cases (tree.free_below free).symm.trans stands
  have folders {spot : Place} (onWay : spot ∈ through disk.here (stagingOf outDir)) :
      (build.write outDir disk).disk.node? spot = some .folder := by
    have outside : (place disk.here (stagingOf outDir)).isPrefixOf spot = false :=
      Bool.eq_false_iff.mpr fun within => (replaceable.way spot onWay).2 (List.isPrefixOf_iff_prefix.mp within)
    rw [way spot ((sameWay spot).mpr onWay), outside]
    rfl
  refine ⟨afterTree, ?_, ?_, ?_, ?_, ?_, ?_, ?_⟩
  · intro names content listed
    rw [here]
    exact Disk.fileAt?_eq_some.mp ((exact names content).mpr listed)
  · rintro names ⟨⟨_, content⟩, listed, rest, more, rfl⟩
    have file := Disk.fileAt?_eq_some.mp ((exact _ content).mpr listed)
    rw [← List.append_assoc] at file
    rw [here]
    exact afterTree.folder_above more file
  · intro names unlisted unheld
    rw [here]
    cases stands : (build.write outDir disk).disk.node? (place disk.here outDir ++ names) with
    | none => rfl
    | some node =>
        cases node with
        | file content =>
            have listed := (exact names content).mp (Disk.fileAt?_eq_some.mpr stands)
            exact absurd (List.mem_map_of_mem listed) unlisted
        | folder =>
            rcases output.folders names stands with holds | onWay | old
            · exact absurd holds unheld
            · exact absurd ⟨_, onWay, List.prefix_append _ names⟩ apart
            · exact absurd old (stale names .folder)
  · rw [here]
    exact output.gone
  · rwa [here]
  · obtain ⟨stagingName, _, stagingClean⟩ := Disk.locate_isOk.mp ⟨_, starts⟩
    exact Disk.locate_isOk.mpr ⟨stagingName, fun stop onWay => folders (here ▸ onWay), stagingClean⟩
  · refine Disk.locate_of_folder nonempty clean (fun stop onWay => ?_) ?_
    · rw [here] at onWay
      exact folders ((sameWay stop).mp onWay)
    · rw [here]
      exact isFolder

theorem Stands.way (stands : Stands build outDir disk) :
    ∀ spot ∈ through disk.here (stagingOf outDir), disk.node? spot = some .folder :=
  (Disk.locate_isOk.mp stands.finds).2.1

theorem Stands.apart (stands : Stands build outDir disk) : ¬CrossesStaging disk.here outDir := by
  obtain ⟨_, _, _, _, _, _, _, _, sameWay⟩ := siblings stands.replaceable.named stands.replaceable.different
  rintro ⟨spot, onWay, within⟩
  exact (stands.replaceable.way spot ((sameWay spot).mp onWay)).2 within

/-- Two disks on which a build stands are the same in its two folders. -/
theorem Stands.node?_eq {other : Disk} (stands : Stands build outDir disk) (again : Stands build outDir other)
    (here : other.here = disk.here) {spot : Place} (touches : Touches disk.here outDir spot) :
    other.node? spot = disk.node? spot := by
  rcases touches with ⟨names, rfl⟩ | ⟨names, rfl⟩
  · rw [stands.gone, ← here, again.gone]
  · by_cases listed : names ∈ build.files.map Prod.fst
    · obtain ⟨⟨_, content⟩, file, rfl⟩ := List.mem_map.mp listed
      rw [stands.file _ _ file, ← here, again.file _ _ file]
    · by_cases holds : build.Holds names
      · rw [stands.folder names holds, ← here, again.folder names holds]
      · rw [stands.other names listed holds, ← here, again.other names listed holds]

/-- Its files stand on the disk, so none of them is in the way of another one. -/
theorem Stands.writable (stands : Stands build outDir disk) (named : disk.IsNamed) : build.Writable where
  named file listed := named.of_below (stands.file file.1 file.2 listed)
  apart file listed holds := by
    cases (stands.file file.1 file.2 listed).symm.trans (stands.folder file.1 holds)

theorem Stands.receives (stands : Stands build outDir disk) : Receives disk outDir where
  replaceable := stands.replaceable
  finds := stands.finds
  leads := Disk.locate_withoutSlashes stands.leads
  room := by
    have whole := stands.folder [] ⟨_, manifest_mem_files build, _, List.cons_ne_nil _ _, rfl⟩
    have gone := stands.gone []
    rw [List.append_nil] at whole gone
    exact List.forall_mem_cons.mpr ⟨.inr whole, List.forall_mem_singleton.mpr (.inl gone)⟩

/-- Writing a build that stands changes nothing. -/
theorem Stands.write_again {options : BuildOptions} {sources : Sources} (stands : Stands build outDir disk)
    (named : disk.IsNamed) (compiles : compile options sources = .ok build) :
    (build.write outDir disk).failed = none ∧
      ∀ spot, (build.write outDir disk).disk.node? spot = disk.node? spot := by
  have done := (stands.writable named).write_isOk stands.receives stands.tree fun artifact member =>
    artifact_normal compiles member
  have free := stands.gone []
  rw [List.append_nil] at free
  have again := write_stands compiles stands.tree done (.inr free) stands.apart
  obtain ⟨output, _⟩ := write_output compiles stands.tree done
  refine ⟨done, fun spot => ?_⟩
  by_cases touches : Touches disk.here outDir spot
  · exact stands.node?_eq again (write_here build outDir disk) touches
  · obtain ⟨beside, outside⟩ := not_or.mp touches
    rcases output.others spot outside beside with same | ⟨isFree, _, onWay⟩
    · exact same
    · obtain ⟨_, _, _, _, _, _, _, _, sameWay⟩ := siblings stands.replaceable.named stands.replaceable.different
      rw [stands.way spot ((sameWay spot).mp onWay)] at isFree
      cases isFree

end Build

end Realms
