import Realms.Proofs.Disk.Created
import Realms.Proofs.Output.Replaced

/-!
Builds that can be written. Where the ways to the output folder and to the one next to it are there, and no file is at
their places, a build is written if none of its files is in the way of another one: the steps put one file after another
into the folder next to the output folder, and nothing but files of the build and the folders that hold them is there on
the way.
-/
namespace Realms

open FilePath (place through splitParts)

namespace DiskStep

/-- Groups of steps that can each be made on any disk of a kind, and leave one of that kind, can all be made. -/
theorem makeAll_flatMap {α : Type} {kind : Disk → Prop} {group : α → List DiskStep} {items : List α}
    (each : ∀ item ∈ items, ∀ disk, kind disk →
      (makeAll (group item) disk).failed = none ∧ kind (makeAll (group item) disk).disk)
    {disk : Disk} (own : kind disk) :
    (makeAll (items.flatMap group) disk).failed = none ∧ kind (makeAll (items.flatMap group) disk).disk := by
  induction items generalizing disk with
  | nil => exact ⟨rfl, own⟩
  | cons item rest ih =>
      obtain ⟨done, next⟩ := each item List.mem_cons_self disk own
      obtain ⟨disk_eq, failed_eq⟩ := makeAll_append done (rest.flatMap group)
      rw [List.flatMap_cons, disk_eq, failed_eq]
      exact ih (fun later member => each later (List.mem_cons_of_mem item member)) next

/-- Steps that come to their end are all made. -/
theorem makeAll_made {steps : List DiskStep} {disk : Disk} (done : (makeAll steps disk).failed = none) :
    (makeAll steps disk).made = steps := by
  induction steps generalizing disk with
  | nil => rfl
  | cons step rest ih =>
      rw [makeAll] at done ⊢
      cases makes : step.make disk with
      | error fault =>
          rw [makes] at done
          cases done
      | ok next =>
          rw [makes] at done
          exact congrArg (step :: ·) (ih done)

/-- A place can be cleared if it is free, or if a folder is there that its path leads to. -/
theorem clear_isOk {disk : Disk} {text : String} (tree : disk.IsTree) (below : place disk.here text ≠ [])
    (room : disk.node? (place disk.here text) = none ∨
      disk.node? (place disk.here text) = some .folder ∧ ∃ last, disk.locate text = .ok last) :
    ∃ cleared, (DiskStep.clear text).make disk = .ok cleared ∧
      ∀ names, cleared.node? (place disk.here text ++ names) = none := by
  rw [make, Disk.exists?, Disk.find?]
  rcases room with free | ⟨folder, leads⟩
  · refine ⟨disk, if_neg ?_, fun names => tree.free_below free⟩
    cases locates : disk.locate text with
    | error fault => simp
    | ok spot => simp [Disk.locate_eq_ok locates, free]
  · have locates := Disk.locate_eq_place leads
    obtain ⟨cleared, removes⟩ : ∃ cleared, disk.removeFolder text = .ok cleared :=
      ⟨_, bind_eq_ok.mpr ⟨_, locates, bind_eq_ok.mpr ⟨(), Disk.needFolder_eq_ok.mpr folder, rfl⟩⟩⟩
    refine ⟨cleared, ?_, fun names => Disk.removeFolder_node? removes (List.prefix_append _ _) (by simp [below])⟩
    rw [locates, if_pos (by simp [folder]), removes]

end DiskStep

namespace Build

variable {build : Build} {outDir : String} {here names : Place} {disk : Disk}

theorem Holds.front {front rest : Place} (holds : build.Holds (front ++ rest)) : build.Holds front := by
  obtain ⟨file, listed, more, some, split⟩ := holds
  exact ⟨file, listed, rest ++ more, by simp [some], split.trans (List.append_assoc _ _ _)⟩

/-- A build whose files have names that files can have, with none of them where another one needs a folder. -/
structure Writable (build : Build) : Prop where
  named : ∀ file ∈ build.files, ∀ name ∈ file.1, FilePath.IsFileName name ∧ '\x00' ∉ name.toList
  apart : ∀ file ∈ build.files, ¬build.Holds file.1

/-- Whether a build can be written is a matter of the places of its files. -/
theorem writable_of_places {places : List Place} (listed : build.files.map Prod.fst = places)
    (named : ∀ names ∈ places, ∀ name ∈ names, ModulePath.IsName name.toList ∧ '\x00' ∉ name.toList)
    (apart : ∀ names ∈ places, ∀ other ∈ places, names <+: other → names = other) : build.Writable where
  named file member name within := by
    obtain ⟨isName, clean⟩ := named file.1 (listed ▸ List.mem_map_of_mem member) name within
    exact ⟨FilePath.isFileName_of_name isName, clean⟩
  apart file member := by
    rintro ⟨other, within, rest, more, split⟩
    have same := apart file.1 (listed ▸ List.mem_map_of_mem member) other.1 (listed ▸ List.mem_map_of_mem within)
      (split ▸ List.prefix_append _ _)
    rw [← same] at split
    exact more (List.self_eq_append_right.mp split)

/-- A disk with room for an output folder and for the one next to it, and with a way to both. -/
structure Receives (disk : Disk) (outDir : String) : Prop where
  replaceable : Replaceable disk.here outDir
  finds : ∃ last, disk.locate (stagingOf outDir) = .ok last
  leads : ∃ last, disk.locate (FilePath.withoutSlashes outDir) = .ok last
  room : ∀ text ∈ [outDir, stagingOf outDir],
    disk.node? (place disk.here text) = none ∨ disk.node? (place disk.here text) = some .folder

/-- Whether a disk has room is looked up there. -/
theorem receives_of_lookup {front name : String} (isName : ModulePath.IsName name.toList)
    (ends : FilePath.withoutSlashes outDir = FilePath.join front name)
    (apart : place disk.here (stagingOf outDir) ≠ place disk.here outDir ∧ ∀ spot ∈ through disk.here (stagingOf outDir),
      ¬place disk.here outDir <+: spot ∧ ¬place disk.here (stagingOf outDir) <+: spot)
    (found : (disk.locate (stagingOf outDir)).isOk = true ∧
      (disk.locate (FilePath.withoutSlashes outDir)).isOk = true)
    (room : ∀ text ∈ [outDir, stagingOf outDir],
      disk.node? (place disk.here text) = none ∨ disk.node? (place disk.here text) = some .folder) :
    Receives disk outDir where
  replaceable := ⟨⟨front, name, FilePath.isFileName_of_name isName, ends⟩, apart.1, apart.2⟩
  finds := exists_of_isOk found.1
  leads := exists_of_isOk found.2
  room

theorem Replaceable.endsInName (replaceable : Replaceable here outDir) :
    FilePath.EndsInName (stagingOf outDir) := by
  obtain ⟨front, name, isName, ends⟩ := replaceable.named
  obtain ⟨isOther, staging⟩ := stagingOf_join isName ends
  exact staging ▸ FilePath.endsInName_join isOther front

/-! ### Filling the folder next to the output folder -/

/-- The steps that write one file below a folder. -/
def fileSteps (folder : String) (names : Place) (last text : String) : List DiskStep :=
  [.createFolders (names.foldl FilePath.join folder), .write ((names ++ [last]).foldl FilePath.join folder) text]

theorem artifactSteps_eq {folder : String} (ends : FilePath.EndsInName folder) {artifact : Artifact}
    (normal : artifact.path.Normal) : ∃ names last, artifact.target.name :: splitParts artifact.path.text =
      names ++ [last] ∧ artifactSteps folder artifact = fileSteps folder names last artifact.code := by
  have areNames : ∀ name ∈ artifact.target.name :: splitParts artifact.path.text, FilePath.IsFileName name := by
    intro name member
    rcases List.mem_cons.mp member with rfl | member
    · exact FilePath.isFileName_of_name (target_name_isName _)
    · exact FilePath.isFileName_of_name ((FilePath.splitParts_normal normal).2 name member)
  have file : artifactFile folder artifact =
      (artifact.target.name :: splitParts artifact.path.text).foldl FilePath.join folder := rfl
  obtain ⟨names, last, split⟩ : ∃ names last, artifact.target.name :: splitParts artifact.path.text = names ++ [last] :=
    ⟨_, _, (List.dropLast_concat_getLast (List.cons_ne_nil _ _)).symm⟩
  rw [split] at areNames file
  have frontEnds := FilePath.endsInName_foldl_join
    (fun name member => areNames name (List.mem_append_left [last] member)) ends
  have isLast := areNames last (List.mem_append_right names List.mem_cons_self)
  refine ⟨names, last, split, ?_⟩
  rw [artifactSteps, file, List.foldl_append, List.foldl_cons, List.foldl_nil, frontEnds.parent?_join isLast, fileSteps,
    List.foldl_append]
  rfl

/-- A disk with nothing but a part of a build in the folder next to the output folder. -/
structure Fills (build : Build) (outDir : String) (here : Place) (disk : Disk) : Prop where
  tree : disk.IsTree
  stays : disk.here = here
  way : ∀ spot ∈ through here (stagingOf outDir), disk.node? spot = some .folder
  file : ∀ names content, disk.node? (place here (stagingOf outDir) ++ names) = some (.file content) →
    names ∈ build.files.map Prod.fst
  folder : ∀ names, disk.node? (place here (stagingOf outDir) ++ names) = some .folder → build.Holds names

section Filling

variable (writable : build.Writable) (replaceable : Replaceable here outDir)
  (clean : ∀ part ∈ splitParts (stagingOf outDir), '\x00' ∉ part.toList) (fills : Fills build outDir here disk)

include writable replaceable clean fills

/-- A folder that holds files of the build can be created there. -/
theorem Fills.createFolders (holds : build.Holds names) :
    ∃ next, disk.createFolders (names.foldl FilePath.join (stagingOf outDir)) = .ok next ∧
      Fills build outDir here next ∧ next.node? (place here (stagingOf outDir) ++ names) = some .folder := by
  have ends := replaceable.endsInName
  have areNames : ∀ name ∈ names, FilePath.IsFileName name ∧ '\x00' ∉ name.toList := by
    obtain ⟨file, listed, rest, _, split⟩ := holds
    exact fun name member => writable.named file listed name (split ▸ List.mem_append_left rest member)
  have isNames := fun name member => (areNames name member).1
  have found : ∃ last, disk.locate (stagingOf outDir) = .ok last :=
    Disk.locate_isOk.mpr ⟨ends.ne_empty, fun stop onWay => fills.way stop (fills.stays ▸ onWay), clean⟩
  have notFile (front : Place) (within : front <+: names) :
      disk.node? (place disk.here (stagingOf outDir) ++ front) = none ∨
        disk.node? (place disk.here (stagingOf outDir) ++ front) = some .folder := by
    rw [fills.stays]
    cases stands : disk.node? (place here (stagingOf outDir) ++ front) with
    | none => exact .inl rfl
    | some node =>
        cases node with
        | folder => exact .inr rfl
        | file content =>
            obtain ⟨file, listed, rfl⟩ := List.mem_map.mp (fills.file front content stands)
            obtain ⟨rest, rfl⟩ := within
            exact absurd holds.front (writable.apart file listed)
  obtain ⟨next, creates⟩ := Disk.createFolders_isOk fills.tree ends found areNames notFile
  have within := creates
  rw [Disk.createFolders] at within
  have filled := Disk.createFoldersWithin_filled within
  have created := Disk.node?_of_createFoldersWithin (FilePath.endsInName_foldl_join isNames ends).ne_empty within
  rw [fills.stays, FilePath.place_foldl_join isNames] at created
  refine ⟨next, creates, ⟨fills.tree.createFoldersWithin within, filled.here.trans fills.stays,
    fun spot onWay => filled.keeps (by simp) (fills.way spot onWay), fun other content stands => ?_,
    fun other stands => ?_⟩, created⟩
  · rcases filled.others _ (by simp) with same | ⟨_, isFolder, _⟩
    · exact fills.file other content (same ▸ stands)
    · cases stands.symm.trans isFolder
  · rcases filled.others _ (by simp) with same | ⟨free, _, reached⟩
    · exact fills.folder other (same ▸ stands)
    · -- a folder that is new is one of those on the way to the folder, or the folder
      rw [fills.stays, FilePath.mem_through_names isNames, FilePath.place_foldl_join isNames] at reached
      rcases reached with (onWay | ⟨front, rest, rfl, _, same⟩) | same
      · cases free.symm.trans (fills.way _ onWay)
      · exact List.append_cancel_left same ▸ holds.front
      · exact List.append_cancel_left same ▸ holds

/-- A file of the build can be written to a folder there. -/
theorem Fills.write {last text : String} (listed : (names ++ [last], Text.bytesOf text) ∈ build.files)
    (folder : disk.node? (place here (stagingOf outDir) ++ names) = some .folder) :
    ∃ next, disk.write ((names ++ [last]).foldl FilePath.join (stagingOf outDir)) (Text.bytesOf text) = .ok next ∧
      Fills build outDir here next := by
  have areNames := writable.named _ listed
  have locates := fills.tree.locate_into (fun stop onWay => fills.way stop (fills.stays ▸ onWay)) clean areNames
    (fills.stays.symm ▸ folder)
  rw [fills.stays] at locates
  have notFolder : disk.node? (place here (stagingOf outDir) ++ (names ++ [last])) ≠ some .folder :=
    fun isFolder => writable.apart _ listed (fills.folder _ isFolder)
  obtain ⟨next, writes⟩ : ∃ next, disk.write ((names ++ [last]).foldl FilePath.join (stagingOf outDir))
      (Text.bytesOf text) = .ok next := ⟨_, Disk.write_of_locate locates notFolder⟩
  have filled := Disk.write_filled writes
  rw [FilePath.place_foldl_join fun name member => (areNames name member).1, fills.stays] at filled
  have written := filled.files _ _ (List.mem_singleton.mpr rfl)
  have kept (spot : Place) (other : spot ≠ place here (stagingOf outDir) ++ (names ++ [last])) :
      next.node? spot = disk.node? spot :=
    (filled.others spot (by simpa using other)).resolve_right fun reached => reached.2.2
  refine ⟨next, writes, fills.tree.write writes, filled.here.trans fills.stays, fun spot onWay => ?_,
    fun other content stands => ?_, fun other stands => ?_⟩
  · rw [kept spot, fills.way spot onWay]
    exact fun own => (replaceable.way spot onWay).2 ⟨names ++ [last], own.symm⟩
  · by_cases own : other = names ++ [last]
    · exact own ▸ List.mem_map_of_mem listed
    · rw [kept _ fun same => own (List.append_cancel_left same)] at stands
      exact fills.file other content stands
  · by_cases own : other = names ++ [last]
    · rw [own, written] at stands
      cases stands
    · rw [kept _ fun same => own (List.append_cancel_left same)] at stands
      exact fills.folder other stands

theorem Fills.fileSteps {last text : String} (listed : (names ++ [last], Text.bytesOf text) ∈ build.files) :
    (DiskStep.makeAll (fileSteps (stagingOf outDir) names last text) disk).failed = none ∧
      Fills build outDir here (DiskStep.makeAll (fileSteps (stagingOf outDir) names last text) disk).disk := by
  obtain ⟨next, creates, nextFills, folder⟩ := fills.createFolders writable replaceable clean
    ⟨_, listed, [last], List.cons_ne_nil _ _, rfl⟩
  obtain ⟨after, writes, afterFills⟩ := nextFills.write writable replaceable clean listed folder
  rw [Build.fileSteps, DiskStep.makeAll, DiskStep.make, creates]
  dsimp only
  rw [DiskStep.makeAll, DiskStep.make, writes]
  exact ⟨rfl, afterFills⟩

/-- All files of the build can be put there. -/
theorem Fills.fillingSteps (normal : ∀ artifact ∈ build.emission.artifacts, artifact.path.Normal) :
    (DiskStep.makeAll (build.fillingSteps (stagingOf outDir)) disk).failed = none ∧
      Fills build outDir here (DiskStep.makeAll (build.fillingSteps (stagingOf outDir)) disk).disk := by
  have each : ∀ artifact ∈ build.emission.artifacts, ∀ on, Fills build outDir here on →
      (DiskStep.makeAll (artifactSteps (stagingOf outDir) artifact) on).failed = none ∧
        Fills build outDir here (DiskStep.makeAll (artifactSteps (stagingOf outDir) artifact) on).disk := by
    intro artifact member on fills
    obtain ⟨names, last, split, steps⟩ := artifactSteps_eq replaceable.endsInName (normal artifact member)
    rw [steps]
    exact fills.fileSteps writable replaceable clean (split ▸ artifact_mem_files member)
  obtain ⟨done, filled⟩ := DiskStep.makeAll_flatMap each fills
  obtain ⟨disk_eq, failed_eq⟩ := DiskStep.makeAll_append done
    (Build.fileSteps (stagingOf outDir) [] Manifest.fileName build.manifest.text)
  have steps : build.fillingSteps (stagingOf outDir) =
      build.emission.artifacts.flatMap (artifactSteps (stagingOf outDir)) ++
        Build.fileSteps (stagingOf outDir) [] Manifest.fileName build.manifest.text := by
    rw [Build.fillingSteps, Build.fileSteps, List.nil_append, List.foldl_nil, List.foldl_cons, List.foldl_nil]
  rw [steps, disk_eq, failed_eq]
  exact filled.fileSteps writable replaceable clean (manifest_mem_files build)

end Filling

/-! ### Putting it in the place of the output folder -/

/-- What was filled takes the place of an output folder, or a place that is free. -/
theorem replace_isOk {staged : Disk} (tree : staged.IsTree) (replaceable : Replaceable staged.here outDir)
    (finds : ∃ last, staged.locate (stagingOf outDir) = .ok last)
    (folder : staged.node? (place staged.here (stagingOf outDir)) = some .folder)
    (leads : ∃ last, staged.locate (FilePath.withoutSlashes outDir) = .ok last)
    (room : staged.node? (place staged.here outDir) = none ∨ staged.node? (place staged.here outDir) = some .folder) :
    (DiskStep.makeAll [.clear outDir, .rename (stagingOf outDir) outDir] staged).failed = none := by
  have finish (isOutput : staged.node? (place staged.here outDir) = some .folder) :
      ∃ last, staged.locate outDir = .ok last := by
    obtain ⟨shorter, way, clean⟩ := Disk.locate_isOk.mp leads
    have nonempty : outDir ≠ "" := by
      rintro rfl
      exact shorter (by decide)
    obtain ⟨_, _, _, parts⟩ := FilePath.withoutSlashes_way staged.here nonempty
    refine Disk.locate_of_folder nonempty (fun part listed => ?_) way isOutput
    rcases parts part listed with within | rfl
    · exact clean part within
    · simp
  obtain ⟨cleared, clears, free⟩ := DiskStep.clear_isOk tree replaceable.below
    (room.imp_right fun isOutput => ⟨isOutput, finish isOutput⟩)
  have isFree := free []
  rw [List.append_nil] at isFree
  obtain ⟨after, moves⟩ := rename_of_cleared replaceable finds folder leads clears isFree
  rw [DiskStep.makeAll, clears]
  dsimp only
  rw [DiskStep.makeAll, DiskStep.make, moves]
  rfl

/-- A build is written where there is room for it. -/
theorem Writable.write_isOk (writable : build.Writable) (receives : Receives disk outDir) (tree : disk.IsTree)
    (normal : ∀ artifact ∈ build.emission.artifacts, artifact.path.Normal) :
    (build.write outDir disk).failed = none := by
  have replaceable := receives.replaceable
  obtain ⟨_, _, _, _, beside, _, _, _, sameWay⟩ := siblings replaceable.named replaceable.different
  obtain ⟨outputRoom, stagingRoom⟩ := List.forall_mem_cons.mp receives.room
  obtain ⟨nonempty, way, clean⟩ := Disk.locate_isOk.mp receives.finds
  obtain ⟨cleared, clears, empty⟩ := DiskStep.clear_isOk tree (by simp [beside])
    ((List.forall_mem_singleton.mp stagingRoom).imp_right fun folder => ⟨folder, receives.finds⟩)
  have clearing := DiskStep.make_leaves clears
  have fills : Fills build outDir disk.here cleared := by
    refine ⟨DiskStep.make_isTree tree (by rintro _ _ same; cases same) clears, clearing.here, fun stop onWay => ?_,
      fun names content stands => ?_, fun names stands => ?_⟩
    · rw [clearing.nodes stop (replaceable.way stop onWay).2, way stop onWay]
    · cases (empty names).symm.trans stands
    · cases (empty names).symm.trans stands
  obtain ⟨filling, filled⟩ := fills.fillingSteps writable replaceable clean normal
  have staging : DiskStep.makeAll (build.stagingSteps outDir) disk =
      { DiskStep.makeAll (build.fillingSteps (stagingOf outDir)) cleared with
        made := .clear (stagingOf outDir) ::
          (DiskStep.makeAll (build.fillingSteps (stagingOf outDir)) cleared).made } := by
    rw [stagingSteps_eq, DiskStep.makeAll, clears]
  have done : (DiskStep.makeAll (build.stagingSteps outDir) disk).failed = none := by
    rw [staging, filling]
  have makes : (DiskStep.makeAll (build.stagingSteps outDir) disk).disk =
      (DiskStep.makeAll (build.fillingSteps (stagingOf outDir)) cleared).disk := by
    rw [staging]
  obtain ⟨finds, folder⟩ := stagingSteps_done nonempty (fun spot onWay => (replaceable.way spot onWay).2) done makes
  have leaves : disk.Leaves (fun other => other ∈ through disk.here (stagingOf outDir) ∨
      place disk.here (stagingOf outDir) <+: other) (DiskStep.makeAll (build.stagingSteps outDir) disk).disk :=
    DiskStep.makeAll_leaves fun step member other => stagingSteps_reach normal member
  obtain ⟨_, failed_eq⟩ := DiskStep.makeAll_append done [.clear outDir, .rename (stagingOf outDir) outDir]
  rw [write, steps_eq, failed_eq]
  rw [makes] at leaves ⊢
  generalize (DiskStep.makeAll (build.fillingSteps (stagingOf outDir)) cleared).disk = staged at *
  have kept : staged.node? (place disk.here outDir) = disk.node? (place disk.here outDir) := by
    refine leaves.nodes _ ?_
    rintro (onWay | within)
    · exact (replaceable.way _ onWay).1 (List.prefix_refl _)
    · exact replaceable.apart (List.prefix_refl _) within
  have leads : ∃ last, staged.locate (FilePath.withoutSlashes outDir) = .ok last := by
    obtain ⟨pathName, _, clean⟩ := Disk.locate_isOk.mp receives.leads
    refine Disk.locate_isOk.mpr ⟨pathName, fun stop onWay => ?_, clean⟩
    rw [filled.stays] at onWay
    exact filled.way stop ((sameWay stop).mp onWay)
  refine replace_isOk filled.tree (filled.stays.symm ▸ replaceable) finds (filled.stays.symm ▸ folder) leads ?_
  rw [filled.stays, kept]
  exact outputRoom

end Build

end Realms
