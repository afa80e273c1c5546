import Realms.Proofs.Disk.Named
import Realms.Proofs.Manifest
import Realms.Proofs.Output.Writable

/-!
Output that was written. Everything is put into the folder next to the output folder, which was cleared before, and
takes the place of the old output by one move. So the output folder holds the files of the build and no others, as
long as the folder next to it could be found before its way was made.
-/
namespace Realms

namespace Build

open FilePath (place through splitParts)

variable {build : Build} {outDir : String} {here : Place}

/-- No two files of a build have one place. -/
theorem files_nodup {options : BuildOptions} {sources : Sources} (compiles : compile options sources = .ok build) :
    (build.files.map Prod.fst).Nodup := by
  have places := artifact_places compiles
  rw [files, List.map_append, List.map_map, List.nodup_append]
  refine ⟨List.Nodup.map_on ?_ places.of_map, List.nodup_singleton _, ?_⟩
  · intro a first b second same
    obtain ⟨target, path⟩ := List.cons.inj same
    refine List.inj_on_of_nodup_map places first second (Prod.ext (Target.name_injective target) ?_)
    exact ModulePath.text_injective (FilePath.splitParts_injective path)
  · intro a member b own same
    obtain ⟨artifact, _, rfl⟩ := List.mem_map.mp member
    obtain rfl := List.mem_singleton.mp own
    have side : artifact.target.name = Manifest.fileName := (List.cons.inj same).1
    revert side
    cases artifact.target <;> decide

/-- What was left in the folder next to the output folder, because its path led nowhere when it was to be
cleared. -/
def Stale (outDir : String) (disk : Disk) (names : Place) (node : FileNode) : Prop :=
  disk.exists? (stagingOf outDir) = false ∧ disk.node? (place disk.here (stagingOf outDir) ++ names) = some node

/-- What a disk is after a build was written to it. -/
structure Output (build : Build) (outDir : String) (disk after : Disk) : Prop where
  /-- The output folder holds the files of the build and, if there were some, those that are stale. -/
  files : ∀ names content, after.fileAt? (place disk.here outDir ++ names) = some content ↔
    (names, content) ∈ build.files ∨
      names ∉ build.files.map Prod.fst ∧ Stale outDir disk names (.file content)
  folders : ∀ names, after.node? (place disk.here outDir ++ names) = some .folder → build.Holds names ∨
    place disk.here (stagingOf outDir) ++ names ∈ through disk.here (FilePath.withoutSlashes outDir) ∨
      Stale outDir disk names .folder
  /-- Nothing is left of the folder next to the output folder. -/
  gone : ∀ names, after.node? (place disk.here (stagingOf outDir) ++ names) = none
  /-- Everywhere else at most the way to the output folder is new. -/
  others : ∀ other, ¬place disk.here outDir <+: other → ¬place disk.here (stagingOf outDir) <+: other →
    after.node? other = disk.node? other ∨ disk.node? other = none ∧ after.node? other = some .folder ∧
      other ∈ through disk.here (FilePath.withoutSlashes outDir)

/-- The disks on the way from one to another one, when a build is written: a folder is cleared and filled, and it
takes the place of the output folder. -/
structure Passes (build : Build) (outDir : String) (disk cleared filled after : Disk) : Prop where
  clears : disk.exists? (stagingOf outDir) = true →
    ∀ names, cleared.node? (place disk.here (stagingOf outDir) ++ names) = none
  misses : disk.exists? (stagingOf outDir) = false → cleared = disk
  kept : ∀ other, ¬place disk.here (stagingOf outDir) <+: other → cleared.node? other = disk.node? other
  fills : cleared.Filled (fun spot => spot ∈ through disk.here (FilePath.withoutSlashes outDir) ∨
      ∃ names, build.Holds names ∧ spot = place disk.here (stagingOf outDir) ++ names)
    (build.files.map fun file => (place disk.here (stagingOf outDir) ++ file.1, file.2)) filled
  moves : ∀ names, after.node? (place disk.here outDir ++ names) =
      filled.node? (place disk.here (stagingOf outDir) ++ names) ∧
    after.node? (place disk.here (stagingOf outDir) ++ names) = none
  rests : ∀ other, ¬place disk.here outDir <+: other → ¬place disk.here (stagingOf outDir) <+: other →
    after.node? other = filled.node? other

namespace Passes

variable {disk cleared filled after : Disk} {names : Place} {node : FileNode} {content : List UInt8}
  (passes : Passes build outDir disk cleared filled after)

include passes

theorem node?_cleared : cleared.node? (place disk.here (stagingOf outDir) ++ names) = some node ↔
    Stale outDir disk names node := by
  rw [Stale]
  cases present : disk.exists? (stagingOf outDir) with
  | true => simp [passes.clears present]
  | false => simp [passes.misses present]

omit passes in
theorem mem_written : place disk.here (stagingOf outDir) ++ names ∈
    (build.files.map fun file => (place disk.here (stagingOf outDir) ++ file.1, file.2)).map Prod.fst ↔
      names ∈ build.files.map Prod.fst := by
  simp [List.mem_map]

theorem node?_written (file : (names, content) ∈ build.files) :
    filled.node? (place disk.here (stagingOf outDir) ++ names) = some (.file content) :=
  passes.fills.files _ _ (List.mem_map.mpr ⟨_, file, rfl⟩)

/-- Where no file of the build is, what is there was there before, or it is a new folder. -/
theorem node?_unwritten (other : names ∉ build.files.map Prod.fst)
    (stands : filled.node? (place disk.here (stagingOf outDir) ++ names) = some node) :
    Stale outDir disk names node ∨ node = .folder ∧
      (place disk.here (stagingOf outDir) ++ names ∈ through disk.here (FilePath.withoutSlashes outDir) ∨
        build.Holds names) := by
  rcases passes.fills.others _ (mt mem_written.mp other) with same | ⟨_, folder, reached⟩
  · exact .inl (passes.node?_cleared.mp (same ▸ stands))
  · refine .inr ⟨Option.some.inj (stands.symm.trans folder), reached.imp_right ?_⟩
    rintro ⟨own, holds, same⟩
    exact List.append_cancel_left same ▸ holds

/-- A file that is stale is not touched. -/
theorem node?_stale (other : names ∉ build.files.map Prod.fst) (stale : Stale outDir disk names node) :
    filled.node? (place disk.here (stagingOf outDir) ++ names) = some node :=
  passes.fills.keeps (mt mem_written.mp other) (passes.node?_cleared.mpr stale)

theorem fileAt?_output : after.fileAt? (place disk.here outDir ++ names) = some content ↔
    (names, content) ∈ build.files ∨ names ∉ build.files.map Prod.fst ∧ Stale outDir disk names (.file content) := by
  rw [Disk.fileAt?_eq_some, (passes.moves names).1]
  constructor
  · intro stands
    by_cases file : names ∈ build.files.map Prod.fst
    · obtain ⟨⟨_, bytes⟩, listed, rfl⟩ := List.mem_map.mp file
      have written := stands.symm.trans (passes.node?_written listed)
      exact .inl (FileNode.file.inj (Option.some.inj written) ▸ listed)
    · rcases passes.node?_unwritten file stands with stale | ⟨folder, _⟩
      · exact .inr ⟨file, stale⟩
      · cases folder
  · rintro (listed | ⟨other, stale⟩)
    · exact passes.node?_written listed
    · exact passes.node?_stale other stale

theorem folder_output (stands : after.node? (place disk.here outDir ++ names) = some .folder) :
    build.Holds names ∨
      place disk.here (stagingOf outDir) ++ names ∈ through disk.here (FilePath.withoutSlashes outDir) ∨
        Stale outDir disk names .folder := by
  rw [(passes.moves names).1] at stands
  have other : names ∉ build.files.map Prod.fst := by
    intro file
    obtain ⟨⟨_, bytes⟩, listed, rfl⟩ := List.mem_map.mp file
    cases stands.symm.trans (passes.node?_written listed)
  rcases passes.node?_unwritten other stands with stale | ⟨_, onWay | holds⟩
  · exact .inr (.inr stale)
  · exact .inr (.inl onWay)
  · exact .inl holds

theorem node?_other {other : Place} (outside : ¬place disk.here outDir <+: other)
    (apart : ¬place disk.here (stagingOf outDir) <+: other) :
    after.node? other = disk.node? other ∨ disk.node? other = none ∧ after.node? other = some .folder ∧
      other ∈ through disk.here (FilePath.withoutSlashes outDir) := by
  have unwritten : other ∉
      (build.files.map fun file => (place disk.here (stagingOf outDir) ++ file.1, file.2)).map Prod.fst := by
    intro written
    rw [List.map_map] at written
    obtain ⟨file, _, same⟩ := List.mem_map.mp written
    exact apart (same ▸ List.prefix_append _ _)
  rw [passes.rests other outside apart, ← passes.kept other apart]
  refine (passes.fills.others other unwritten).imp_right fun ⟨free, folder, reached⟩ => ⟨free, folder, ?_⟩
  refine reached.resolve_right fun ⟨names, _, same⟩ => apart ?_
  rw [same]
  exact List.prefix_append _ _

theorem output : Output build outDir disk after where
  files _ _ := passes.fileAt?_output
  folders _ := passes.folder_output
  gone names := (passes.moves names).2
  others _ := passes.node?_other

end Passes

/-- Steps that fill the folder next to the output folder put the files of the build there. -/
theorem fillingSteps_filled {options : BuildOptions} {sources : Sources} {disk : Disk} {staging : String}
    (compiles : compile options sources = .ok build)
    (done : (DiskStep.makeAll (build.fillingSteps staging) disk).failed = none) :
    disk.Filled (fun spot => spot ∈ through disk.here staging ∨
        ∃ names, build.Holds names ∧ spot = place disk.here staging ++ names)
      (build.files.map fun file => (place disk.here staging ++ file.1, file.2))
      (DiskStep.makeAll (build.fillingSteps staging) disk).disk := by
  have normal : ∀ artifact ∈ build.emission.artifacts, artifact.path.Normal := fun artifact member =>
    artifact_normal compiles member
  rw [← fillingSteps_writes normal]
  apply DiskStep.makeAll_filled (fillingSteps_adds build staging) _ _ done
  · exact fun step member spot => fillingSteps_creates normal member
  · rw [fillingSteps_writes normal, List.map_map]
    have behind : Function.Injective (place disk.here staging ++ ·) := fun _ _ same => List.append_cancel_left same
    have nodup := (files_nodup compiles).map behind
    rwa [List.map_map] at nodup

/-- An output folder that another folder takes the place of has a name of its own, because nothing else can be free. -/
theorem named_of_rename {disk after : Disk} (tree : disk.IsTree)
    (moves : disk.rename (stagingOf outDir) outDir = .ok after) :
    (∃ front name, FilePath.IsFileName name ∧ FilePath.withoutSlashes outDir = FilePath.join front name) ∧
      place disk.here (stagingOf outDir) ≠ place disk.here outDir := by
  obtain ⟨isFolder, free, _⟩ := Disk.rename_eq_ok moves
  obtain ⟨front, name, isName, joined, _, _⟩ := tree.ends_in_name (Disk.rename_leads moves) (by rw [free]; nofun)
  refine ⟨⟨front, name, isName, joined⟩, fun same => ?_⟩
  rw [same, free] at isFolder
  cases isFolder

/-- So a folder that takes its place is next to it. -/
theorem siblings_of_rename {disk after : Disk} (tree : disk.IsTree)
    (moves : disk.rename (stagingOf outDir) outDir = .ok after) :
    (∀ names, ¬place disk.here outDir <+: place disk.here (stagingOf outDir) ++ names) ∧
      ∀ spot, spot ∈ through disk.here (FilePath.withoutSlashes outDir) ↔
        spot ∈ through disk.here (stagingOf outDir) := by
  obtain ⟨named, different⟩ := named_of_rename tree moves
  obtain ⟨folder, name, other, spot, beside, names, _, _, way⟩ := siblings named different
  rw [spot, beside]
  exact ⟨fun rest within => siblings_apart names within (List.prefix_append _ rest), way⟩

/-- The old output is removed, and what was filled takes its place. -/
theorem replacing_done {disk : Disk} (tree : disk.IsTree)
    (done : (DiskStep.makeAll [.clear outDir, .rename (stagingOf outDir) outDir] disk).failed = none) :
    ∃ after, (DiskStep.makeAll [.clear outDir, .rename (stagingOf outDir) outDir] disk).disk = after ∧
      (∀ names, after.node? (place disk.here outDir ++ names) =
          disk.node? (place disk.here (stagingOf outDir) ++ names) ∧
        after.node? (place disk.here (stagingOf outDir) ++ names) = none) ∧
      (∀ other, ¬place disk.here outDir <+: other → ¬place disk.here (stagingOf outDir) <+: other →
        after.node? other = disk.node? other) ∧
      ∀ spot, spot ∈ through disk.here (FilePath.withoutSlashes outDir) ↔
        spot ∈ through disk.here (stagingOf outDir) := by
  obtain ⟨emptied, empties, done, after_eq⟩ := DiskStep.makeAll_cons_done done
  obtain ⟨after, moves, _, last_eq⟩ := DiskStep.makeAll_cons_done done
  have moves : emptied.rename (stagingOf outDir) outDir = .ok after := moves
  have emptying := DiskStep.make_leaves empties
  have tree : emptied.IsTree := DiskStep.make_isTree tree (by rintro _ _ same; cases same) empties
  obtain ⟨apart, way⟩ := siblings_of_rename tree moves
  have moved := Disk.rename_node? tree moves apart
  have resting := Disk.rename_leaves moves
  rw [emptying.here] at apart way moved resting
  refine ⟨after, after_eq.trans last_eq, fun names => ?_, fun other outside beside => ?_, way⟩
  · rw [(moved names).1, emptying.nodes _ (apart names)]
    exact ⟨rfl, (moved names).2⟩
  · rw [resting.nodes other (not_or.mpr ⟨beside, outside⟩), emptying.nodes other outside]

theorem write_passes {options : BuildOptions} {sources : Sources} {disk : Disk}
    (compiles : compile options sources = .ok build) (tree : disk.IsTree)
    (done : (build.write outDir disk).failed = none) :
    ∃ cleared filled, Passes build outDir disk cleared filled (build.write outDir disk).disk := by
  rw [write, steps_filling] at done ⊢
  obtain ⟨cleared, clears, done, after_eq⟩ := DiskStep.makeAll_cons_done done
  obtain ⟨fills, done, last_eq⟩ := DiskStep.makeAll_append_done done
  have clearing := DiskStep.make_leaves clears
  have tree : cleared.IsTree := DiskStep.make_isTree tree (by rintro _ _ same; cases same) clears
  have tree := DiskStep.makeAll_isTree tree fun source target => fillingSteps_adds build (stagingOf outDir) _
  have filled := fillingSteps_filled compiles fills
  obtain ⟨after, same, moves, rests, way⟩ := replacing_done tree done
  rw [after_eq, last_eq, same]
  rw [filled.here, clearing.here] at moves rests way
  rw [clearing.here] at filled
  refine ⟨cleared, _, fun present names => ?_, fun absent => ?_, clearing.nodes, ?_, moves, rests⟩
  · rw [DiskStep.make, if_pos present] at clears
    refine Disk.removeFolder_node? clears (List.prefix_append _ _) fun root => ?_
    -- what was moved away is not the root
    have free := (moves []).2
    rw [(List.append_eq_nil_iff.mp root).1] at free
    cases free
  · rw [DiskStep.make, absent] at clears
    exact (Except.ok.inj clears).symm
  · simp only [way]
    exact filled

/-- A build whose steps were all made leaves its output, with nothing that is stale if the folder next to the output
folder could be found before, or if there was none. -/
theorem write_output {options : BuildOptions} {sources : Sources} {disk : Disk}
    (compiles : compile options sources = .ok build) (tree : disk.IsTree)
    (done : (build.write outDir disk).failed = none) :
    Output build outDir disk (build.write outDir disk).disk ∧
      (disk.exists? (stagingOf outDir) = true ∨ disk.node? (place disk.here (stagingOf outDir)) = none →
        ∀ names content, (build.write outDir disk).disk.fileAt? (place disk.here outDir ++ names) = some content ↔
          (names, content) ∈ build.files) := by
  obtain ⟨cleared, filled, passes⟩ := write_passes compiles tree done
  refine ⟨passes.output, fun fresh names content => ?_⟩
  rw [passes.output.files]
  refine or_iff_left fun ⟨_, absent, stands⟩ => ?_
  rcases fresh with present | free
  · cases absent.symm.trans present
  · cases (tree.free_below free).symm.trans stands

/-- A build that was written fills its output folder and touches nothing else, apart from the folder next to it and
the way to both. The output is exactly that of the build if the folder next to it can be found before, or if there is
none. -/
theorem compile_output {options : BuildOptions} {sources : Sources} {disk : Disk} {manifest : String}
    (compiles : compile options sources = .ok build) (tree : disk.IsTree)
    (done : written outDir (build.write outDir disk) = .ok manifest) :
    manifest = FilePath.join outDir Manifest.fileName ∧ (build.files.map Prod.fst).Nodup ∧
      Output build outDir disk (build.write outDir disk).disk ∧
        (disk.exists? (stagingOf outDir) = true ∨ disk.node? (place disk.here (stagingOf outDir)) = none →
          ∀ names content, (build.write outDir disk).disk.fileAt? (place disk.here outDir ++ names) = some content ↔
            (names, content) ∈ build.files) := by
  have finished : (build.write outDir disk).failed = none := by
    by_contra fails
    obtain ⟨e, error⟩ := written_eq_error.mpr fails
    cases done.symm.trans error
  rw [written, finished] at done
  exact ⟨(Except.ok.inj done).symm, files_nodup compiles, write_output compiles tree finished⟩

/-- Old output, and files that an earlier build has left next to it. -/
def oldOutput : Disk where
  nodes := [
    (["work"], .folder),
    (["work", "dist"], .folder),
    (["work", "dist", "old.js"], .file (Text.bytesOf "old")),
    (["work", "dist.staging"], .folder),
    (["work", "dist.staging", "junk.js"], .file (Text.bytesOf "old"))]
  here := ["work"]

theorem oldOutput_receives : Receives oldOutput "dist" :=
  receives_of_lookup (by decide) (show FilePath.withoutSlashes "dist" = FilePath.join "" "dist" by decide)
    (by decide +kernel) (by decide +kernel) (by decide +kernel)

/-- All of it is replaced by the page. -/
theorem oldOutput_replaced : ∃ build, compile onePageOptions onePage = .ok build ∧ oldOutput.IsTree ∧
    written "dist" (build.write "dist" oldOutput) = .ok "dist/manifest.json" ∧
      build.files.map Prod.fst = [["server", "page.js"], ["manifest.json"]] ∧
        (build.write "dist" oldOutput).disk.fileAt? ["work", "dist", "old.js"] = none ∧
          (build.write "dist" oldOutput).disk.node? ["work", "dist.staging", "junk.js"] = none := by
  have tree : oldOutput.IsTree := Disk.isTree_of_all (by decide) (by decide)
  have looks : ((compile onePageOptions onePage).toOption.map fun build => build.files.map Prod.fst) =
      some [["server", "page.js"], ["manifest.json"]] := by decide +kernel
  obtain ⟨build, compiles, files⟩ := exists_of_toOption looks
  have finished := (writable_of_places files (by decide) (by decide)).write_isOk oldOutput_receives tree
    fun artifact member => artifact_normal compiles member
  have done : written "dist" (build.write "dist" oldOutput) = .ok "dist/manifest.json" := by
    rw [written, finished]
    rfl
  obtain ⟨_, _, output, exact⟩ := compile_output compiles tree done
  refine ⟨build, compiles, tree, done, files, ?_, output.gone ["junk.js"]⟩
  have other : ["old.js"] ∉ build.files.map Prod.fst := by
    rw [files]
    decide
  rw [Option.eq_none_iff_forall_ne_some]
  intro content stands
  have listed := (exact (.inl (by decide)) ["old.js"] content).mp stands
  exact other (List.mem_map.mpr ⟨_, listed, rfl⟩)

/-- A folder next to the output folder that cannot be found, since the path to both leads through a folder that is
not there. -/
def hiddenStaging : Disk where
  nodes := [
    (["work"], .folder),
    (["work", "x.staging"], .folder),
    (["work", "x.staging", "junk.js"], .file (Text.bytesOf "old"))]
  here := ["work"]

/-- The build is written, and an old file is part of the output. -/
theorem hiddenStaging_kept : ∃ build, compile onePageOptions onePage = .ok build ∧ hiddenStaging.IsTree ∧
    written "a/../x" (build.write "a/../x" hiddenStaging) = .ok "a/../x/manifest.json" ∧
      build.files.map Prod.fst = [["server", "page.js"], ["manifest.json"]] ∧
        place hiddenStaging.here "a/../x" = ["work", "x"] ∧
          (build.write "a/../x" hiddenStaging).disk.fileAt? ["work", "x", "junk.js"] =
            some (Text.bytesOf "old") := by
  have tree : hiddenStaging.IsTree := Disk.isTree_of_all (by decide) (by decide)
  have runs : ((compile onePageOptions onePage).toOption.map fun build =>
      ((written "a/../x" (build.write "a/../x" hiddenStaging)).toOption, build.files.map Prod.fst,
        (build.write "a/../x" hiddenStaging).disk.fileAt? ["work", "x", "junk.js"])) =
        some (some "a/../x/manifest.json", [["server", "page.js"], ["manifest.json"]],
          some (Text.bytesOf "old")) := by decide +kernel
  obtain ⟨build, compiles, found⟩ := exists_of_toOption runs
  obtain ⟨succeeds, found⟩ := Prod.mk.inj found
  obtain ⟨files, kept⟩ := Prod.mk.inj found
  obtain ⟨manifest, done, rfl⟩ := exists_of_toOption (f := id) (by rwa [Option.map_id])
  exact ⟨build, compiles, tree, done, files, by decide, kept⟩

end Build
end Realms
