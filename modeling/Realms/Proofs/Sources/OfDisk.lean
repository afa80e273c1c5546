import Realms.Proofs.Disk.Created
import Realms.Proofs.Partition.Lockstep
import Realms.Proofs.Sorted
import Realms.Proofs.Text.Utf8
import Realms.Sources.OfDisk

/-!
Projects on a disk. Sources that are laid out below a folder answer as the disk does when it is asked for the file
of a module: folders, missing files and paths that lead through a file are no modules. A build of them is the build
of the same texts in memory.
-/
namespace Realms

namespace Sources

open FilePath (place through splitParts)

theorem pathOf_splitParts (path : ModulePath) : pathOf (splitParts path.text) = path := by
  have chars : ("/".intercalate (splitParts path.text)).toList = path.text.toList := by
    rw [String.toList_intercalate, splitParts, List.map_map]
    have same : String.toList ∘ String.ofList = id := funext fun _ => String.toList_ofList
    rw [same, List.map_id]
    exact List.intercalate_splitOn _
  exact ModulePath.text_injective (String.toList_injective chars)

theorem pathOf_text (names : List String) :
    (pathOf names).text = String.ofList (ModulePath.joinSegments (names.map String.toList)) := by
  rw [← String.toList_inj, pathOf, String.toList_intercalate, String.toList_ofList, String.toList_ofList]
  rfl

theorem splitParts_pathOf {names : List String} (below : names ≠ [])
    (areNames : ∀ name ∈ names, FilePath.IsFileName name) : splitParts (pathOf names).text = names := by
  rw [pathOf_text, splitParts, String.toList_ofList, ModulePath.joinSegments,
    List.splitOn_intercalate '/' (fun segment member => by
      obtain ⟨name, listed, rfl⟩ := List.mem_map.mp member
      exact (areNames name listed).noSlash) (by simpa using below)]
  simp

theorem contentOf_bytesOf (text : String) : contentOf (Text.bytesOf text) = .ok text := by
  rw [contentOf, Text.bytesOf, Text.decode?_encode, String.ofList_toList]

theorem rootFolder_way (here : Place) (root : String) :
    place here (rootFolder root) = place here root ∧ through here (rootFolder root) = through here root := by
  rw [rootFolder]
  split
  · rename_i empty
    obtain rfl := beq_iff_eq.mp empty
    exact ⟨rfl, rfl⟩
  · exact ⟨rfl, rfl⟩

/-- A root that is written is found itself. -/
theorem locate_root {disk : Disk} {root : String} (written : root ≠ "")
    (found : ∃ spot, disk.locate (rootFolder root) = .ok spot) : disk.locate root = .ok (place disk.here root) := by
  obtain ⟨spot, locates⟩ := found
  rw [rootFolder, if_neg (by simpa using written)] at locates
  rw [locates, Disk.locate_eq_ok locates]

theorem ofDisk_files {disk : Disk} {root : String} (found : ∃ spot, disk.locate (rootFolder root) = .ok spot) :
    (ofDisk disk root).files =
      (disk.filesBelow (place disk.here root)).map fun file => (pathOf file.1, contentOf file.2) := by
  obtain ⟨spot, locates⟩ := found
  have same : spot = place disk.here root := (Disk.locate_eq_ok locates).trans (rootFolder_way disk.here root).1
  rw [ofDisk, locates, same]

/-- A module on a disk is the file that its path leads to from the root. -/
theorem ofDisk_find? {disk : Disk} {root : String} (tree : disk.IsTree) (named : disk.IsNamed)
    (found : ∃ spot, disk.locate (rootFolder root) = .ok spot) {path : ModulePath} (normal : path.Normal) :
    (ofDisk disk root).find? path =
      (disk.fileAt? (place disk.here root ++ splitParts path.text)).map contentOf := by
  obtain ⟨below, pathNames⟩ := FilePath.splitParts_normal normal
  have own {names : Place} {bytes : List UInt8} (listed : (names, bytes) ∈ disk.filesBelow (place disk.here root))
      (same : pathOf names = path) : names = splitParts path.text := by
    have file := Disk.fileAt?_eq_some.mp (tree.mem_filesBelow.mp listed)
    by_cases empty : names = []
    · have nothing : splitParts path.text = [""] := by
        rw [← same, empty]
        rfl
      exact absurd rfl (pathNames "" (nothing ▸ List.mem_cons_self)).nonempty
    · rw [← same, splitParts_pathOf empty fun name member => (named.of_below file name member).1]
  have finds {content : Content} (h : (ofDisk disk root).find? path = some content) :
      ∃ bytes, disk.fileAt? (place disk.here root ++ splitParts path.text) = some bytes ∧
        contentOf bytes = content := by
    obtain ⟨⟨_, _⟩, first, rfl⟩ := Option.map_eq_some_iff.mp h
    have member := List.mem_of_find?_eq_some first
    rw [ofDisk_files found] at member
    obtain ⟨⟨names, bytes⟩, listed, same⟩ := List.mem_map.mp member
    obtain ⟨isPath, rfl⟩ := Prod.mk.inj same
    have key := List.find?_some first
    have names_eq := own listed (isPath.trans (beq_iff_eq.mp key))
    exact ⟨bytes, names_eq ▸ tree.mem_filesBelow.mp listed, rfl⟩
  apply Option.ext
  intro content
  rw [Option.map_eq_some_iff]
  refine ⟨finds, ?_⟩
  rintro ⟨bytes, file, rfl⟩
  have listed : (path, contentOf bytes) ∈ (ofDisk disk root).files := by
    rw [ofDisk_files found]
    refine List.mem_map.mpr ⟨_, tree.mem_filesBelow.mpr file, ?_⟩
    rw [pathOf_splitParts]
  have some : ((ofDisk disk root).find? path).isSome = true := by
    rw [find?, Option.isSome_map, List.find?_isSome]
    exact ⟨_, listed, beq_self_eq_true path⟩
  obtain ⟨content, h⟩ := Option.isSome_iff_exists.mp some
  obtain ⟨other, again, rfl⟩ := finds h
  rw [h, Option.some.inj (file.symm.trans again)]

/-- Texts of different paths are the files of their sources. -/
theorem ofTexts_files_perm {texts : List (ModulePath × String)} (keys : (texts.map Prod.fst).Nodup) :
    (ofTexts texts).files.Perm (texts.map fun item => (item.1, .ok item.2)) := by
  have fold (texts : List (ModulePath × String)) (files : List (ModulePath × Content))
      (keys : (texts.map Prod.fst ++ files.map Prod.fst).Nodup) :
      (texts.foldl (fun files item => Sorted.put (·.1.text) (item.1, .ok item.2) files) files).Perm
        (texts.map (fun item => (item.1, .ok item.2)) ++ files) := by
    induction texts generalizing files with
    | nil => exact .refl _
    | cons item rest ih =>
        obtain ⟨absent, keys⟩ := List.nodup_cons.mp keys
        have put : (Sorted.put (·.1.text) (item.1, .ok item.2) files).Perm ((item.1, .ok item.2) :: files) := by
          apply Sorted.put_perm
          intro file member same
          have own : item.1 = file.1 := ModulePath.text_injective same
          exact absent (List.mem_append_right _ (own ▸ List.mem_map_of_mem member))
        refine (ih _ ?_).trans ((put.append_left _).trans List.perm_middle)
        rw [((put.map Prod.fst).append_left _).nodup_iff, List.map_cons, List.nodup_middle]
        exact List.nodup_cons.mpr ⟨absent, keys⟩
  have whole := fold texts [] (by rwa [List.map_nil, List.append_nil])
  rwa [List.append_nil] at whole

end Sources

/-- Where a root can be found, a path leads from it to whatever stands below it. -/
theorem Disk.IsTree.locate_names {disk : Disk} {root : String} {names : List String} {node : FileNode}
    (tree : disk.IsTree) (found : ∃ spot, disk.locate (Sources.rootFolder root) = .ok spot)
    (areNames : ∀ name ∈ names, FilePath.IsFileName name ∧ '\x00' ∉ name.toList) (below : names ≠ [])
    (stands : disk.node? (FilePath.place disk.here root ++ names) = some node) :
    disk.locate (names.foldl FilePath.join root) = .ok (FilePath.place disk.here root ++ names) := by
  obtain ⟨_, way, clean⟩ := Disk.locate_isOk.mp found
  rw [(Sources.rootFolder_way disk.here root).2] at way
  have parts : ∀ part ∈ FilePath.splitParts root, '\x00' ∉ part.toList := by
    intro part member
    by_cases empty : root = ""
    · subst empty
      simp [List.mem_singleton.mp member]
    · rw [Sources.rootFolder, if_neg (by simpa using empty)] at clean
      exact clean part member
  refine Disk.locate_names areNames below way parts fun front rest split more => ?_
  rw [split, ← List.append_assoc] at stands
  exact tree.folder_above more stands

/-- Below a root a disk has the files of some modules and no others. -/
structure Disk.LaysOut (disk : Disk) (root : String) (texts : List (ModulePath × String)) : Prop where
  tree : disk.IsTree
  found : ∃ spot, disk.locate (Sources.rootFolder root) = .ok spot
  files : ∀ names content, disk.fileAt? (FilePath.place disk.here root ++ names) = some content ↔
    ∃ path text, (path, text) ∈ texts ∧ names = FilePath.splitParts path.text ∧ content = Text.bytesOf text
  /-- A disk takes no such name. -/
  plain : ∀ item ∈ texts, ∀ name ∈ FilePath.splitParts item.1.text, '\x00' ∉ name.toList

namespace Disk.LaysOut

open FilePath (place through splitParts)

variable {disk : Disk} {root : String} {texts : List (ModulePath × String)} {path : ModulePath}
  (layout : disk.LaysOut root texts)

include layout

omit layout in
/-- It is enough to list the files below the root. -/
theorem of_filesBelow (tree : disk.IsTree) (found : ∃ spot, disk.locate (Sources.rootFolder root) = .ok spot)
    (files : disk.filesBelow (place disk.here root) =
      texts.map fun item => (splitParts item.1.text, Text.bytesOf item.2))
    (plain : ∀ item ∈ texts, ∀ name ∈ splitParts item.1.text, '\x00' ∉ name.toList) : disk.LaysOut root texts where
  tree
  found
  files names content := by
    rw [← tree.mem_filesBelow, files, List.mem_map]
    constructor
    · rintro ⟨⟨path, text⟩, listed, same⟩
      cases same
      exact ⟨path, text, listed, rfl, rfl⟩
    · rintro ⟨path, text, listed, rfl, rfl⟩
      exact ⟨_, listed, rfl⟩
  plain

theorem files_perm (keys : (texts.map Prod.fst).Nodup) : (Sources.ofDisk disk root).files.Perm
    (texts.map fun item => (item.1, .ok item.2)) := by
  have listed : (disk.filesBelow (place disk.here root)).Perm
      (texts.map fun item => (splitParts item.1.text, Text.bytesOf item.2)) := by
    refine (List.perm_ext_iff_of_nodup (layout.tree.filesBelow_nodup _) ?_).mpr ?_
    · refine List.Nodup.map_on ?_ keys.of_map
      intro a first b second same
      refine List.inj_on_of_nodup_map keys first second ?_
      rw [← Sources.pathOf_splitParts a.1, (Prod.mk.inj same).1, Sources.pathOf_splitParts]
    · rintro ⟨names, content⟩
      rw [layout.tree.mem_filesBelow, layout.files, List.mem_map]
      constructor
      · rintro ⟨path, text, member, rfl, rfl⟩
        exact ⟨_, member, rfl⟩
      · rintro ⟨⟨path, text⟩, member, same⟩
        cases same
        exact ⟨path, text, member, rfl, rfl⟩
  rw [Sources.ofDisk_files layout.found]
  refine (listed.map _).trans (List.Perm.of_eq ?_)
  rw [List.map_map]
  refine List.map_congr_left fun item _ => ?_
  rw [Function.comp_apply, Sources.pathOf_splitParts, Sources.contentOf_bytesOf]

/-- In memory the sources have the same files. -/
theorem sameFiles (keys : (texts.map Prod.fst).Nodup) :
    (Sources.ofDisk disk root).SameFiles (.ofTexts texts) := by
  have perm := (layout.files_perm keys).trans (Sources.ofTexts_files_perm keys).symm
  have named : ((Sources.ofDisk disk root).files.map Prod.fst).Nodup := by
    rw [((layout.files_perm keys).map Prod.fst).nodup_iff, List.map_map]
    exact keys
  refine ⟨perm.length_eq, fun path => ?_⟩
  rw [Sources.find?, Sources.find?, find?_key_of_perm perm named]

theorem ofDisk_find? (keys : (texts.map Prod.fst).Nodup) {content : Content} :
    (Sources.ofDisk disk root).find? path = some content ↔ ∃ text, (path, text) ∈ texts ∧ content = .ok text := by
  have perm := layout.files_perm keys
  have named : ((Sources.ofDisk disk root).files.map Prod.fst).Nodup := by
    rw [(perm.map Prod.fst).nodup_iff, List.map_map]
    exact keys
  rw [Sources.find?, Option.map_eq_some_iff]
  constructor
  · rintro ⟨⟨_, _⟩, found, rfl⟩
    obtain ⟨member, rfl⟩ := (find?_key_eq_some named).mp found
    obtain ⟨⟨path, text⟩, listed, same⟩ := List.mem_map.mp (perm.mem_iff.mp member)
    cases same
    exact ⟨text, listed, rfl⟩
  · rintro ⟨text, listed, rfl⟩
    have member := perm.mem_iff.mpr (List.mem_map.mpr ⟨(path, text), listed, rfl⟩)
    exact ⟨(path, .ok text), (find?_key_eq_some named).mpr ⟨member, rfl⟩, rfl⟩

/-- The way to the file of a module leads through folders. -/
theorem locate_ofModule (normal : path.Normal) {text : String} (listed : (path, text) ∈ texts) :
    disk.locate (FilePath.ofModule root path) = .ok (place disk.here root ++ splitParts path.text) := by
  obtain ⟨some, areNames⟩ := FilePath.splitParts_normal normal
  have stands := fileAt?_eq_some.mp ((layout.files _ _).mpr ⟨path, text, listed, rfl, rfl⟩)
  exact layout.tree.locate_names layout.found (fun name member =>
    ⟨FilePath.isFileName_of_name (areNames name member), layout.plain _ listed name member⟩) some stands

/-- The file of a module is there if the module is one of those that are laid out, and only then. -/
theorem find?_ofModule (normal : path.Normal) {content : List UInt8} :
    disk.find? (FilePath.ofModule root path) = some (.file content) ↔
      ∃ text, (path, text) ∈ texts ∧ content = Text.bytesOf text := by
  constructor
  · intro found
    rw [find?] at found
    cases locates : disk.locate (FilePath.ofModule root path) with
    | error fault =>
        rw [locates] at found
        cases found
    | ok spot =>
        rw [locates, locate_eq_ok locates, FilePath.place_ofModule normal] at found
        obtain ⟨other, text, listed, same, content_eq⟩ := (layout.files _ _).mp (fileAt?_eq_some.mpr found)
        have own : path = other := by
          rw [← Sources.pathOf_splitParts path, same, Sources.pathOf_splitParts]
        exact ⟨text, own ▸ listed, content_eq⟩
  · rintro ⟨text, listed, rfl⟩
    rw [find?, layout.locate_ofModule normal listed]
    exact fileAt?_eq_some.mp ((layout.files _ _).mpr ⟨path, text, listed, rfl, rfl⟩)

theorem contains_eq (keys : (texts.map Prod.fst).Nodup) (normal : path.Normal) :
    (Sources.ofDisk disk root).contains path = disk.isFile (FilePath.ofModule root path) := by
  have isFile : disk.isFile (FilePath.ofModule root path) = true ↔
      ∃ content, disk.find? (FilePath.ofModule root path) = some (.file content) := by
    rw [Disk.isFile]
    split <;> simp_all
  rw [Bool.eq_iff_iff, isFile, Sources.contains, Option.isSome_iff_exists]
  simp only [layout.ofDisk_find? keys, layout.find?_ofModule normal]
  constructor
  · rintro ⟨_, text, listed, _⟩
    exact ⟨_, text, listed, rfl⟩
  · rintro ⟨_, text, listed, _⟩
    exact ⟨_, text, listed, rfl⟩

theorem read_eq (keys : (texts.map Prod.fst).Nodup) (normal : path.Normal) :
    (Sources.ofDisk disk root).read path =
      (disk.read (FilePath.ofModule root path)).mapError FileFault.message := by
  cases found : (Sources.ofDisk disk root).find? path with
  | some content =>
      obtain ⟨text, listed, rfl⟩ := (layout.ofDisk_find? keys).mp found
      have stands := fileAt?_eq_some.mp ((layout.files _ _).mpr ⟨path, text, listed, rfl, rfl⟩)
      have reads : disk.read (FilePath.ofModule root path) = .ok text := by
        refine bind_eq_ok.mpr ⟨_, layout.locate_ofModule normal listed, ?_⟩
        rw [stands]
        dsimp only
        rw [Text.bytesOf, Text.decode?_encode, String.ofList_toList]
      rw [Sources.read, found, reads]
      rfl
  | none =>
      rw [Sources.read, found]
      cases reads : disk.read (FilePath.ofModule root path) with
      | error fault =>
          dsimp only [Sources.ofDisk]
          rw [reads]
          rfl
      | ok text =>
          obtain ⟨spot, locates, reads⟩ := bind_eq_ok.mp reads
          split at reads
          · cases reads
          · cases reads
          · rename_i content stands
            have file : disk.find? (FilePath.ofModule root path) = some (.file content) := by
              rw [find?, locates]
              exact stands
            obtain ⟨text, listed, _⟩ := (layout.find?_ofModule normal).mp file
            rw [(layout.ofDisk_find? keys).mpr ⟨text, listed, rfl⟩] at found
            cases found

end Disk.LaysOut

namespace Build

/-- Sources that are laid out on a disk and the same sources in memory have one build, or none for reasons that are
alike. On the disk a path is a module where there is a file, and it is read as that. -/
theorem compile_ofDisk {disk : Disk} {root : String} {texts : List (ModulePath × String)}
    (layout : disk.LaysOut root texts) (keys : (texts.map Prod.fst).Nodup) (options : BuildOptions) :
    Agree BuildError.Alike (compile options (.ofDisk disk root)) (compile options (.ofTexts texts)) ∧
      ∀ path : ModulePath, path.Normal →
        (Sources.ofDisk disk root).contains path = disk.isFile (FilePath.ofModule root path) ∧
          (Sources.ofDisk disk root).read path =
            (disk.read (FilePath.ofModule root path)).mapError FileFault.message :=
  ⟨compile_agree (layout.sameFiles keys) options, fun _ normal =>
    ⟨layout.contains_eq keys normal, layout.read_eq keys normal⟩⟩

/-- A page and a menu below the folder of an application, with an empty folder, and a file beside it. -/
def laidOutDisk : Disk where
  nodes := [
    (["work"], .folder),
    (["work", "notes.js"], .file []),
    (["work", "app"], .folder),
    (["work", "app", "page.js"], .file (Text.bytesOf "import './lib/menu'")),
    (["work", "app", "lib"], .folder),
    (["work", "app", "lib", "old"], .folder),
    (["work", "app", "lib", "menu.ts"], .file (Text.bytesOf "'use client'"))]
  here := ["work"]

def laidOutTexts : List (ModulePath × String) :=
  [(⟨"page.js"⟩, "import './lib/menu'"), (⟨"lib/menu.ts"⟩, "'use client'")]

def laidOutOptions (entry : String) : BuildOptions := ⟨"app", [entry], [], .standard⟩

theorem laidOutDisk_laysOut : laidOutDisk.LaysOut "app" laidOutTexts := by
  apply Disk.LaysOut.of_filesBelow
  · exact Disk.isTree_of_all (by decide) (by decide)
  · exact exists_of_isOk (by decide +kernel)
  · decide +kernel
  · decide +kernel

/-- The page is built the same. A folder is no entry, which the disk says in other words. -/
theorem laidOutDisk_compile : laidOutDisk.LaysOut "app" laidOutTexts ∧ (laidOutTexts.map Prod.fst).Nodup ∧
    (∃ build, compile (laidOutOptions "page.js") (.ofDisk laidOutDisk "app") = .ok build ∧
      compile (laidOutOptions "page.js") (.ofTexts laidOutTexts) = .ok build) ∧
    ∃ e e', compile (laidOutOptions "lib") (.ofDisk laidOutDisk "app") = .error e ∧
      compile (laidOutOptions "lib") (.ofTexts laidOutTexts) = .error e' ∧ e.Alike e' ∧
        e.report.message = "Failed to read module: Is a directory (os error 21)" := by
  have keys : (laidOutTexts.map Prod.fst).Nodup := by decide
  have builds : (compile (laidOutOptions "page.js") (.ofDisk laidOutDisk "app")).isOk = true := by decide +kernel
  have fails : (match compile (laidOutOptions "lib") (.ofDisk laidOutDisk "app") with
      | .error e => some e.report.message
      | .ok _ => none) = some "Failed to read module: Is a directory (os error 21)" := by decide +kernel
  obtain ⟨build, compiles⟩ := exists_of_isOk builds
  have page := (compile_ofDisk laidOutDisk_laysOut keys (laidOutOptions "page.js")).1.of_ok compiles
  refine ⟨laidOutDisk_laysOut, keys, ⟨build, compiles, page⟩, ?_⟩
  split at fails
  · rename_i e refused
    obtain ⟨e', again, alike⟩ := (compile_ofDisk laidOutDisk_laysOut keys (laidOutOptions "lib")).1.of_error refused
    exact ⟨e, e', refused, again, alike, Option.some.inj fails⟩
  · cases fails

end Build

end Realms
