import Realms.Proofs.Classification
import Realms.Proofs.Command.Build
import Realms.Proofs.Discovery
import Realms.Proofs.FilePath
import Realms.Proofs.Partition.Represents

/-!
The modules that `build` names as not reached.
-/
namespace Realms

open FilePath (place)

variable {disk : Disk} {file : String} {config : Config} {made : Build}

/-- A configuration that is accepted lists entries. -/
theorem Config.load_entries (loads : Config.load disk file = .ok config) : config.entries ≠ [] := by
  unfold load at loads
  split at loads
  · cases loads
  · unfold ofText at loads
    split at loads
    · cases loads
    · obtain ⟨_, checks, same⟩ := bind_eq_ok.mp loads
      obtain rfl := pure_eq_ok.mp same
      intro none
      rw [check, none] at checks
      cases checks

/-- An entry of a build is a file below the root. -/
theorem Sources.ofDisk_file {root : String} {path : ModulePath} (normal : path.Normal)
    {source : String} (reads : (ofDisk disk root).read path = .ok source) :
    (∃ spot, disk.locate (rootFolder root) = .ok spot) ∧
      ∃ names content, names ≠ [] ∧ (names, content) ∈ disk.filesBelow (place disk.here root) := by
  rw [read] at reads
  split at reads
  · rename_i content found
    obtain ⟨entry, finds, rfl⟩ := Option.map_eq_some_iff.mp found
    have listed := List.mem_of_find?_eq_some finds
    have known : entry.1 = path := by simpa using List.find?_some finds
    rw [ofDisk] at listed
    dsimp only at listed
    split at listed
    · rename_i spot locates
      obtain ⟨⟨names, bytes⟩, below, rfl⟩ := List.mem_map.mp listed
      rw [Disk.locate_eq_ok locates, (rootFolder_way disk.here root).1] at below
      refine ⟨⟨spot, locates⟩, names, bytes, ?_, below⟩
      rintro rfl
      have isName := (FilePath.splitParts_normal normal).2 "" (by rw [← known]; exact List.mem_singleton.mpr rfl)
      exact isName.nonempty rfl
    · cases listed
  · cases reads

/-- The root of a project that has a build is a folder. -/
theorem Command.compileProject_root (tree : disk.IsTree) (loads : Config.load disk file = .ok config)
    (compiles : compileProject disk config = .ok made) :
    (∃ spot, disk.locate (Sources.rootFolder config.root) = .ok spot) ∧
      disk.node? (place disk.here config.root) = some .folder := by
  obtain ⟨shared, _, h⟩ := bind_eq_ok.mp compiles
  obtain ⟨listed, named, h⟩ := bind_eq_ok.mp h
  obtain ⟨partition, splits, _⟩ := bind_eq_ok.mp h
  have normal := ModulePath.mapM_ofText_normal named
  obtain ⟨entry, member⟩ : ∃ entry, entry ∈ listed := by
    refine List.exists_mem_of_ne_nil listed ?_
    rintro rfl
    obtain ⟨raw, rest, entries⟩ := List.exists_cons_of_ne_nil (Config.load_entries loads)
    have named : config.entries.mapM ModulePath.ofText = .ok [] := named
    rw [entries, List.mapM_cons] at named
    obtain ⟨_, _, named⟩ := bind_eq_ok.mp named
    obtain ⟨_, _, named⟩ := bind_eq_ok.mp named
    cases named
  obtain ⟨entries, lists, _⟩ := bind_eq_ok.mp splits
  have ascending (kind : GraphKind) : (Entries.empty.of kind).Ascending := by
    cases kind <;> exact PathSet.ascending_nil
  obtain ⟨_, all, _⟩ := Project.listedEntries_eq_ok ascending lists
  obtain ⟨record, known⟩ := all entry member
  rw [Project.load] at known
  split at known
  · cases known
  · rename_i source reads
    obtain ⟨found, names, content, below, file⟩ := Sources.ofDisk_file (normal entry member) reads
    exact ⟨found, tree.folder_above below (Disk.fileAt?_eq_some.mp (tree.mem_filesBelow.mp file))⟩

/-- A shared module of a build is one of the server's. -/
theorem Build.shared_mem {options : BuildOptions} {sources : Sources} (compiles : compile options sources = .ok made)
    {path : ModulePath} (shared : path ∈ made.partition.shared) : made.partition.server.contains path = true := by
  obtain ⟨project, listed, round, settled, _, whole, _⟩ := compile_eq_ok compiles
  rw [whole] at shared ⊢
  obtain ⟨known, record, loads, isShared⟩ := Project.realm?_eq_some.mp ((settled.mem_shared path).mp shared)
  have entry := settled.shared_entry known loads isShared
  exact List.contains_iff_mem.mpr ((settled.mem_modules .server path).mpr
    (.entry ((settled.mem_entries .server path).mp entry)))

namespace Partition

variable {partition : Partition} {shared : SharedSet} {path : ModulePath} {source : String} {realm : Realm}

/-- A module that is not declared shared has the realm of its directive. -/
theorem parse?_of_not_mem (unshared : path ∉ shared) :
    ModuleRecord.parse? shared path source = ModuleRecord.parse? [] path source := by
  have realms (named : Realm) : realmFor shared path named = realmFor [] path named := by
    rw [realmFor, realmFor, if_neg (List.contains_iff_mem.not.mpr unshared)]
    rfl
  rw [ModuleRecord.parse?, ModuleRecord.parse?]
  congr 1
  funext script
  simp only [ModuleRecord.ofScript, realms]

theorem misses_iff : partition.Misses shared path source realm ↔
    partition.Misses [] path source realm ∧ path ∉ shared := by
  constructor
  · intro misses
    have unshared : path ∉ shared := by
      intro isShared
      obtain ⟨record, parses, isRealm⟩ := misses.parses
      obtain ⟨found, _, declared⟩ := ModuleRecord.parse?_realm parses
      rw [realmFor, if_pos (List.contains_iff_mem.mpr isShared)] at declared
      have boundary := misses.boundary
      rw [← isRealm, declared] at boundary
      cases boundary
    exact ⟨⟨parse?_of_not_mem unshared ▸ misses.parses, misses.boundary, misses.apart⟩, unshared⟩
  · rintro ⟨misses, unshared⟩
    exact ⟨(parse?_of_not_mem unshared).symm ▸ misses.parses, misses.boundary, misses.apart⟩

end Partition

namespace Command

/-- What `build` says of the modules that it has not reached. -/
structure NamesUnreached (disk : Disk) (config : Config) (made : Build) (shared : SharedSet)
    (found : List DiscoveredModule) : Prop where
  /-- Nothing is searched where no root is written. -/
  unwritten : config.root = "" → found = []
  /-- Else each module file is known by the path that leads to it from the working folder, unless the root is
  absolute, and it is named if it has a directive and no graph contains that path. -/
  known : config.root ≠ "" → ∀ path realm, (∃ one ∈ found, one.path = path ∧ one.realm = realm) ↔
    ∃ names source, disk.HasModule config.root names source ∧
      ModulePath.ofFile config.root (names.foldl FilePath.join config.root) = .ok path ∧
        made.partition.Misses [] path source realm
  /-- Next to a bare root this is the path of the module, and each module is named once. Exactly those that are not
  reached are named if none of them has a directive and is declared shared besides. -/
  bare : FilePath.IsBare config.root →
    (∀ names source, disk.HasModule config.root names source → ∀ name ∈ names, '\\' ∉ name.toList) →
      (found.map (·.path)).Nodup ∧
        ((∀ path realm, (∃ one ∈ found, one.path = path ∧ one.realm = realm) ↔
            ∃ names source, disk.HasModule config.root names source ∧ path = Sources.pathOf names ∧
              made.partition.Misses shared path source realm) ↔
          ∀ names source realm, disk.HasModule config.root names source →
            made.partition.Misses [] (Sources.pathOf names) source realm → Sources.pathOf names ∉ shared)

theorem discoverProject_unwritten (disk : Disk) (made : Build) (empty : config.root = "") :
    (discoverProject disk config made).orphans made.partition = [] := by
  have nothing : Discovery.moduleFiles disk config.root = [] := by
    rw [Discovery.moduleFiles, empty]
    rfl
  simp [discoverProject, Discovery.discover, nothing, Discovery.orphans, Discovery.boundary]

theorem discoverProject_known (tree : disk.IsTree) (named : disk.IsNamed) (loads : Config.load disk file = .ok config)
    (compiles : compileProject disk config = .ok made) (written : config.root ≠ "") (path : ModulePath)
    (realm : Realm) :
    (∃ one ∈ (discoverProject disk config made).orphans made.partition, one.path = path ∧ one.realm = realm) ↔
      ∃ names source, disk.HasModule config.root names source ∧
        ModulePath.ofFile config.root (names.foldl FilePath.join config.root) = .ok path ∧
          made.partition.Misses [] path source realm := by
  obtain ⟨found, folder⟩ := compileProject_root tree loads compiles
  -- A module that no graph contains is not one of the shared modules of the build.
  have own (path : ModulePath) (source : String) : made.partition.Misses made.partition.shared path source realm ↔
      made.partition.Misses [] path source realm := by
    rw [Partition.misses_iff]
    refine and_iff_left_of_imp fun misses isShared => ?_
    have apart := misses.apart _ List.mem_cons_self
    rw [Build.shared_mem compiles isShared] at apart
    cases apart
  rw [discoverProject, Discovery.mem_orphans tree named written found folder]
  simp only [own]

/-- Next to a bare root a module file is known by its own path. -/
theorem ofFile_bare (named : disk.IsNamed) {root : String} (bare : FilePath.IsBare root)
    (plain : ∀ names source, disk.HasModule root names source → ∀ name ∈ names, '\\' ∉ name.toList)
    {names : Place} {source : String} (isModule : disk.HasModule root names source) :
    (∀ name ∈ names, FilePath.IsFileName name) ∧
      ModulePath.ofFile root (names.foldl FilePath.join root) = .ok (Sources.pathOf names) := by
  obtain ⟨content, stands, _⟩ := isModule.reads
  have areNames : ∀ name ∈ names, FilePath.IsFileName name := fun name member =>
    (named.of_node? (Disk.fileAt?_eq_some.mp stands) name (List.mem_append_right _ member)).1
  exact ⟨areNames, bare.ofFile (Discovery.isWanted_ne_nil isModule.wanted) fun name member =>
    (areNames name member).isName (plain names source isModule name member)⟩

/-- Modules of different files have different paths, so none is named twice. -/
theorem discoverProject_nodup (tree : disk.IsTree) (named : disk.IsNamed) (loads : Config.load disk file = .ok config)
    (compiles : compileProject disk config = .ok made) (bare : FilePath.IsBare config.root)
    (plain : ∀ names source, disk.HasModule config.root names source → ∀ name ∈ names, '\\' ∉ name.toList) :
    (((discoverProject disk config made).orphans made.partition).map (·.path)).Nodup := by
  obtain ⟨found, folder⟩ := compileProject_root tree loads compiles
  have locates := Sources.locate_root bare.ne_empty found
  have own {names : Place} (listed : names ∈ Discovery.wantedNames disk (place disk.here config.root))
      {one : DiscoveredModule} (finds : Discovery.orphan? disk made.partition config.root names = some one) :
      names ≠ [] ∧ (∀ name ∈ names, FilePath.IsFileName name) ∧ one.path = Sources.pathOf names := by
    obtain ⟨source, isModule, known, _⟩ :=
      (Discovery.orphan?_module tree named found listed).mp ⟨one, finds, rfl, rfl⟩
    obtain ⟨areNames, knows⟩ := ofFile_bare named bare plain isModule
    exact ⟨Discovery.isWanted_ne_nil isModule.wanted, areNames, Except.ok.inj (known.symm.trans knows)⟩
  rw [discoverProject, Discovery.orphans_eq locates folder, ((List.mergeSort_perm _ _).map _).nodup_iff,
    List.Nodup, List.pairwise_map, List.pairwise_filterMap]
  have nodup := ((List.mergeSort_perm _ Discovery.placeLe).nodup_iff).mpr
    (Discovery.wantedNames_nodup tree (place disk.here config.root))
  refine nodup.imp_of_mem fun {a b} first second different one finds other otherFinds same => different ?_
  obtain ⟨below, areNames, isPath⟩ := own (List.mem_mergeSort.mp first) finds
  obtain ⟨otherBelow, otherNames, otherPath⟩ := own (List.mem_mergeSort.mp second) otherFinds
  exact Sources.pathOf_injective below otherBelow areNames otherNames (by rw [← isPath, ← otherPath, same])

theorem run_build_errors (loads : Config.load disk file = .ok config) (compiles : compileProject disk config = .ok made)
    (succeeds : (run disk (.build file)).2.exitCode = 0) :
    (run disk (.build file)).2.errors = warningLines disk config made := by
  rw [run_build] at succeeds ⊢
  obtain ⟨_, _, _, loads', compiles', _, result⟩ := buildProject_succeeds succeeds
  obtain rfl := Except.ok.inj (loads.symm.trans loads')
  obtain rfl := Except.ok.inj (compiles.symm.trans compiles')
  exact congrArg (·.2.errors) result

/-- A build without warnings of its own shows the modules that it names, if the files can be listed in order. -/
theorem run_build_errors_of_sorted (tree : disk.IsTree) (loads : Config.load disk file = .ok config)
    (compiles : compileProject disk config = .ok made) (succeeds : (run disk (.build file)).2.exitCode = 0)
    (quiet : made.emission.warnings.length = 0) {spot : Place} (locates : disk.locate config.root = .ok spot)
    (folder : disk.node? spot = some .folder) {places : List Place}
    (perm : (Discovery.wantedNames disk spot).Perm places) (sorted : places.Pairwise (Discovery.placeLe · ·))
    {found : List DiscoveredModule}
    (finds : places.filterMap (Discovery.orphan? disk made.partition config.root) = found)
    (ordered : found.Pairwise (Discovery.pathLe · ·)) : (run disk (.build file)).2.errors = found.map orphanLine := by
  have orphans : (discoverProject disk config made).orphans made.partition = found :=
    Discovery.orphans_eq_of_sorted tree locates folder perm sorted finds ordered
  rw [run_build_errors loads compiles succeeds, warningLines, List.length_eq_zero_iff.mp quiet, orphans]
  rfl

/-- The warnings of a build name the modules that are not reached. -/
theorem run_build_orphans (tree : disk.IsTree) (named : disk.IsNamed) (loads : Config.load disk file = .ok config)
    (succeeds : (run disk (.build file)).2.exitCode = 0) : ∃ made shared found,
      compileProject disk config = .ok made ∧ config.shared.mapM ModulePath.ofText = .ok shared ∧
        (run disk (.build file)).2.errors =
          (made.emission.warnings.map fun e => "warning: " ++ e.display) ++ found.map orphanLine ∧
            NamesUnreached disk config made (PathSet.ofList shared) found := by
  obtain ⟨_, made, _, loads', compiles, _⟩ := buildProject_succeeds (run_build ▸ succeeds)
  obtain rfl := Except.ok.inj (loads.symm.trans loads')
  obtain ⟨shared, isShared, _⟩ := bind_eq_ok.mp compiles
  refine ⟨made, shared, _, compiles, isShared, run_build_errors loads compiles succeeds, ?_⟩
  have known := discoverProject_known tree named loads compiles
  exact {
    unwritten := discoverProject_unwritten disk made
    known
    bare := fun bare plain => by
      refine ⟨discoverProject_nodup tree named loads compiles bare plain, ?_⟩
      have own (path : ModulePath) (realm : Realm) :
          (∃ one ∈ (discoverProject disk config made).orphans made.partition, one.path = path ∧ one.realm = realm) ↔
            ∃ names source, disk.HasModule config.root names source ∧ path = Sources.pathOf names ∧
              made.partition.Misses [] path source realm := by
        rw [known bare.ne_empty path realm]
        refine exists₂_congr fun names source => and_congr_right fun isModule => ?_
        rw [(ofFile_bare named bare plain isModule).2, Except.ok.injEq, eq_comm]
      simp only [own, @Partition.misses_iff made.partition (PathSet.ofList shared)]
      constructor
      · intro exact names source realm isModule misses
        obtain ⟨_, _, _, same, _, unshared⟩ :=
          (exact (Sources.pathOf names) realm).mp ⟨names, source, isModule, rfl, misses⟩
        exact unshared
      · rintro undeclared path realm
        refine exists₂_congr fun names source => and_congr_right fun isModule => and_congr_right ?_
        rintro rfl
        exact (and_iff_left_of_imp (undeclared names source realm isModule)).symm }

/-- A page and its state, which is declared shared, and an action that nothing imports. -/
def statefulProject : Disk where
  nodes := [
    (["work"], .folder),
    (["work", "realm.toml"], .file (Text.bytesOf "entries = ['page.js']\nshared = ['state.js']")),
    (["work", "old"], .folder),
    (["work", "old", "list.js"], .file (Text.bytesOf "'use server'")),
    (["work", "page.js"], .file (Text.bytesOf "import './state'")),
    (["work", "state.js"], .file (Text.bytesOf "'use client'"))]
  here := ["work"]

def statefulConfig : Config := ⟨"/work/.", ["page.js"], ["state.js"], "/work/dist", "/__realm", none, none, .error⟩

theorem statefulProject_wanted : Discovery.wantedNames statefulProject ["work"] =
    [["old", "list.js"], ["page.js"], ["state.js"]] := by
  decide +kernel

theorem statefulProject_orphans : statefulProject.IsTree ∧ statefulProject.IsNamed ∧
    Config.load statefulProject "/work/realm.toml" = .ok statefulConfig ∧
      (run statefulProject (.build "/work/realm.toml")).2.exitCode = 0 ∧
        (run statefulProject (.build "/work/realm.toml")).2.errors =
          ["warning: serverFunction module old/list.js is not reachable from any entry"] ∧
        ∃ made shared, ∃ found : List DiscoveredModule, compileProject statefulProject statefulConfig = .ok made ∧
          statefulConfig.shared.mapM ModulePath.ofText = .ok shared ∧
            ∀ path realm, (∃ one ∈ found, one.path = path ∧ one.realm = realm) ↔
              ∃ names source, statefulProject.HasModule statefulConfig.root names source ∧
                path = Sources.pathOf names ∧
                  made.partition.Misses (PathSet.ofList shared) path source realm := by
  have tree : statefulProject.IsTree := Disk.isTree_of_all (by decide) (by decide +kernel)
  have named : statefulProject.IsNamed := Disk.isNamed_of_all (by decide +kernel)
  have loads : Config.load statefulProject "/work/realm.toml" = .ok statefulConfig :=
    toOption_eq_some.mp (by decide +kernel)
  have looks : (compileProject statefulProject statefulConfig).toOption.map (fun made =>
      (made.files.map Prod.fst, made.emission.warnings.length, made.partition.server.contains ⟨"state.js"⟩,
        (Discovery.wantedNames statefulProject ["work"]).filterMap
          (Discovery.orphan? statefulProject made.partition statefulConfig.root))) =
      some ([["server", "page.js"], ["server", "state.js"], ["manifest.json"]], 0, true,
        [⟨⟨"old/list.js"⟩, .serverFunction, [], false⟩]) := by decide +kernel
  obtain ⟨made, compiles, seen⟩ := exists_of_toOption looks
  simp only [Prod.mk.injEq] at seen
  obtain ⟨places, quiet, reached, finds⟩ := seen
  have receives : Build.Receives statefulProject "/work/dist" :=
    Build.receives_of_lookup (by decide)
      (show FilePath.withoutSlashes "/work/dist" = FilePath.join "/work" "dist" by decide)
      (by decide +kernel) (by decide +kernel) (by decide +kernel)
  have succeeds := run_build_isOk tree loads compiles (Build.writable_of_places places (by decide) (by decide)) receives
  obtain ⟨_, shared, found, again, isShared, _, unreached⟩ := run_build_orphans tree named loads succeeds
  obtain rfl := Except.ok.inj (compiles.symm.trans again)
  have listed {names : Place} {source : String}
      (isModule : statefulProject.HasModule statefulConfig.root names source) :
      names ∈ [["old", "list.js"], ["page.js"], ["state.js"]] := by
    have isRoot : place statefulProject.here statefulConfig.root = ["work"] := by decide +kernel
    rw [← statefulProject_wanted, ← isRoot]
    exact isModule.mem_wantedNames tree
  refine ⟨tree, named, loads, succeeds, ?_, made, shared, found, compiles, isShared, ?_⟩
  · exact run_build_errors_of_sorted tree loads compiles succeeds quiet (toOption_eq_some.mp (by decide +kernel))
      (by decide) (.refl _) (by rw [statefulProject_wanted]; decide +kernel) finds (List.pairwise_singleton _ _)
  · refine ((unreached.bare (.inl (by decide)) ?_).2).mpr ?_
    · intro names source isModule
      have plain : ∀ names ∈ [["old", "list.js"], ["page.js"], ["state.js"]], ∀ name ∈ names, '\\' ∉ name.toList := by
        decide
      exact plain names (listed isModule)
    · intro names source realm isModule misses declared
      have shares : statefulConfig.shared.mapM ModulePath.ofText = .ok [⟨"state.js"⟩] :=
        toOption_eq_some.mp (by decide +kernel)
      obtain rfl := Except.ok.inj (isShared.symm.trans shares)
      have isState : Sources.pathOf names = ⟨"state.js"⟩ := List.mem_singleton.mp (PathSet.mem_ofList.mp declared)
      have apart := misses.apart _ List.mem_cons_self
      rw [isState, reached] at apart
      cases apart

/-- A page below a root that is not absolute. -/
def relativeRoot : Disk where
  nodes := [
    (["work"], .folder),
    (["work", "realm.toml"], .file (Text.bytesOf "root = 'src'\nentries = ['page.js']")),
    (["work", "src"], .folder),
    (["work", "src", "page.js"], .file (Text.bytesOf "'use client'"))]
  here := ["work"]

def relativeConfig : Config := ⟨"src", ["page.js"], [], "dist", "/__realm", none, none, .error⟩

/-- There the page is part of the build, and it is named as a module that is not. -/
theorem relativeRoot_misnamed : Config.load relativeRoot "realm.toml" = .ok relativeConfig ∧
    (run relativeRoot (.build "realm.toml")).2.exitCode = 0 ∧
      (run relativeRoot (.build "realm.toml")).2.errors =
        ["warning: client module src/page.js is not reachable from any entry"] ∧
      ∃ made, compileProject relativeRoot relativeConfig = .ok made ∧
        made.partition.client.contains ⟨"page.js"⟩ = true ∧
          ∀ names source realm, relativeRoot.HasModule relativeConfig.root names source →
            names = ["page.js"] ∧ ¬ made.partition.Misses [] (Sources.pathOf names) source realm := by
  have tree : relativeRoot.IsTree := Disk.isTree_of_all (by decide) (by decide +kernel)
  have loads : Config.load relativeRoot "realm.toml" = .ok relativeConfig := toOption_eq_some.mp (by decide +kernel)
  have isRoot : place relativeRoot.here relativeConfig.root = ["work", "src"] := by decide +kernel
  have wanted : Discovery.wantedNames relativeRoot ["work", "src"] = [["page.js"]] := by decide +kernel
  have looks : (compileProject relativeRoot relativeConfig).toOption.map (fun made =>
      (made.files.map Prod.fst, made.emission.warnings.length, made.partition.client.contains ⟨"page.js"⟩,
        (Discovery.wantedNames relativeRoot ["work", "src"]).filterMap
          (Discovery.orphan? relativeRoot made.partition relativeConfig.root))) =
      some ([["server", "page.js"], ["client", "page.js"], ["manifest.json"]], 0, true,
        [⟨⟨"src/page.js"⟩, .client, [], false⟩]) := by decide +kernel
  obtain ⟨made, compiles, seen⟩ := exists_of_toOption looks
  simp only [Prod.mk.injEq] at seen
  obtain ⟨places, quiet, reached, finds⟩ := seen
  have receives : Build.Receives relativeRoot "dist" :=
    Build.receives_of_lookup (by decide)
      (show FilePath.withoutSlashes "dist" = FilePath.join "" "dist" by decide)
      (by decide +kernel) (by decide +kernel) (by decide +kernel)
  have succeeds := run_build_isOk tree loads compiles (Build.writable_of_places places (by decide) (by decide)) receives
  refine ⟨loads, succeeds, ?_, made, compiles, reached, ?_⟩
  · exact run_build_errors_of_sorted tree loads compiles succeeds quiet (toOption_eq_some.mp (by decide +kernel))
      (by decide) (.refl _) (by rw [wanted]; exact List.pairwise_singleton _ _) finds (List.pairwise_singleton _ _)
  · intro names source realm isModule
    have listed := isModule.mem_wantedNames tree
    rw [isRoot, wanted] at listed
    have isPage : names = ["page.js"] := List.mem_singleton.mp listed
    refine ⟨isPage, fun misses => ?_⟩
    have path : Sources.pathOf names = ⟨"page.js"⟩ := by
      rw [isPage]
      decide +kernel
    have apart := misses.apart _ (List.mem_cons_of_mem _ List.mem_cons_self)
    rw [path, reached] at apart
    cases apart

end Command

end Realms
