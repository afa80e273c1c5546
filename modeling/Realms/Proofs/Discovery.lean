import Mathlib.Data.List.Lex
import Realms.Discovery
import Realms.Proofs.Sources.OfDisk

/-!
What a search for modules finds that a build has not reached. Each file below the root is looked at for itself, so what
is found is a matter of single files, and sorting it afterwards leaves nothing out and adds nothing.
-/
namespace Realms

/-- What is left of a sorted list is sorted as it would be alone. -/
theorem filter_mergeSort {α : Type} {le : α → α → Bool}
    (trans : ∀ a b c, le a b = true → le b c = true → le a c = true)
    (total : ∀ a b, (le a b || le b a) = true) (keep : α → Bool) (items : List α) :
    (items.mergeSort le).filter keep = (items.filter keep).mergeSort le := by
  -- An item stands behind those of the sorted rest that it is not below, so its place is found by looking at them.
  have split {a : α} {front back : List α} (before : ∀ b ∈ front, (!le a b) = true)
      (sorted : (front ++ a :: back).Pairwise fun a b => le a b = true) :
      front = (front ++ back).takeWhile (!le a ·) ∧ back = (front ++ back).dropWhile (!le a ·) := by
    have behind : ∀ b ∈ back, (!le a b) = false := fun b member => by
      simpa using (List.pairwise_cons.mp (List.pairwise_append.mp sorted).2.1).1 b member
    rw [List.takeWhile_append_of_pos before, List.dropWhile_append_of_pos before]
    cases back with
    | nil => simp
    | cons b back => simp [behind b List.mem_cons_self]
  induction items with
  | nil => simp
  | cons a rest ih =>
      obtain ⟨front, back, whole, others, before⟩ := List.mergeSort_cons trans total a rest
      rw [others, List.filter_append] at ih
      cases kept : keep a with
      | false =>
          rw [List.filter_cons_of_neg (by simp [kept]), ← ih, whole, List.filter_append,
            List.filter_cons_of_neg (by simp [kept])]
      | true =>
          obtain ⟨front', back', whole', others', before'⟩ := List.mergeSort_cons trans total a (rest.filter keep)
          have sorted := List.pairwise_mergeSort trans total (a :: rest)
          have sorted' := List.pairwise_mergeSort trans total (a :: rest.filter keep)
          rw [whole] at sorted
          rw [whole'] at sorted'
          have first := @split a (front.filter keep) (back.filter keep)
            (fun b member => before b (List.mem_filter.mp member).1)
            (by simpa [kept] using sorted.filter keep)
          have second := split before' sorted'
          rw [← others', ← ih] at second
          rw [List.filter_cons_of_pos kept, whole', whole, List.filter_append, List.filter_cons_of_pos kept,
            first.1.trans second.1.symm, first.2.trans second.2.symm]

namespace Discovery

/-! ### The orders of files and of modules -/

theorem placeLe_iff {as bs : Place} : placeLe as bs = true ↔ as ≤ bs := by
  refine Iff.trans ?_ not_lt
  induction as generalizing bs with
  | nil => simp [placeLe]
  | cons a as ih =>
      cases bs with
      | nil => simp [placeLe]
      | cons b bs =>
          rw [placeLe, List.cons_lt_cons_iff]
          rcases lt_trichotomy a b with less | same | more
          · simp [less, less.not_gt, less.ne']
          · subst same
            simp [ih]
          · simp [more, more.not_gt]

theorem placeLe_trans (a b c : Place) (first : placeLe a b = true) (second : placeLe b c = true) :
    placeLe a c = true :=
  placeLe_iff.mpr (le_trans (placeLe_iff.mp first) (placeLe_iff.mp second))

theorem placeLe_total (a b : Place) : (placeLe a b || placeLe b a) = true := by
  rw [Bool.or_eq_true, placeLe_iff, placeLe_iff]
  exact le_total a b

theorem pathLe_trans (a b c : DiscoveredModule) (first : pathLe a b = true) (second : pathLe b c = true) :
    pathLe a c = true :=
  decide_eq_true (le_trans (of_decide_eq_true first) (of_decide_eq_true second))

theorem pathLe_total (a b : DiscoveredModule) : (pathLe a b || pathLe b a) = true := by
  rw [Bool.or_eq_true]
  exact (le_total a.path.text b.path.text).imp decide_eq_true decide_eq_true

/-! ### The files -/

/-- The module files below a place, by the names that lead to them from it. -/
def wantedNames (disk : Disk) (spot : Place) : List Place :=
  ((disk.filesBelow spot).map Prod.fst).filter isWanted

variable {disk : Disk} {spot names : Place} {root : String} {shared : SharedSet} {partition : Partition}

theorem mem_wantedNames (tree : disk.IsTree) : names ∈ wantedNames disk spot ↔
    isWanted names = true ∧ ∃ content, disk.fileAt? (spot ++ names) = some content := by
  rw [wantedNames, List.mem_filter, and_comm, List.mem_map]
  refine and_congr_right fun _ => ⟨?_, fun ⟨content, stands⟩ => ?_⟩
  · rintro ⟨⟨_, content⟩, listed, rfl⟩
    exact ⟨content, tree.mem_filesBelow.mp listed⟩
  · exact ⟨(names, content), tree.mem_filesBelow.mpr stands, rfl⟩

theorem wantedNames_nodup (tree : disk.IsTree) (spot : Place) : (wantedNames disk spot).Nodup := by
  refine List.Nodup.filter _ (List.Nodup.map_on ?_ (tree.filesBelow_nodup spot))
  rintro ⟨a, content⟩ first ⟨b, other⟩ second rfl
  have same := (tree.mem_filesBelow.mp first).symm.trans (tree.mem_filesBelow.mp second)
  rw [Option.some.inj same]

theorem moduleFiles_eq (locates : disk.locate root = .ok spot) (folder : disk.node? spot = some .folder) :
    moduleFiles disk root =
      ((wantedNames disk spot).mergeSort placeLe).map fun names => names.foldl FilePath.join root := by
  rw [moduleFiles, locates]
  dsimp only
  rw [folder]
  rfl

/-! ### What is found in them -/

theorem foldl_add_modules (results : List (Except BuildError DiscoveredModule)) (found : Discovery) :
    (results.foldl add found).modules = found.modules ++ results.filterMap Except.toOption := by
  induction results generalizing found with
  | nil => simp
  | cons result rest ih =>
      rw [List.foldl_cons, ih]
      cases result <;> simp [add, Except.toOption, List.filterMap_cons]

/-- What a file holds that no graph of a partition contains. -/
def orphan? (disk : Disk) (partition : Partition) (root : String) (names : Place) : Option DiscoveredModule :=
  (discoverFile disk partition.shared root (names.foldl FilePath.join root)).toOption.filter fun one =>
    one.realm.isBoundary && !partition.graphs.any (·.contains one.path)

/-- What is not reached below a folder: what is not reached of its files, one by one. -/
theorem orphans_eq (locates : disk.locate root = .ok spot) (folder : disk.node? spot = some .folder) :
    (discover disk partition.shared root).orphans partition =
      (((wantedNames disk spot).mergeSort placeLe).filterMap (orphan? disk partition root)).mergeSort pathLe := by
  have modules : (discover disk partition.shared root).modules =
      (((wantedNames disk spot).mergeSort placeLe).filterMap fun names =>
        (discoverFile disk partition.shared root (names.foldl FilePath.join root)).toOption).mergeSort pathLe := by
    rw [discover]
    dsimp only
    rw [foldl_add_modules, moduleFiles_eq locates folder, List.nil_append, List.map_map, List.filterMap_map]
    rfl
  rw [orphans, boundary, List.filter_filter, modules, filter_mergeSort pathLe_trans pathLe_total, List.filter_filterMap]
  congr 2
  funext names
  rw [orphan?]
  congr 1
  funext one
  exact Bool.and_comm _ _

/-- Lists of the same places, without repeats, are sorted alike. -/
theorem mergeSort_placeLe_eq {a b : List Place} (nodup : a.Nodup) (otherNodup : b.Nodup)
    (same : ∀ names, names ∈ a ↔ names ∈ b) : a.mergeSort placeLe = b.mergeSort placeLe := by
  have perm := (List.perm_ext_iff_of_nodup nodup otherNodup).mpr same
  refine List.Perm.eq_of_pairwise ?_ (List.pairwise_mergeSort placeLe_trans placeLe_total a)
    (List.pairwise_mergeSort placeLe_trans placeLe_total b)
    ((List.mergeSort_perm a _).trans (perm.trans (List.mergeSort_perm b _).symm))
  exact fun first second _ _ above below => le_antisymm (placeLe_iff.mp above) (placeLe_iff.mp below)

/-- Two disks on which the same files hold what is not reached. -/
theorem orphans_congr {other : Disk} {otherSpot : Place} (tree : disk.IsTree) (otherTree : other.IsTree)
    (locates : disk.locate root = .ok spot) (folder : disk.node? spot = some .folder)
    (otherLocates : other.locate root = .ok otherSpot) (otherFolder : other.node? otherSpot = some .folder)
    (same : ∀ names one, names ∈ wantedNames other otherSpot ∧ orphan? other partition root names = some one ↔
      names ∈ wantedNames disk spot ∧ orphan? disk partition root names = some one) :
    (discover other partition.shared root).orphans partition =
      (discover disk partition.shared root).orphans partition := by
  -- Files that hold nothing of the kind can be left out before they are sorted.
  have short (disk : Disk) (names : List Place) :
      (names.mergeSort placeLe).filterMap (orphan? disk partition root) =
        ((names.filter fun names => (orphan? disk partition root names).isSome).mergeSort placeLe).filterMap
          (orphan? disk partition root) := by
    rw [← filter_mergeSort placeLe_trans placeLe_total, List.filterMap_filter]
    congr 1
    funext names
    cases orphan? disk partition root names <;> rfl
  have holds (disk : Disk) (spot names : Place) :
      names ∈ (wantedNames disk spot).filter (fun names => (orphan? disk partition root names).isSome) ↔
        ∃ one, names ∈ wantedNames disk spot ∧ orphan? disk partition root names = some one := by
    rw [List.mem_filter, Option.isSome_iff_exists, exists_and_left]
  have places : ((wantedNames other otherSpot).filter fun names =>
      (orphan? other partition root names).isSome).mergeSort placeLe =
        ((wantedNames disk spot).filter fun names => (orphan? disk partition root names).isSome).mergeSort placeLe := by
    refine mergeSort_placeLe_eq ((wantedNames_nodup otherTree _).filter _) ((wantedNames_nodup tree _).filter _) ?_
    intro names
    rw [holds, holds]
    exact exists_congr fun one => same names one
  rw [orphans_eq otherLocates otherFolder, orphans_eq locates folder, short, short disk, places]
  congr 1
  refine List.filterMap_congr fun names listed => ?_
  obtain ⟨one, found⟩ := (holds disk spot names).mp (List.mem_mergeSort.mp listed)
  rw [found.2, ((same names one).mpr found).2]

/-- What is not reached in files that can be listed in order. -/
theorem orphans_eq_of_sorted (tree : disk.IsTree) (locates : disk.locate root = .ok spot)
    (folder : disk.node? spot = some .folder) {places : List Place} (perm : (wantedNames disk spot).Perm places)
    (sorted : places.Pairwise (placeLe · ·)) {found : List DiscoveredModule}
    (finds : places.filterMap (orphan? disk partition root) = found) (ordered : found.Pairwise (pathLe · ·)) :
    (discover disk partition.shared root).orphans partition = found := by
  have nodup := wantedNames_nodup tree spot
  rw [orphans_eq locates folder, mergeSort_placeLe_eq nodup (perm.nodup_iff.mp nodup) fun _ => perm.mem_iff,
    List.mergeSort_of_pairwise sorted, finds, List.mergeSort_of_pairwise ordered]

end Discovery

/-- A source is a module of a boundary realm that no graph of a partition contains. -/
structure Partition.Misses (partition : Partition) (shared : SharedSet) (path : ModulePath) (source : String)
    (realm : Realm) : Prop where
  parses : ∃ record, ModuleRecord.parse? shared path source = some record ∧ record.realm = realm
  boundary : realm.isBoundary = true
  apart : ∀ graph ∈ partition.graphs, graph.contains path = false

/-- A module file below a root: the names that lead to it from there, and its text. -/
structure Disk.HasModule (disk : Disk) (root : String) (names : Place) (source : String) : Prop where
  wanted : Discovery.isWanted names = true
  reads : ∃ content, disk.fileAt? (FilePath.place disk.here root ++ names) = some content ∧
    Text.decode? content = some source

theorem Disk.HasModule.mem_wantedNames {disk : Disk} {root source : String} {names : Place} (tree : disk.IsTree)
    (isModule : disk.HasModule root names source) :
    names ∈ Discovery.wantedNames disk (FilePath.place disk.here root) := by
  obtain ⟨content, file, _⟩ := isModule.reads
  exact (Discovery.mem_wantedNames tree).mpr ⟨isModule.wanted, content, file⟩

namespace Discovery

variable {disk : Disk} {spot names : Place} {root : String} {shared : SharedSet} {partition : Partition}
  {path : ModulePath} {source : String} {realm : Realm}

theorem isWanted_ne_nil (wanted : isWanted names = true) : names ≠ [] := by
  rintro rfl
  cases wanted

theorem discoverFile_eq_ok {file : String} {one : DiscoveredModule} :
    discoverFile disk shared root file = .ok one ↔ ∃ path source record, ModulePath.ofFile root file = .ok path ∧
      disk.read file = .ok source ∧ ModuleRecord.parse? shared path source = some record ∧
        one = ⟨path, record.realm, record.exports.map (·.name), record.defaultExport.isSome⟩ := by
  rw [discoverFile, bind_eq_ok]
  refine exists_congr fun path => ?_
  cases reads : disk.read file with
  | error fault => simp
  | ok source =>
      cases parses : ModuleRecord.parse? shared path source with
      | none => simp [parses]
      | some record => simp [parses, pure, Except.pure, eq_comm]

theorem orphan?_eq_some {one : DiscoveredModule} : orphan? disk partition root names = some one ↔
    discoverFile disk partition.shared root (names.foldl FilePath.join root) = .ok one ∧
      one.realm.isBoundary = true ∧ ∀ graph ∈ partition.graphs, graph.contains one.path = false := by
  rw [orphan?, Option.filter_eq_some_iff, toOption_eq_some]
  simp

/-- A module file is read where it stands. -/
theorem read_file (tree : disk.IsTree) (named : disk.IsNamed)
    (found : ∃ spot, disk.locate (Sources.rootFolder root) = .ok spot) (wanted : isWanted names = true)
    {content : List UInt8} (stands : disk.node? (FilePath.place disk.here root ++ names) = some (.file content)) :
    disk.read (names.foldl FilePath.join root) = (Text.decode? content).elim (.error .badText) .ok := by
  have locates := tree.locate_names found (named.of_below stands) (isWanted_ne_nil wanted) stands
  rw [Disk.read, locates]
  simp only [bind, Except.bind, stands]
  cases Text.decode? content with
  | none => rfl
  | some source => rfl

theorem read_names (tree : disk.IsTree) (named : disk.IsNamed)
    (found : ∃ spot, disk.locate (Sources.rootFolder root) = .ok spot)
    (listed : names ∈ wantedNames disk (FilePath.place disk.here root)) :
    disk.read (names.foldl FilePath.join root) = .ok source ↔ disk.HasModule root names source := by
  obtain ⟨wanted, content, file⟩ := (mem_wantedNames tree).mp listed
  have reads : disk.read (names.foldl FilePath.join root) = .ok source ↔ Text.decode? content = some source := by
    rw [read_file tree named found wanted (Disk.fileAt?_eq_some.mp file)]
    cases Text.decode? content <;> simp
  rw [reads]
  constructor
  · intro decodes
    exact ⟨wanted, content, file, decodes⟩
  · rintro ⟨_, other, same, decodes⟩
    rwa [Option.some.inj (file.symm.trans same)]

/-- What is found under names that are looked for is found in a file. -/
theorem mem_wantedNames_of_orphan? (tree : disk.IsTree) (areNames : ∀ name ∈ names, FilePath.IsFileName name)
    (wanted : isWanted names = true) {one : DiscoveredModule} (finds : orphan? disk partition root names = some one) :
    names ∈ wantedNames disk (FilePath.place disk.here root) := by
  obtain ⟨_, _, _, _, reads, _⟩ := discoverFile_eq_ok.mp (orphan?_eq_some.mp finds).1
  obtain ⟨spot, locates, reads⟩ := bind_eq_ok.mp reads
  rw [Disk.locate_eq_ok locates, FilePath.place_foldl_join areNames] at reads
  split at reads
  · cases reads
  · cases reads
  · rename_i content stands
    exact (mem_wantedNames tree).mpr ⟨wanted, content, Disk.fileAt?_eq_some.mpr stands⟩

/-- Files that are read alike hold the same. -/
theorem orphan?_congr {other : Disk} {one : DiscoveredModule}
    (same : ∀ source, other.read (names.foldl FilePath.join root) = .ok source ↔
      disk.read (names.foldl FilePath.join root) = .ok source) :
    orphan? other partition root names = some one ↔ orphan? disk partition root names = some one := by
  simp only [orphan?_eq_some, discoverFile_eq_ok, same]

/-- A search looks at wanted files alone: where such a file is the same, the same is found under its names. -/
theorem orphan?_of_fileAt? {other : Disk} {one : DiscoveredModule} (tree : disk.IsTree) (named : disk.IsNamed)
    (found : ∃ spot, disk.locate (Sources.rootFolder root) = .ok spot) (otherTree : other.IsTree)
    (otherNamed : other.IsNamed) (otherFound : ∃ spot, other.locate (Sources.rootFolder root) = .ok spot)
    (here : other.here = disk.here) (file : isWanted names = true →
      other.fileAt? (FilePath.place disk.here root ++ names) = disk.fileAt? (FilePath.place disk.here root ++ names)) :
    names ∈ wantedNames other (FilePath.place disk.here root) ∧ orphan? other partition root names = some one ↔
      names ∈ wantedNames disk (FilePath.place disk.here root) ∧ orphan? disk partition root names = some one := by
  have listed : names ∈ wantedNames other (FilePath.place disk.here root) ↔
      names ∈ wantedNames disk (FilePath.place disk.here root) := by
    rw [mem_wantedNames otherTree, mem_wantedNames tree]
    exact and_congr_right fun wanted => by rw [file wanted]
  rw [listed]
  refine and_congr_right fun isListed => orphan?_congr fun source => ?_
  have file := file ((mem_wantedNames tree).mp isListed).1
  have listedAgain : names ∈ wantedNames other (FilePath.place other.here root) := by
    rw [here]
    exact listed.mpr isListed
  rw [read_names tree named found isListed, read_names otherTree otherNamed otherFound listedAgain]
  rw [← here] at file
  constructor
  · rintro ⟨wanted, content, stands, decodes⟩
    exact ⟨wanted, content, here ▸ file.symm.trans stands, decodes⟩
  · rintro ⟨wanted, content, stands, decodes⟩
    exact ⟨wanted, content, file.trans (here.symm ▸ stands), decodes⟩

/-- So what is not reached is the same on two disks with the same wanted files. -/
theorem orphans_of_fileAt? {other : Disk} (written : root ≠ "") (tree : disk.IsTree) (named : disk.IsNamed)
    (found : ∃ spot, disk.locate (Sources.rootFolder root) = .ok spot)
    (folder : disk.node? (FilePath.place disk.here root) = some .folder) (otherTree : other.IsTree)
    (otherNamed : other.IsNamed) (otherFound : ∃ spot, other.locate (Sources.rootFolder root) = .ok spot)
    (otherFolder : other.node? (FilePath.place disk.here root) = some .folder) (here : other.here = disk.here)
    (file : ∀ names, isWanted names = true →
      other.fileAt? (FilePath.place disk.here root ++ names) = disk.fileAt? (FilePath.place disk.here root ++ names)) :
    (discover other partition.shared root).orphans partition =
      (discover disk partition.shared root).orphans partition := by
  have otherLocates := Sources.locate_root written otherFound
  rw [here] at otherLocates
  exact orphans_congr tree otherTree (Sources.locate_root written found) folder otherLocates otherFolder fun names one =>
    orphan?_of_fileAt? tree named found otherTree otherNamed otherFound here (file names)

/-- A module that was found is that of a file, under the path that this is known by. -/
theorem orphan?_module (tree : disk.IsTree) (named : disk.IsNamed)
    (found : ∃ spot, disk.locate (Sources.rootFolder root) = .ok spot)
    (listed : names ∈ wantedNames disk (FilePath.place disk.here root)) :
    (∃ one, orphan? disk partition root names = some one ∧ one.path = path ∧ one.realm = realm) ↔
      ∃ source, disk.HasModule root names source ∧
        ModulePath.ofFile root (names.foldl FilePath.join root) = .ok path ∧
          partition.Misses partition.shared path source realm := by
  constructor
  · rintro ⟨one, finds, rfl, rfl⟩
    obtain ⟨discovers, boundary, apart⟩ := orphan?_eq_some.mp finds
    obtain ⟨path, source, record, known, reads, parses, rfl⟩ := discoverFile_eq_ok.mp discovers
    exact ⟨source, (read_names tree named found listed).mp reads, known, ⟨record, parses, rfl⟩, boundary, apart⟩
  · rintro ⟨source, isModule, known, ⟨record, parses, rfl⟩, boundary, apart⟩
    have reads := (read_names tree named found listed).mpr isModule
    exact ⟨_, orphan?_eq_some.mpr
      ⟨discoverFile_eq_ok.mpr ⟨path, source, record, known, reads, parses, rfl⟩, boundary, apart⟩, rfl, rfl⟩

/-- What is named as not reached: each module file that is not, under the path that it is known by. -/
theorem mem_orphans (tree : disk.IsTree) (named : disk.IsNamed) (written : root ≠ "")
    (found : ∃ spot, disk.locate (Sources.rootFolder root) = .ok spot)
    (folder : disk.node? (FilePath.place disk.here root) = some .folder) :
    (∃ one ∈ (discover disk partition.shared root).orphans partition, one.path = path ∧ one.realm = realm) ↔
      ∃ names source, disk.HasModule root names source ∧
        ModulePath.ofFile root (names.foldl FilePath.join root) = .ok path ∧
          partition.Misses partition.shared path source realm := by
  have locates := Sources.locate_root written found
  simp only [orphans_eq locates folder, List.mem_mergeSort, List.mem_filterMap]
  constructor
  · rintro ⟨one, ⟨names, listed, finds⟩, isPath, isRealm⟩
    exact ⟨names, (orphan?_module tree named found listed).mp ⟨one, finds, isPath, isRealm⟩⟩
  · rintro ⟨names, source, isModule, misses⟩
    have listed := isModule.mem_wantedNames tree
    obtain ⟨one, finds, own⟩ := (orphan?_module tree named found listed).mpr ⟨source, isModule, misses⟩
    exact ⟨one, ⟨names, listed, finds⟩, own⟩

end Discovery
end Realms
