import Realms.Proofs.Emission.Emittable
import Realms.Proofs.Partition.Unreached

/-!
What a build asks its sources. A module is read, and for each of its imports some paths are looked up, one after
the other up to the first that is a file. Sources that answer all this alike have the same build, so a file that is
never asked for does not show in it, whatever its text is.
-/
namespace Realms

namespace Resolution

variable {isFile isFile' : ModulePath → Bool} {names : List String} {path : ModulePath}

/-- The paths that candidates are looked up at, up to the first that is a file. -/
def tried (isFile : ModulePath → Bool) : List String → List ModulePath
  | [] => []
  | candidate :: rest =>
    match ModulePath.ofText candidate with
    | .error _ => []
    | .ok path => path :: if isFile path then [] else tried isFile rest

/-- The paths that the import of a module is looked up at. For a package there are none. -/
def triedFor (isFile : ModulePath → Bool) (importer : ModulePath) (specifier : String) : List ModulePath :=
  if !isRelative specifier then []
  else
    match importer.resolveAt specifier with
    | .error _ => []
    | .ok base => tried isFile (candidates base)

theorem firstOf_congr (same : ∀ path ∈ tried isFile names, isFile' path = isFile path) :
    firstOf isFile' names = firstOf isFile names := by
  induction names with
  | nil => rfl
  | cons candidate rest ih =>
      rw [firstOf, firstOf]
      rw [tried] at same
      cases named : ModulePath.ofText candidate with
      | error e => rfl
      | ok path =>
          simp only [named] at same
          have first := same path List.mem_cons_self
          change (if isFile' path = true then _ else _) = if isFile path = true then _ else _
          rw [first]
          split
          · rfl
          · rename_i absent
            rw [if_neg absent] at same
            exact ih fun later member => same later (List.mem_cons_of_mem path member)

theorem mem_tried (found : firstOf isFile names = .ok (.module path)) : path ∈ tried isFile names := by
  induction names with
  | nil => cases found
  | cons candidate rest ih =>
      obtain ⟨first, named, found⟩ := bind_eq_ok.mp found
      rw [tried, named]
      dsimp only
      split at found
      · cases found
        exact List.mem_cons_self
      · rename_i absent
        rw [if_neg absent]
        exact List.mem_cons_of_mem first (ih found)

theorem isFile_of_firstOf (found : firstOf isFile names = .ok (.module path)) : isFile path = true := by
  induction names with
  | nil => cases found
  | cons candidate rest ih =>
      obtain ⟨first, named, found⟩ := bind_eq_ok.mp found
      split at found
      · rename_i here
        cases found
        exact here
      · exact ih found

/-- What a specifier means does not depend on files that it is not looked up at. -/
theorem resolve_congr {importer : ModulePath} {specifier : String}
    (same : ∀ path ∈ triedFor isFile importer specifier, isFile' path = isFile path) :
    resolve isFile' importer specifier = resolve isFile importer specifier := by
  rw [resolve, resolve]
  rw [triedFor] at same
  split
  · rfl
  · rename_i relative
    rw [if_neg relative] at same
    cases base : importer.resolveAt specifier with
    | error e => rfl
    | ok base' =>
        simp only [base] at same
        exact firstOf_congr same

theorem mem_triedFor {importer : ModulePath} {specifier : String}
    (found : resolve isFile importer specifier = .ok (.module path)) : path ∈ triedFor isFile importer specifier := by
  rw [resolve] at found
  rw [triedFor]
  split at found
  · cases found
  · rename_i relative
    obtain ⟨base, joined, found⟩ := bind_eq_ok.mp found
    rw [if_neg relative, joined]
    exact mem_tried found

theorem triedFor_normal {importer : ModulePath} {specifier : String}
    (looked : path ∈ triedFor isFile importer specifier) : path.Normal := by
  have all (names : List String) (looked : path ∈ tried isFile names) : path.Normal := by
    induction names with
    | nil => cases looked
    | cons candidate rest ih =>
        rw [tried] at looked
        split at looked
        · cases looked
        · rename_i first named
          rcases List.mem_cons.mp looked with rfl | later
          · exact ModulePath.ofText_normal named
          · split at later
            · cases later
            · exact ih later
  rw [triedFor] at looked
  split at looked
  · cases looked
  · split at looked
    · cases looked
    · exact all _ looked

/-- What an import means is a file. -/
theorem isFile_of_resolve {importer : ModulePath} {specifier : String}
    (found : resolve isFile importer specifier = .ok (.module path)) : isFile path = true := by
  rw [resolve] at found
  split at found
  · cases found
  · obtain ⟨base, joined, found⟩ := bind_eq_ok.mp found
    exact isFile_of_firstOf found

end Resolution

theorem Sources.contains_of_read {sources : Sources} {path : ModulePath} {text : String}
    (reads : sources.read path = .ok text) : sources.contains path = true := by
  rw [Sources.read] at reads
  split at reads
  · rename_i content found
    rw [Sources.contains, found, Option.isSome_some]
  · cases reads

/-- Another file does not change what is found at other paths. -/
theorem Sources.ofTexts_find? (texts : List (ModulePath × String)) {added path : ModulePath} (text : String)
    (different : path ≠ added) : (ofTexts (texts ++ [(added, text)])).find? path = (ofTexts texts).find? path := by
  have files : (ofTexts (texts ++ [(added, text)])).files =
      Sorted.put (·.1.text) (added, .ok text) (ofTexts texts).files := by
    rw [ofTexts, ofTexts, List.foldl_append]
    rfl
  rw [find?, find?, files, Sorted.find?_put]
  rintro ⟨other, content⟩ same
  rw [beq_eq_false_iff_ne]
  rintro rfl
  exact different (ModulePath.text_injective same)

namespace Project

variable {project : Project} {other : Sources} {path : ModulePath}

/-- A file is the same module where it is found with the same content. Where there is none, the reason can differ. -/
theorem load_congr (known : project.sources.contains path = true)
    (same : other.find? path = project.sources.find? path) :
    load { project with sources := other } path = project.load path := by
  obtain ⟨content, found⟩ := Option.isSome_iff_exists.mp known
  have read_eq : other.read path = project.sources.read path := by
    rw [Sources.read, Sources.read, same, found]
  rw [load, load, read_eq]

theorem contains_of_load {record : ModuleRecord} (loads : project.load path = .ok record) :
    project.sources.contains path = true := by
  rw [load] at loads
  split at loads
  · cases loads
  · rename_i text reads
    exact Sources.contains_of_read reads

theorem destination_congr {importer : ModulePath} {found : ImportRecord}
    (same : ∀ path ∈ Resolution.triedFor project.sources.contains importer found.specifier,
      other.find? path = project.sources.find? path) :
    destination { project with sources := other } importer found = project.destination importer found := by
  have resolves : resolve { project with sources := other } importer found.specifier =
      project.resolve importer found.specifier :=
    Resolution.resolve_congr fun path looked => congrArg Option.isSome (same path looked)
  rw [destination, destination, resolves]
  cases meaning : project.resolve importer found.specifier with
  | error e => rfl
  | ok resolution =>
      cases resolution with
      | package name => rfl
      | unresolved => rfl
      | module target =>
          have found := same target (Resolution.mem_triedFor meaning)
          have loads := load_congr (Resolution.isFile_of_resolve meaning) found
          change (load _ target >>= _) = (load _ target >>= _)
          rw [loads]

/-- A module is the same over other sources where it is found the same, and all that its imports are looked up at. -/
theorem agreesAt_of_sources {record : ModuleRecord} (loads : project.load path = .ok record)
    (own : other.find? path = project.sources.find? path)
    (imports : ∀ found ∈ record.imports, ∀ looked ∈ Resolution.triedFor project.sources.contains path found.specifier,
      other.find? looked = project.sources.find? looked) :
    project.AgreesAt { project with sources := other } path where
  load_eq := load_congr (contains_of_load loads) own
  destination_eq again loads' found imported := by
    obtain rfl := Except.ok.inj (loads.symm.trans loads')
    exact destination_congr (imports found imported)

end Project

namespace Build

variable {options : BuildOptions} {sources other : Sources} {build : Build}

/-- The paths that a build asks its sources for: its modules, and where their imports are looked up. -/
def asks (build : Build) (sources : Sources) : List ModulePath :=
  build.partition.modules.map Prod.fst ++ build.partition.modules.flatMap fun (path, record) =>
    record.imports.flatMap fun found => Resolution.triedFor sources.contains path found.specifier

theorem asks_normal (compiles : compile options sources = .ok build) {path : ModulePath}
    (asked : path ∈ build.asks sources) : path.Normal := by
  rcases List.mem_append.mp asked with own | tried
  · obtain ⟨_, _, _, settled, normal, whole, _⟩ := compile_eq_ok compiles
    rw [whole, settled.keys_eq] at own
    obtain ⟨kind, stands⟩ := (settled.mem_loaded path).mp own
    exact stands.normal normal
  · obtain ⟨_, _, tried⟩ := List.mem_flatMap.mp tried
    obtain ⟨_, _, tried⟩ := List.mem_flatMap.mp tried
    exact Resolution.triedFor_normal tried

/-- Sources that have the same files where a build asks them have that build. -/
theorem compile_congr (compiles : compile options sources = .ok build)
    (same : ∀ path ∈ build.asks sources, other.find? path = sources.find? path) :
    compile options other = .ok build := by
  obtain ⟨shared, isShared, h⟩ := bind_eq_ok.mp compiles
  obtain ⟨listed, isListed, h⟩ := bind_eq_ok.mp h
  obtain ⟨partition, splits, h⟩ := bind_eq_ok.mp h
  obtain ⟨emission, emits, h⟩ := bind_eq_ok.mp h
  obtain rfl := pure_eq_ok.mp h
  have again : Project.partition ⟨PathSet.ofList shared, other⟩ listed = .ok partition := by
    apply Project.partition_agrees splits
    intro path member
    obtain ⟨⟨_, record⟩, recorded, rfl⟩ := List.mem_map.mp member
    obtain ⟨round, settled, whole, _⟩ := Project.partition_eq_ok splits
    have loads := (Project.mem_records.mp (whole ▸ recorded)).2
    apply Project.agreesAt_of_sources loads
    · exact same _ (List.mem_append_left _ member)
    · intro found imported looked tried
      exact same looked (List.mem_append_right _ (List.mem_flatMap.mpr
        ⟨_, recorded, List.mem_flatMap.mpr ⟨found, imported, tried⟩⟩))
  exact bind_eq_ok.mpr ⟨shared, isShared, bind_eq_ok.mpr ⟨listed, isListed,
    bind_eq_ok.mpr ⟨partition, again, bind_eq_ok.mpr ⟨emission, emits, rfl⟩⟩⟩⟩

/-- A file that is no module of a build, and that none of its imports is looked up at, can be added without any
effect on the build. -/
theorem compile_unreached {texts : List (ModulePath × String)} (compiles : compile options (.ofTexts texts) = .ok build)
    {added : ModulePath} (text : String) (unbuilt : added ∉ build.partition.modules.map Prod.fst)
    (untried : ∀ path record, (path, record) ∈ build.partition.modules → ∀ found ∈ record.imports,
      added ∉ Resolution.triedFor (Sources.ofTexts texts).contains path found.specifier) :
    compile options (.ofTexts (texts ++ [(added, text)])) = .ok build := by
  refine compile_congr compiles fun path asked => Sources.ofTexts_find? texts text ?_
  rintro rfl
  rcases List.mem_append.mp asked with own | tried
  · exact unbuilt own
  · obtain ⟨⟨importer, record⟩, recorded, tried⟩ := List.mem_flatMap.mp tried
    obtain ⟨found, imported, tried⟩ := List.mem_flatMap.mp tried
    exact untried importer record recorded found imported tried

/-- A page with a menu, whose file is found by one of its endings. -/
def menuFiles : List (ModulePath × String) :=
  [(⟨"page.js"⟩, "import 'react'; import './menu'"), (⟨"menu.ts"⟩, "'use client'; export const Menu = 1")]

def menuFilesOptions : BuildOptions := ⟨".", ["page.js"], [], .standard⟩

/-- An index file of the menu would be looked up behind the file that is there, so it does not matter that it is no
module. -/
theorem menuFiles_unreached : ∃ build, compile menuFilesOptions (.ofTexts menuFiles) = .ok build ∧
    ModuleRecord.parse? [] ⟨"menu/index.js"⟩ "'use server'; (" = none ∧
      compile menuFilesOptions (.ofTexts (menuFiles ++ [(⟨"menu/index.js"⟩, "'use server'; (")])) = .ok build := by
  have runs : ((compile menuFilesOptions (.ofTexts menuFiles)).toOption.map fun build =>
      (build.partition.modules.map Prod.fst, build.partition.modules.flatMap fun item =>
        item.2.imports.flatMap fun found =>
          Resolution.triedFor (Sources.ofTexts menuFiles).contains item.1 found.specifier)) =
      some ([⟨"menu.ts"⟩, ⟨"page.js"⟩], [⟨"menu"⟩, ⟨"menu.js"⟩, ⟨"menu.jsx"⟩, ⟨"menu.mjs"⟩, ⟨"menu.ts"⟩]) := by
    decide +kernel
  obtain ⟨build, compiles, found⟩ := exists_of_toOption runs
  obtain ⟨modules, looked⟩ := Prod.mk.inj found
  have unbuilt : (⟨"menu/index.js"⟩ : ModulePath) ∉ build.partition.modules.map Prod.fst := by
    rw [modules]
    decide
  refine ⟨build, compiles, by decide +kernel, compile_unreached compiles _ unbuilt ?_⟩
  intro path record recorded found imported member
  have listed : (⟨"menu/index.js"⟩ : ModulePath) ∈ build.partition.modules.flatMap fun item =>
      item.2.imports.flatMap fun found =>
        Resolution.triedFor (Sources.ofTexts menuFiles).contains item.1 found.specifier :=
    List.mem_flatMap.mpr ⟨(path, record), recorded, List.mem_flatMap.mpr ⟨found, imported, member⟩⟩
  rw [looked] at listed
  revert listed
  decide

end Build
end Realms
