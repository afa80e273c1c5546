import Realms.Proofs.Command.Orphans
import Realms.Proofs.Output.Rewritten
import Realms.Proofs.Sources

/-!
Builds that are run again. What lies outside of the two folders that a build writes to is found again as it was, so a
build that looks at nothing else succeeds again, says the same of its output and leaves the same files and folders. It
gives the same warnings if the search for modules names nothing in the output that it has not named there before.
-/
namespace Realms

open FilePath (place through splitParts)
open Build (Touches stagingOf)

namespace Build.Output

variable {build : Build} {outDir : String} {disk after : Disk} {spot : Place} (output : Output build outDir disk after)

include output

/-- What stands outside of the two folders stays. -/
theorem keeps (outside : ¬Touches disk.here outDir spot) {node : FileNode} (stands : disk.node? spot = some node) :
    after.node? spot = some node := by
  obtain ⟨beside, apart⟩ := not_or.mp outside
  rcases output.others spot apart beside with same | ⟨free, _⟩
  · rw [same, stands]
  · cases free.symm.trans stands

/-- There the files are those that were there. -/
theorem fileAt?_eq (outside : ¬Touches disk.here outDir spot) : after.fileAt? spot = disk.fileAt? spot := by
  obtain ⟨beside, apart⟩ := not_or.mp outside
  rcases output.others spot apart beside with same | ⟨free, folder, _⟩
  · rw [Disk.fileAt?, Disk.fileAt?, same]
  · rw [Disk.fileAt?, Disk.fileAt?, free, folder]

/-- In these folders the files are those of the build, if nothing stale was kept. -/
theorem fileAt?_touches (exact : ∀ names content, after.fileAt? (place disk.here outDir ++ names) = some content ↔
      (names, content) ∈ build.files) (touches : Touches disk.here outDir spot) {content : List UInt8} :
    after.fileAt? spot = some content ↔
      ∃ names, spot = place disk.here outDir ++ names ∧ (names, content) ∈ build.files := by
  constructor
  · intro file
    rcases touches with ⟨names, rfl⟩ | ⟨names, rfl⟩
    · cases (output.gone names).symm.trans (Disk.fileAt?_eq_some.mp file)
    · exact ⟨names, rfl, (exact names content).mp file⟩
  · rintro ⟨names, rfl, listed⟩
    exact (exact names content).mpr listed

/-- A path whose way lies outside is followed as before. -/
theorem locate_eq (here : after.here = disk.here) {text : String}
    (outside : ∀ spot ∈ through disk.here text, ¬Touches disk.here outDir spot)
    (found : ∃ last, disk.locate text = .ok last) : after.locate text = disk.locate text := by
  obtain ⟨nonempty, way, clean⟩ := Disk.locate_isOk.mp found
  rw [Disk.locate_eq_place found, Disk.locate_eq_place (Disk.locate_isOk.mpr ⟨nonempty, fun stop onWay => ?_, clean⟩),
    here]
  rw [here] at onWay
  exact output.keeps (outside stop onWay) (way stop onWay)

theorem read_eq (here : after.here = disk.here) {text source : String}
    (outside : ∀ spot ∈ place disk.here text :: through disk.here text, ¬Touches disk.here outDir spot)
    (reads : disk.read text = .ok source) : after.read text = .ok source := by
  obtain ⟨spot, locates, reads⟩ := bind_eq_ok.mp reads
  have spot_eq := Disk.locate_eq_ok locates
  have again := output.locate_eq here (fun stop onWay => outside stop (List.mem_cons_of_mem _ onWay)) ⟨spot, locates⟩
  rw [Disk.read, again, locates]
  split at reads
  · cases reads
  · cases reads
  · rename_i content stands
    have kept := output.keeps (spot_eq ▸ outside _ List.mem_cons_self) stands
    simp only [bind, Except.bind, kept]
    exact reads

end Build.Output

namespace Command

variable {disk after : Disk} {file : String} {config : Config} {made : Build} {result : CommandResult}

/-- A build that leaves all that it has looked at. -/
structure LooksAway (disk after : Disk) (file : String) (config : Config) (made : Build) : Prop where
  /-- What was left in the folder next to the output folder is found there, and so removed, or there is nothing. -/
  fresh : disk.exists? (stagingOf config.outDir) = true ∨ disk.node? (place disk.here (stagingOf config.outDir)) = none
  /-- The path to the output folder does not lead through the folder next to it. -/
  apart : ¬Build.CrossesStaging disk.here config.outDir
  /-- The configuration is found outside of the two folders, and so is the root of the project. -/
  file : ∀ spot ∈ place disk.here file :: through disk.here file, ¬Touches disk.here config.outDir spot
  root : ∀ spot ∈ place disk.here config.root :: through disk.here config.root, ¬Touches disk.here config.outDir spot
  /-- Modules in these folders, and files that imports are looked up at there, are left as they were. -/
  asks : ∀ path ∈ made.asks (.ofDisk disk config.root),
    Touches disk.here config.outDir (place disk.here config.root ++ splitParts path.text) →
      after.fileAt? (place disk.here config.root ++ splitParts path.text) =
        disk.fileAt? (place disk.here config.root ++ splitParts path.text)

/-- The search for modules names the same ones as before in the two folders that a build writes to. -/
def NamesAlike (disk after : Disk) (config : Config) (made : Build) : Prop :=
  ∀ names ∈ Discovery.wantedNames disk (place disk.here config.root) ++
      Discovery.wantedNames after (place disk.here config.root),
    Touches disk.here config.outDir (place disk.here config.root ++ names) →
      Discovery.orphan? after made.partition config.root names =
        Discovery.orphan? disk made.partition config.root names

section Looks

variable (tree : disk.IsTree) (named : disk.IsNamed) (afterTree : after.IsTree) (afterNamed : after.IsNamed)
  (here : after.here = disk.here) (output : Build.Output made config.outDir disk after)
  (loads : Config.load disk file = .ok config) (compiles : compileProject disk config = .ok made)
  (away : LooksAway disk after file config made)

include here output loads away

theorem LooksAway.load_eq : Config.load after file = .ok config := by
  have reads : ∃ source, disk.read file = .ok source := by
    unfold Config.load at loads
    split at loads
    · cases loads
    · exact ⟨_, by assumption⟩
  obtain ⟨source, reads⟩ := reads
  rw [Config.load, output.read_eq here away.file reads]
  rw [Config.load, reads] at loads
  exact loads

include tree compiles in
/-- The root of the project is found again. -/
theorem LooksAway.root_found : (∃ spot, after.locate (Sources.rootFolder config.root) = .ok spot) ∧
    after.node? (place disk.here config.root) = some .folder := by
  obtain ⟨found, folder⟩ := compileProject_root tree loads compiles
  refine ⟨?_, output.keeps (away.root _ List.mem_cons_self) folder⟩
  rw [output.locate_eq here (fun spot onWay => away.root spot (List.mem_cons_of_mem _ ?_)) found]
  · exact found
  · rwa [(Sources.rootFolder_way disk.here config.root).2] at onWay

include tree named afterTree afterNamed compiles in
theorem LooksAway.compile_eq : compileProject after config = .ok made := by
  obtain ⟨found, _⟩ := compileProject_root tree loads compiles
  obtain ⟨again, _⟩ := away.root_found tree here output loads compiles
  refine Build.compile_congr compiles fun path asked => ?_
  have normal := Build.asks_normal compiles asked
  have file : after.fileAt? (place disk.here config.root ++ splitParts path.text) =
      disk.fileAt? (place disk.here config.root ++ splitParts path.text) := by
    by_cases touches : Touches disk.here config.outDir (place disk.here config.root ++ splitParts path.text)
    · exact away.asks path asked touches
    · exact output.fileAt?_eq touches
  rw [Sources.ofDisk_find? tree named found normal, Sources.ofDisk_find? afterTree afterNamed again normal, here, file]

include tree named afterTree afterNamed compiles in
theorem LooksAway.warningLines_eq (alike : NamesAlike disk after config made) :
    warningLines after config made = warningLines disk config made := by
  suffices orphans : (discoverProject after config made).orphans made.partition =
      (discoverProject disk config made).orphans made.partition by
    rw [warningLines, warningLines, orphans]
  by_cases written : config.root = ""
  · rw [discoverProject_unwritten after made written, discoverProject_unwritten disk made written]
  · obtain ⟨found, folder⟩ := compileProject_root tree loads compiles
    obtain ⟨again, afterFolder⟩ := away.root_found tree here output loads compiles
    have afterLocates := Sources.locate_root written again
    rw [here] at afterLocates
    refine Discovery.orphans_congr tree afterTree (Sources.locate_root written found) folder afterLocates afterFolder ?_
    intro names one
    by_cases touches : Touches disk.here config.outDir (place disk.here config.root ++ names)
    · constructor
      · rintro ⟨listed, finds⟩
        obtain ⟨wanted, content, file⟩ := (Discovery.mem_wantedNames afterTree).mp listed
        have areNames := fun name member => (afterNamed.of_below (Disk.fileAt?_eq_some.mp file) name member).1
        have before := (alike names (List.mem_append_right _ listed) touches).symm.trans finds
        exact ⟨Discovery.mem_wantedNames_of_orphan? tree areNames wanted before, before⟩
      · rintro ⟨listed, finds⟩
        obtain ⟨wanted, content, file⟩ := (Discovery.mem_wantedNames tree).mp listed
        have areNames := fun name member => (named.of_below (Disk.fileAt?_eq_some.mp file) name member).1
        have behind := (alike names (List.mem_append_left _ listed) touches).trans finds
        exact ⟨here ▸ Discovery.mem_wantedNames_of_orphan? afterTree areNames wanted behind, behind⟩
    · exact Discovery.orphan?_of_fileAt? tree named found afterTree afterNamed again here fun _ =>
        output.fileAt?_eq touches

end Looks

/-- A build that is run again succeeds, shows the same and leaves the same files and folders, if it leaves all that it
has looked at. It does the same in all if the search for modules names the same in what it has written. -/
theorem run_build_again (tree : disk.IsTree) (named : disk.IsNamed) (loads : Config.load disk file = .ok config)
    (compiles : compileProject disk config = .ok made) (runs : run disk (.build file) = (after, result))
    (succeeds : result.exitCode = 0) (away : LooksAway disk after file config made) :
    (run after (.build file)).2.exitCode = 0 ∧ (run after (.build file)).2.output = result.output ∧
      (∀ spot, (run after (.build file)).1.node? spot = after.node? spot) ∧
        (NamesAlike disk after config made → (run after (.build file)).2 = result) := by
  rw [run_build] at runs ⊢
  obtain ⟨config', made', manifest, loads', compiles', writes, _⟩ := @buildProject_succeeds disk file (by rwa [runs])
  obtain rfl := Except.ok.inj (loads.symm.trans loads')
  obtain rfl := Except.ok.inj (compiles.symm.trans compiles')
  obtain ⟨done, rfl⟩ := Build.written_eq_ok writes
  obtain ⟨rfl, rfl⟩ := Prod.mk.inj (runs.symm.trans (buildProject_eq loads compiles done))
  have here := Build.write_here made config.outDir disk
  obtain ⟨output, _⟩ := Build.write_output compiles tree done
  obtain ⟨afterTree, afterNamed⟩ := Build.write_isTree tree done
  have stands := Build.write_stands compiles tree done away.fresh away.apart
  obtain ⟨again, same⟩ := stands.write_again (afterNamed named) compiles
  have loadsAgain := away.load_eq here output loads
  have compilesAgain := away.compile_eq tree named afterTree (afterNamed named) here output loads compiles
  rw [buildProject_eq loadsAgain compilesAgain again]
  dsimp only
  refine ⟨rfl, rfl, same, fun alike => ?_⟩
  rw [away.warningLines_eq tree named afterTree (afterNamed named) here output loads compiles alike]

/-- A project with an output that was written before, and with files that a build has left next to it. -/
def keptProject : Disk where
  nodes := [
    (["work"], .folder),
    (["work", "realm.toml"], .file (Text.bytesOf "entries = ['page.js']")),
    (["work", "lost.js"], .file (Text.bytesOf "'use client'")),
    (["work", "menu.ts"], .file (Text.bytesOf "'use client'")),
    (["work", "page.js"], .file (Text.bytesOf "import './menu'")),
    (["work", "dist"], .folder),
    (["work", "dist", "old.js"], .file []),
    (["work", "dist.staging"], .folder),
    (["work", "dist.staging", "notes.txt"], .file [])]
  here := ["work"]

def keptConfig : Config := ⟨".", ["page.js"], [], "dist", "/__realm", none, none, .error⟩

theorem keptProject_again : keptProject.IsTree ∧ keptProject.IsNamed ∧
    Config.load keptProject "realm.toml" = .ok keptConfig ∧
      (run keptProject (.build "realm.toml")).2.exitCode = 0 ∧
        (∃ made, compileProject keptProject keptConfig = .ok made ∧
          LooksAway keptProject (run keptProject (.build "realm.toml")).1 "realm.toml" keptConfig made ∧
            NamesAlike keptProject (run keptProject (.build "realm.toml")).1 keptConfig made) ∧
          (run (run keptProject (.build "realm.toml")).1 (.build "realm.toml")).2 =
              (run keptProject (.build "realm.toml")).2 ∧
            ∀ spot, (run (run keptProject (.build "realm.toml")).1 (.build "realm.toml")).1.node? spot =
              (run keptProject (.build "realm.toml")).1.node? spot := by
  have tree : keptProject.IsTree := Disk.isTree_of_all (by decide) (by decide +kernel)
  have named : keptProject.IsNamed := Disk.isNamed_of_all (by decide +kernel)
  have loads : Config.load keptProject "realm.toml" = .ok keptConfig := toOption_eq_some.mp (by decide +kernel)
  have looks : (compileProject keptProject keptConfig).toOption.map (fun made =>
      (made.files.map Prod.fst, made.asks (.ofDisk keptProject keptConfig.root))) =
        some ([["server", "page.js"], ["server", "menu.ts"], ["client", "menu.ts"], ["manifest.json"]],
          [⟨"menu.ts"⟩, ⟨"page.js"⟩, ⟨"menu"⟩, ⟨"menu.js"⟩, ⟨"menu.jsx"⟩, ⟨"menu.mjs"⟩, ⟨"menu.ts"⟩]) := by
    decide +kernel
  obtain ⟨made, compiles, seen⟩ := exists_of_toOption looks
  obtain ⟨places, asked⟩ := Prod.mk.inj seen
  have receives : Build.Receives keptProject keptConfig.outDir :=
    Build.receives_of_lookup (by decide) (show FilePath.withoutSlashes "dist" = FilePath.join "" "dist" by decide)
      (by decide +kernel) (by decide +kernel) (by decide +kernel)
  have writable : made.Writable := Build.writable_of_places places (by decide) (by decide)
  have succeeds := run_build_isOk tree loads compiles writable receives
  have away : LooksAway keptProject (run keptProject (.build "realm.toml")).1 "realm.toml" keptConfig made := by
    refine ⟨.inl (by decide +kernel), ?_, ?_, ?_, ?_⟩
    · unfold Build.CrossesStaging
      decide +kernel
    · unfold Touches
      decide +kernel
    · unfold Touches
      decide +kernel
    · -- None of the paths leads into the output, so there is nothing to compare.
      have outside : ∀ path ∈ ([⟨"menu.ts"⟩, ⟨"page.js"⟩, ⟨"menu"⟩, ⟨"menu.js"⟩, ⟨"menu.jsx"⟩, ⟨"menu.mjs"⟩,
          ⟨"menu.ts"⟩] : List ModulePath), ¬Touches keptProject.here keptConfig.outDir
            (place keptProject.here keptConfig.root ++ splitParts path.text) := by
        unfold Touches
        decide +kernel
      intro path listed touches
      rw [asked] at listed
      exact (outside path listed touches).elim
  have alike : NamesAlike keptProject (run keptProject (.build "realm.toml")).1 keptConfig made := by
    have before : ∀ names ∈ Discovery.wantedNames keptProject (place keptProject.here keptConfig.root),
        ¬Touches keptProject.here keptConfig.outDir (place keptProject.here keptConfig.root ++ names) := by
      unfold Touches
      decide +kernel
    have isRoot : place keptProject.here keptConfig.root = ["work"] := by decide
    have isOutput : place keptProject.here keptConfig.outDir = ["work"] ++ ["dist"] := by decide
    have leftOut : ∀ names ∈ [["server", "page.js"], ["server", "menu.ts"], ["client", "menu.ts"], ["manifest.json"]],
        Discovery.isWanted (["dist"] ++ names) = false := by decide +kernel
    have done := writable.write_isOk receives tree fun artifact member => Build.artifact_normal compiles member
    obtain ⟨output, exact⟩ := Build.write_output compiles tree done
    intro names listed touches
    rcases List.mem_append.mp listed with earlier | later
    · exact absurd touches (before names earlier)
    · -- The search leaves out the output folder, and all that touches is there.
      rw [run_build, buildProject_eq loads compiles done, Discovery.mem_wantedNames (Build.write_isTree tree done).1]
        at later
      obtain ⟨wanted, _, file⟩ := later
      obtain ⟨rest, same, listed⟩ := (output.fileAt?_touches (exact away.fresh) touches).mp file
      rw [isRoot, isOutput, List.append_assoc] at same
      rw [List.append_cancel_left same, leftOut rest (places ▸ List.mem_map_of_mem listed)] at wanted
      cases wanted
  have runs : run keptProject (.build "realm.toml") =
      ((run keptProject (.build "realm.toml")).1, (run keptProject (.build "realm.toml")).2) := Prod.mk.eta.symm
  obtain ⟨_, _, sameTree, same⟩ := run_build_again tree named loads compiles runs succeeds away
  exact ⟨tree, named, loads, succeeds, ⟨made, compiles, away, alike⟩, same alike, sameTree⟩

/-- A project whose output is in a folder that the search for modules walks. -/
def visibleOutput : Disk where
  nodes := [
    (["work"], .folder),
    (["work", "realm.toml"], .file (Text.bytesOf "entries = ['page.js']\nout_dir = 'build'")),
    (["work", "page.js"], .file (Text.bytesOf "'use client'"))]
  here := ["work"]

def visibleConfig : Config := ⟨".", ["page.js"], [], "build", "/__realm", none, none, .error⟩

/-- What a build leaves there. -/
def visibleOutput.built : Disk := (run visibleOutput (.build "realm.toml")).1

/-- What a search sees of that: all but the manifest. -/
def visibleOutput.shown : Disk where
  nodes := [
    (["work"], .folder),
    (["work", "realm.toml"], .file (Text.bytesOf "entries = ['page.js']\nout_dir = 'build'")),
    (["work", "build"], .folder),
    (["work", "build", "client"], .folder),
    (["work", "build", "client", "page.js"], .file (Text.bytesOf "'use client'")),
    (["work", "build", "server"], .folder),
    (["work", "build", "server", "page.js"], .file (Text.bytesOf "// client references for page.js\n")),
    (["work", "page.js"], .file (Text.bytesOf "'use client'"))]
  here := ["work"]

theorem visibleOutput_isTree : visibleOutput.IsTree ∧ visibleOutput.IsNamed :=
  ⟨Disk.isTree_of_all (by decide) (by decide +kernel), Disk.isNamed_of_all (by decide +kernel)⟩

theorem visibleOutput_isTree_shown : visibleOutput.shown.IsTree ∧ visibleOutput.shown.IsNamed :=
  ⟨Disk.isTree_of_all (by decide) (by decide +kernel), Disk.isNamed_of_all (by decide +kernel)⟩

/-- What the build is, and what a search finds that it has not reached, before it is written and afterwards. -/
theorem visibleOutput_made : ∃ made, compileProject visibleOutput visibleConfig = .ok made ∧
    made.files = [(["server", "page.js"], Text.bytesOf "// client references for page.js\n"),
      (["client", "page.js"], Text.bytesOf "'use client'"), (["manifest.json"], Text.bytesOf made.manifest.text)] ∧
    made.asks (.ofDisk visibleOutput visibleConfig.root) = [⟨"page.js"⟩] ∧ made.emission.warnings.length = 0 ∧
    [["page.js"]].filterMap (Discovery.orphan? visibleOutput made.partition visibleConfig.root) = [] ∧
    [["build", "client", "page.js"], ["build", "server", "page.js"], ["page.js"]].filterMap
      (Discovery.orphan? visibleOutput.shown made.partition visibleConfig.root) =
        [⟨⟨"build/client/page.js"⟩, .client, [], false⟩] := by
  have writes : (compileProject visibleOutput visibleConfig).toOption.map (fun made =>
      (made.files.dropLast, made.asks (.ofDisk visibleOutput visibleConfig.root))) =
      some ([(["server", "page.js"], Text.bytesOf "// client references for page.js\n"),
        (["client", "page.js"], Text.bytesOf "'use client'")], [⟨"page.js"⟩]) := by decide +kernel
  have looks : (compileProject visibleOutput visibleConfig).toOption.map (fun made =>
      (made.emission.warnings.length,
        [["page.js"]].filterMap (Discovery.orphan? visibleOutput made.partition visibleConfig.root),
        [["build", "client", "page.js"], ["build", "server", "page.js"], ["page.js"]].filterMap
          (Discovery.orphan? visibleOutput.shown made.partition visibleConfig.root))) =
      some (0, [], [⟨⟨"build/client/page.js"⟩, .client, [], false⟩]) := by decide +kernel
  obtain ⟨made, compiles, written⟩ := exists_of_toOption writes
  obtain ⟨_, again, seen⟩ := exists_of_toOption looks
  obtain rfl := Except.ok.inj (compiles.symm.trans again)
  obtain ⟨front, asked⟩ := Prod.mk.inj written
  simp only [Prod.mk.injEq] at seen
  rw [Build.files, List.dropLast_concat] at front
  exact ⟨made, compiles, by rw [Build.files, front]; rfl, asked, seen⟩

section Visible

variable {made : Build} (compiles : compileProject visibleOutput visibleConfig = .ok made)
  (files : made.files = [(["server", "page.js"], Text.bytesOf "// client references for page.js\n"),
      (["client", "page.js"], Text.bytesOf "'use client'"), (["manifest.json"], Text.bytesOf made.manifest.text)])

include compiles files

theorem visibleOutput_built : (made.write visibleConfig.outDir visibleOutput).failed = none := by
  have places : made.files.map Prod.fst = [["server", "page.js"], ["client", "page.js"], ["manifest.json"]] := by
    rw [files]
    rfl
  have receives : Build.Receives visibleOutput visibleConfig.outDir :=
    Build.receives_of_lookup (by decide) (show FilePath.withoutSlashes "build" = FilePath.join "" "build" by decide)
      (by decide +kernel) (by decide +kernel) (by decide +kernel)
  exact (Build.writable_of_places places (by decide) (by decide)).write_isOk receives visibleOutput_isTree.1
    fun artifact member => Build.artifact_normal compiles member

/-- The wanted files are those that a search is shown. -/
theorem visibleOutput_fileAt? {names : Place} (wanted : Discovery.isWanted names = true) :
    (made.write visibleConfig.outDir visibleOutput).disk.fileAt? (["work"] ++ names) =
      visibleOutput.shown.fileAt? (["work"] ++ names) := by
  have done := visibleOutput_built compiles files
  obtain ⟨output, exact⟩ := Build.write_output compiles visibleOutput_isTree.1 done
  have isOutput : place visibleOutput.here visibleConfig.outDir = ["work"] ++ ["build"] := by decide
  have free : visibleOutput.node? (place visibleOutput.here (stagingOf visibleConfig.outDir)) = none := by decide +kernel
  have shows : visibleOutput.shown.filesBelow ["work"] =
      [(["realm.toml"], Text.bytesOf "entries = ['page.js']\nout_dir = 'build'"),
        (["build", "client", "page.js"], Text.bytesOf "'use client'"),
        (["build", "server", "page.js"], Text.bytesOf "// client references for page.js\n"),
        (["page.js"], Text.bytesOf "'use client'")] := by decide +kernel
  have held : visibleOutput.filesBelow ["work"] =
      [(["realm.toml"], Text.bytesOf "entries = ['page.js']\nout_dir = 'build'"),
        (["page.js"], Text.bytesOf "'use client'")] := by decide +kernel
  have written : ∀ rest ∈ [["client", "page.js"], ["server", "page.js"]],
      Touches visibleOutput.here visibleConfig.outDir (["work"] ++ ["build"] ++ rest) := by
    unfold Touches
    decide +kernel
  refine Option.ext fun content => ?_
  rw [← visibleOutput_isTree_shown.1.mem_filesBelow, shows]
  simp only [List.mem_cons, Prod.mk.injEq, List.not_mem_nil, or_false]
  by_cases touches : Touches visibleOutput.here visibleConfig.outDir (["work"] ++ names)
  · rw [output.fileAt?_touches (exact (.inr free)) touches, files, isOutput]
    simp only [List.mem_cons, Prod.mk.injEq, List.not_mem_nil, or_false]
    constructor
    · rintro ⟨rest, same, listed⟩
      rw [List.append_assoc] at same
      obtain rfl := List.append_cancel_left same
      rcases listed with ⟨rfl, rfl⟩ | ⟨rfl, rfl⟩ | ⟨rfl, _⟩
      · exact .inr (.inr (.inl ⟨rfl, rfl⟩))
      · exact .inr (.inl ⟨rfl, rfl⟩)
      · exact absurd wanted (by decide +kernel)
    · rintro (⟨rfl, _⟩ | ⟨rfl, rfl⟩ | ⟨rfl, rfl⟩ | ⟨rfl, _⟩)
      · exact absurd wanted (by decide +kernel)
      · exact ⟨["client", "page.js"], rfl, .inr (.inl ⟨rfl, rfl⟩)⟩
      · exact ⟨["server", "page.js"], rfl, .inl ⟨rfl, rfl⟩⟩
      · exact absurd touches (by unfold Touches; decide +kernel)
  · rw [output.fileAt?_eq touches, ← visibleOutput_isTree.1.mem_filesBelow, held]
    simp only [List.mem_cons, Prod.mk.injEq, List.not_mem_nil, or_false]
    constructor
    · rintro (own | own)
      · exact .inl own
      · exact .inr (.inr (.inr own))
    · rintro (own | ⟨rfl, _⟩ | ⟨rfl, _⟩ | own)
      · exact .inl own
      · exact absurd (written _ List.mem_cons_self) touches
      · exact absurd (written _ (List.mem_cons_of_mem _ List.mem_cons_self)) touches
      · exact .inr own

end Visible

/-- A build that is run again there names the client module that the first one has written. -/
theorem visibleOutput_warned : Config.load visibleOutput "realm.toml" = .ok visibleConfig ∧
    (run visibleOutput (.build "realm.toml")).2.exitCode = 0 ∧
      (run visibleOutput (.build "realm.toml")).2.errors = [] ∧
        (run visibleOutput.built (.build "realm.toml")).2.exitCode = 0 ∧
          (run visibleOutput.built (.build "realm.toml")).2.errors =
            ["warning: client module build/client/page.js is not reachable from any entry"] := by
  obtain ⟨tree, named⟩ := visibleOutput_isTree
  have loads : Config.load visibleOutput "realm.toml" = .ok visibleConfig := toOption_eq_some.mp (by decide +kernel)
  obtain ⟨made, compiles, files, asked, quiet, first, second⟩ := visibleOutput_made
  have done := visibleOutput_built compiles files
  have succeeds : (run visibleOutput (.build "realm.toml")).2.exitCode = 0 := by
    rw [run_build, buildProject_eq loads compiles done]
  have after : visibleOutput.built = (made.write visibleConfig.outDir visibleOutput).disk := by
    rw [visibleOutput.built, run_build, buildProject_eq loads compiles done]
  have file := @visibleOutput_fileAt? made compiles files
  have here := Build.write_here made visibleConfig.outDir visibleOutput
  obtain ⟨output, _⟩ := Build.write_output compiles tree done
  obtain ⟨afterTree, afterNamed⟩ := Build.write_isTree tree done
  have away : LooksAway visibleOutput (made.write visibleConfig.outDir visibleOutput).disk "realm.toml" visibleConfig
      made := by
    refine ⟨.inr (by decide +kernel), ?_, ?_, ?_, ?_⟩
    · unfold Build.CrossesStaging
      decide +kernel
    · unfold Touches
      decide +kernel
    · unfold Touches
      decide +kernel
    · have outside : ¬Touches visibleOutput.here visibleConfig.outDir
          (place visibleOutput.here visibleConfig.root ++ splitParts "page.js") := by
        unfold Touches
        decide +kernel
      intro path listed touches
      rw [asked, List.mem_singleton] at listed
      exact absurd touches (listed ▸ outside)
  have stands := Build.write_stands compiles tree done away.fresh away.apart
  rw [after]
  generalize (made.write visibleConfig.outDir visibleOutput).disk = built at *
  have loadsAgain := away.load_eq here output loads
  have compilesAgain := away.compile_eq tree named afterTree (afterNamed named) here output loads compiles
  obtain ⟨again, folder⟩ := away.root_found tree here output loads compiles
  have doneAgain := (stands.write_again (afterNamed named) compiles).1
  have succeedsAgain : (run built (.build "realm.toml")).2.exitCode = 0 := by
    rw [run_build, buildProject_eq loadsAgain compilesAgain doneAgain]
  have locates : visibleOutput.locate visibleConfig.root = .ok ["work"] := toOption_eq_some.mp (by decide +kernel)
  refine ⟨loads, succeeds, ?_, succeedsAgain, ?_⟩
  · exact run_build_errors_of_sorted tree loads compiles succeeds quiet locates (by decide) (.of_eq (by decide +kernel))
      (List.pairwise_singleton _ _) first .nil
  · obtain ⟨shownTree, shownNamed⟩ := visibleOutput_isTree_shown
    have found : ∃ spot, visibleOutput.shown.locate (Sources.rootFolder visibleConfig.root) = .ok spot :=
      exists_of_isOk (by decide +kernel)
    have leads : visibleOutput.shown.locate visibleConfig.root = .ok ["work"] := toOption_eq_some.mp (by decide +kernel)
    have shownFolder : visibleOutput.shown.node? ["work"] = some .folder := by decide
    have places : Discovery.wantedNames visibleOutput.shown ["work"] =
        [["build", "client", "page.js"], ["build", "server", "page.js"], ["page.js"]] := by decide +kernel
    have shownOrphans := Discovery.orphans_eq_of_sorted shownTree leads shownFolder (.of_eq places) (by decide +kernel)
      second (List.pairwise_singleton _ _)
    have orphans := (Discovery.orphans_of_fileAt? (by decide) shownTree shownNamed found shownFolder afterTree
      (afterNamed named) again folder here fun names wanted => file wanted).trans shownOrphans
    rw [run_build_errors loadsAgain compilesAgain succeedsAgain, warningLines, List.length_eq_zero_iff.mp quiet,
      discoverProject, orphans]
    rfl

end Command

end Realms
