import Realms.Proofs.Discovery
import Realms.Proofs.FilePath

/-!
What a search below a folder accounts for: each file with the ending of a module that is not behind a folder that is
left out, once. What becomes of a file is told by its names and its bytes alone, so a file that cannot be read takes
nothing away from the others.
-/
namespace Realms

open FilePath (cutAtDot join)

/-! ### Names -/

namespace FilePath

variable {name stem ending : List Char}

theorem cutAtDot_append (some : stem ≠ []) (last : '.' ∉ ending) :
    cutAtDot (stem ++ '.' :: ending) = (stem, .some ending) := by
  have passes : ∀ c ∈ ending.reverse, (c != '.') = true := by
    intro c member
    rw [bne_iff_ne]
    rintro rfl
    exact last (List.mem_reverse.mp member)
  have reversed : (stem ++ '.' :: ending).reverse = ending.reverse ++ '.' :: stem.reverse := by simp
  have behind : (stem ++ '.' :: ending).reverse.dropWhile (· != '.') = '.' :: stem.reverse := by
    rw [reversed, List.dropWhile_append_of_pos passes]
    simp
  have front : (stem ++ '.' :: ending).reverse.takeWhile (· != '.') = ending.reverse := by
    rw [reversed, List.takeWhile_append_of_pos passes]
    simp
  rw [cutAtDot, behind, front]
  simp [some]

theorem of_cutAtDot (cut : (cutAtDot name).2 = some ending) : ∃ stem, stem ≠ [] ∧ name = stem ++ '.' :: ending := by
  unfold cutAtDot at cut
  split at cut
  · rename_i c stem behind
    split at cut
    · cases cut
    · rename_i some
      obtain rfl := Option.some.inj cut
      have dot : c = '.' := by simpa [behind] using List.head?_dropWhile_not (· != '.') name.reverse
      refine ⟨stem.reverse, by simpa using some, ?_⟩
      have whole := @List.takeWhile_append_dropWhile _ (· != '.') name.reverse
      rw [behind, dot] at whole
      rw [← List.reverse_inj]
      simpa using whole.symm
  · cases cut

end FilePath

namespace Discovery

/-- A name that goes on, behind something, with a dot and the ending of a module. -/
def HasModuleEnding (name : String) : Prop :=
  ∃ stem ending, stem ≠ "" ∧ ending ∈ moduleEndings ∧ name = stem ++ "." ++ ending

/-- A folder that is not entered on the way down from a root. -/
def IsLeftOut (folder : String) : Prop :=
  (∃ rest, folder = "." ++ rest) ∨ folder = "node_modules" ∨ folder = "dist" ∨ folder = "target"

theorem isSkipped_iff {folder : String} : isSkipped folder = true ↔ IsLeftOut folder := by
  have hidden : folder.startsWith "." = true ↔ ∃ rest, folder = "." ++ rest := by
    rw [String.startsWith_string_iff]
    constructor
    · rintro ⟨rest, chars⟩
      refine ⟨String.ofList rest, ?_⟩
      rw [← String.toList_inj, ← chars, String.toList_append, String.toList_ofList (l := rest)]
    · rintro ⟨rest, rfl⟩
      rw [String.toList_append]
      exact List.prefix_append _ _
  rw [isSkipped, Bool.or_eq_true, hidden, IsLeftOut]
  simp

theorem moduleEndings_plain : ∀ ending ∈ moduleEndings, ending ≠ "" ∧ '.' ∉ ending.toList := by decide

theorem isModuleName_iff {name : String} : isModuleName name = true ↔ HasModuleEnding name := by
  have found : isModuleName name = true ↔ ∃ ending ∈ moduleEndings, FilePath.ending? name = some ending := by
    rw [isModuleName]
    split <;> simp_all
  rw [found]
  constructor
  · rintro ⟨ending, listed, ends⟩
    rw [FilePath.ending?] at ends
    split at ends
    · cases ends
    · obtain ⟨chars, cut, rfl⟩ := Option.map_eq_some_iff.mp ends
      obtain ⟨stem, some, whole⟩ := FilePath.of_cutAtDot cut
      refine ⟨String.ofList stem, _, ?_, listed, ?_⟩
      · intro empty
        exact some (by simpa using congrArg String.toList empty)
      · rw [← String.toList_inj, whole]
        simp
  · rintro ⟨stem, ending, some, listed, rfl⟩
    obtain ⟨nonempty, plain⟩ := moduleEndings_plain ending listed
    have stemChars : stem.toList ≠ [] := fun empty => some (String.toList_inj.mp empty)
    have endingChars : ending.toList ≠ [] := fun empty => nonempty (String.toList_inj.mp empty)
    have chars : (stem ++ "." ++ ending).toList = stem.toList ++ '.' :: ending.toList := by simp
    have notUp : ¬(stem ++ "." ++ ending == "..") = true := by
      rw [beq_iff_eq, ← String.toList_inj, chars]
      intro same
      have lengths := congrArg List.length same
      have first := List.length_pos_of_ne_nil stemChars
      have last := List.length_pos_of_ne_nil endingChars
      simp only [List.length_append, List.length_cons] at lengths
      have two : "..".toList.length = 2 := rfl
      omega
    refine ⟨ending, listed, ?_⟩
    rw [FilePath.ending?, if_neg notUp, chars, FilePath.cutAtDot_append stemChars plain]
    simp

end Discovery

/-- A file that a search below a place has to account for, by the names that lead to it from there. -/
def Disk.HasSource (disk : Disk) (spot names : Place) (content : List UInt8) : Prop :=
  disk.node? (spot ++ names) = some (.file content) ∧
    ∃ folders name, names = folders ++ [name] ∧ Discovery.HasModuleEnding name ∧
      ∀ folder ∈ folders, ¬Discovery.IsLeftOut folder

namespace Discovery

variable {disk : Disk} {spot names : Place} {root : String} {shared : SharedSet} {content : List UInt8}

theorem isWanted_iff : isWanted names = true ↔
    ∃ folders name, names = folders ++ [name] ∧ HasModuleEnding name ∧ ∀ folder ∈ folders, ¬IsLeftOut folder := by
  induction names using List.reverseRecOn with
  | nil =>
      refine iff_of_false nofun ?_
      rintro ⟨folders, name, none, _⟩
      exact List.concat_ne_nil name folders none.symm
  | append_singleton folders name =>
      have parts : isWanted (folders ++ [name]) = true ↔
          HasModuleEnding name ∧ ∀ folder ∈ folders, ¬IsLeftOut folder := by
        rw [isWanted, List.dropLast_concat, List.getLast?_concat, Option.any_some, Bool.and_eq_true,
          Bool.not_eq_true', List.any_eq_false, isModuleName_iff, and_comm]
        simp only [isSkipped_iff]
      rw [parts]
      constructor
      · intro own
        exact ⟨folders, name, rfl, own⟩
      · rintro ⟨folders', name', same, own⟩
        obtain ⟨rfl, last⟩ := List.append_inj' same rfl
        obtain rfl := List.singleton_inj.mp last
        exact own

theorem hasSource_iff : disk.HasSource spot names content ↔
    isWanted names = true ∧ disk.fileAt? (spot ++ names) = some content := by
  rw [isWanted_iff, Disk.fileAt?_eq_some, and_comm]
  rfl

/-- The files below a place in their order, each with the names that lead to it. -/
def sourceFiles (disk : Disk) (spot : Place) : List (Place × List UInt8) :=
  ((disk.filesBelow spot).filter fun file => isWanted file.1).mergeSort fun a b => placeLe a.1 b.1

theorem mem_sourceFiles (tree : disk.IsTree) :
    (names, content) ∈ sourceFiles disk spot ↔ disk.HasSource spot names content := by
  rw [sourceFiles, List.mem_mergeSort, List.mem_filter, tree.mem_filesBelow, hasSource_iff, and_comm]

theorem sourceFiles_names (disk : Disk) (spot : Place) :
    (sourceFiles disk spot).map Prod.fst = (wantedNames disk spot).mergeSort placeLe := by
  have sorts := @List.map_mergeSort _ _ (fun a b => placeLe a.1 b.1) placeLe Prod.fst
    ((disk.filesBelow spot).filter fun file => isWanted file.1) fun _ _ _ _ => rfl
  rw [sourceFiles, sorts, wantedNames, List.filter_map]
  rfl

theorem sourceFiles_once (tree : disk.IsTree) (spot : Place) : ((sourceFiles disk spot).map Prod.fst).Nodup := by
  rw [sourceFiles_names]
  exact (List.mergeSort_perm _ _).nodup_iff.mpr (wantedNames_nodup tree spot)

theorem sourceFiles_sorted (disk : Disk) (spot : Place) :
    (sourceFiles disk spot).Pairwise fun a b => placeLe a.1 b.1 = true :=
  List.pairwise_mergeSort (fun a b c => placeLe_trans a.1 b.1 c.1) (fun a b => placeLe_total a.1 b.1) _

/-- There is one way to list the files in their order. -/
theorem eq_sourceFiles (tree : disk.IsTree) {files : List (Place × List UInt8)} (once : (files.map Prod.fst).Nodup)
    (sorted : files.Pairwise fun a b => placeLe a.1 b.1 = true)
    (counted : ∀ names content, (names, content) ∈ files ↔ disk.HasSource spot names content) :
    files = sourceFiles disk spot := by
  have same (file : Place × List UInt8) : file ∈ files ↔ file ∈ sourceFiles disk spot :=
    (counted file.1 file.2).trans (mem_sourceFiles tree).symm
  have perm := (List.perm_ext_iff_of_nodup once.of_map (sourceFiles_once tree spot).of_map).mpr same
  refine perm.eq_of_pairwise ?_ sorted (sourceFiles_sorted disk spot)
  rintro ⟨a, bytes⟩ ⟨b, others⟩ first second below above
  obtain rfl : a = b := le_antisymm (placeLe_iff.mp below) (placeLe_iff.mp above)
  have stands := ((counted a bytes).mp first).1
  have stands' := ((mem_sourceFiles tree).mp second).1
  cases stands.symm.trans stands'
  rfl

/-- What a module file comes to, told by its names below a root and its bytes. -/
def entryOf (shared : SharedSet) (root : String) (file : Place × List UInt8) : Except BuildError DiscoveredModule := do
  let path ← ModulePath.ofFile root (file.1.foldl join root)
  match Text.decode? file.2 with
  | none => .error (.atFile (.unreadable FileFault.badText.message) path.text)
  | some source =>
    match ModuleRecord.parse? shared path source with
    | none => .error (.atFile .unparsable path.text)
    | some found => .ok ⟨path, found.realm, found.exports.map (·.name), found.defaultExport.isSome⟩

theorem entryOf_eq_ok {one : DiscoveredModule} : entryOf shared root (names, content) = .ok one ↔
    ∃ path source record, ModulePath.ofFile root (names.foldl join root) = .ok path ∧
      Text.decode? content = some source ∧ ModuleRecord.parse? shared path source = some record ∧
        one = ⟨path, record.realm, record.exports.map (·.name), record.defaultExport.isSome⟩ := by
  rw [entryOf, bind_eq_ok]
  refine exists_congr fun path => ?_
  cases decodes : Text.decode? content with
  | none => simp
  | some source =>
      cases parses : ModuleRecord.parse? shared path source with
      | none => simp [parses]
      | some record => simp [parses, eq_comm]

theorem discoverFile_eq_entryOf (tree : disk.IsTree) (named : disk.IsNamed)
    (found : ∃ spot, disk.locate (Sources.rootFolder root) = .ok spot) (wanted : isWanted names = true)
    (stands : disk.node? (FilePath.place disk.here root ++ names) = some (.file content)) :
    discoverFile disk shared root (names.foldl join root) = entryOf shared root (names, content) := by
  rw [discoverFile, entryOf]
  congr 1
  funext path
  rw [read_file tree named found wanted stands]
  cases Text.decode? content with
  | none => rfl
  | some source => cases ModuleRecord.parse? shared path source <;> rfl

def error? {ε α : Type} : Except ε α → Option ε
  | .ok _ => none
  | .error e => some e

theorem foldl_add_errors (results : List (Except BuildError DiscoveredModule)) (found : Discovery) :
    (results.foldl add found).errors = found.errors ++ results.filterMap error? := by
  induction results generalizing found with
  | nil => simp
  | cons result rest ih =>
      rw [List.foldl_cons, ih]
      cases result <;> simp [add, error?, List.filterMap_cons]

/-- A list of the files below a place that a search tells of, and what it says of each: a module or an error. -/
structure Accounts (disk : Disk) (shared : SharedSet) (root : String) (spot : Place)
    (files : List (Place × List UInt8)) : Prop where
  once : (files.map Prod.fst).Nodup
  counted : ∀ names content, (names, content) ∈ files ↔ disk.HasSource spot names content
  modules : (discover disk shared root).modules.Perm (files.filterMap fun file => (entryOf shared root file).toOption)
  sorted : (discover disk shared root).modules.Pairwise fun a b => a.path.text ≤ b.path.text
  errors : (discover disk shared root).errors = files.filterMap fun file => error? (entryOf shared root file)

theorem sourceFiles_accounts (tree : disk.IsTree) (named : disk.IsNamed) (written : root ≠ "")
    (locates : disk.locate root = .ok spot) (folder : disk.node? spot = some .folder) (shared : SharedSet) :
    Accounts disk shared root spot (sourceFiles disk spot) := by
  obtain rfl := Disk.locate_eq_ok locates
  have found : ∃ spot, disk.locate (Sources.rootFolder root) = .ok spot := by
    rw [Sources.rootFolder, if_neg (by simpa using written)]
    exact ⟨_, locates⟩
  have results : (moduleFiles disk root).map (discoverFile disk shared root) =
      (sourceFiles disk (FilePath.place disk.here root)).map (entryOf shared root) := by
    rw [moduleFiles_eq locates folder, ← sourceFiles_names, List.map_map, List.map_map]
    refine List.map_congr_left ?_
    rintro ⟨names, content⟩ listed
    obtain ⟨wanted, file⟩ := hasSource_iff.mp ((mem_sourceFiles tree).mp listed)
    exact discoverFile_eq_entryOf tree named found wanted (Disk.fileAt?_eq_some.mp file)
  refine ⟨sourceFiles_once tree _, fun names content => mem_sourceFiles tree, ?_, ?_, ?_⟩
  · rw [discover, results]
    dsimp only
    rw [foldl_add_modules, List.nil_append, List.filterMap_map]
    exact List.mergeSort_perm _ _
  · refine (List.pairwise_mergeSort pathLe_trans pathLe_total _).imp ?_
    intro a b below
    exact of_decide_eq_true below
  · rw [discover, results]
    dsimp only
    rw [foldl_add_errors, List.nil_append, List.filterMap_map]
    rfl

/-- What is listed of a file when other bytes stand under some names. -/
def replaced (names : Place) (bytes : List UInt8) (file : Place × List UInt8) : Place × List UInt8 :=
  if file.1 = names then (names, bytes) else file

theorem replaced_names (bytes : List UInt8) (file : Place × List UInt8) : (replaced names bytes file).1 = file.1 := by
  rw [replaced]
  split
  · rename_i same
    exact same.symm
  · rfl

/-- Other bytes in one file leave the list of the files as it is, but for these bytes. -/
theorem sourceFiles_put (tree : disk.IsTree) (listed : disk.HasSource spot names content) (bytes : List UInt8) :
    (disk.put (spot ++ names) (.file bytes)).IsTree ∧
      sourceFiles (disk.put (spot ++ names) (.file bytes)) spot =
        (sourceFiles disk spot).map (replaced names bytes) := by
  have stands := listed.1
  obtain ⟨folders, name, rfl, _⟩ := listed.2
  have notRoot : spot ++ (folders ++ [name]) ≠ [] := by simp
  have edited : (disk.put (spot ++ (folders ++ [name])) (.file bytes)).IsTree := by
    rw [← List.append_assoc] at stands ⊢
    exact tree.put (tree.held _ _ _ stands) (by rw [stands]; nofun)
  refine ⟨edited, (eq_sourceFiles edited ?_ ?_ ?_).symm⟩
  · have names : Prod.fst ∘ replaced (folders ++ [name]) bytes = Prod.fst := funext (replaced_names bytes)
    rw [List.map_map, names]
    exact sourceFiles_once tree spot
  · rw [List.pairwise_map]
    simp only [replaced_names]
    exact sourceFiles_sorted disk spot
  · intro others content'
    rw [List.mem_map]
    constructor
    · rintro ⟨⟨found, content⟩, member, same⟩
      have source := (mem_sourceFiles tree).mp member
      rw [replaced] at same
      split at same
      · cases same
        exact ⟨Disk.node?_put_self notRoot, listed.2⟩
      · rename_i different
        cases same
        exact ⟨(Disk.node?_put_other fun own => different (List.append_cancel_left own)).trans source.1, source.2⟩
    · rintro ⟨holds, isSource⟩
      by_cases own : others = folders ++ [name]
      · subst own
        cases (Disk.node?_put_self notRoot).symm.trans holds
        exact ⟨_, (mem_sourceFiles tree).mpr listed, if_pos rfl⟩
      · rw [Disk.node?_put_other fun same => own (List.append_cancel_left same)] at holds
        exact ⟨_, (mem_sourceFiles tree).mpr ⟨holds, isSource⟩, if_neg own⟩

/-- A file on a disk is on no way to a folder. -/
theorem locate_put {text : String} (locates : disk.locate text = .ok spot) {names : Place} {old : List UInt8}
    (stands : disk.node? names = some (.file old)) (bytes : List UInt8) :
    (disk.put names (.file bytes)).locate text = .ok spot := by
  obtain ⟨written, way, clean⟩ := Disk.locate_isOk.mp ⟨spot, locates⟩
  rw [Disk.locate_eq_ok locates]
  refine Disk.locate_eq_place (Disk.locate_isOk.mpr ⟨written, ?_, clean⟩)
  intro stop member
  have holds := way stop member
  rw [Disk.node?_put_other, holds]
  rintro rfl
  cases stands.symm.trans holds

/-- A search below an absolute root accounts for each module file there once, by its names and its bytes alone. -/
theorem discover_accounts (tree : disk.IsTree) (named : disk.IsNamed) (absolute : FilePath.isAbsolute root = true)
    (locates : disk.locate root = .ok spot) (folder : disk.node? spot = some .folder) (shared : SharedSet) :
    ∃ files, Accounts disk shared root spot files ∧ ∀ names content, (names, content) ∈ files →
      (∀ one, entryOf shared root (names, content) = .ok one ↔
        ∃ path source record, ModulePath.ofFile root (names.foldl join root) = .ok path ∧
          Text.decode? content = some source ∧ ModuleRecord.parse? shared path source = some record ∧
            one = ⟨path, record.realm, record.exports.map (·.name), record.defaultExport.isSome⟩) ∧
      ((∀ name ∈ names, '\\' ∉ name.toList) →
        ModulePath.ofFile root (names.foldl join root) = .ok (Sources.pathOf names)) ∧
      ∀ bytes, Accounts (disk.put (spot ++ names) (.file bytes)) shared root spot
        (files.map (replaced names bytes)) := by
  have written : root ≠ "" := FilePath.IsBare.ne_empty (.inl absolute)
  refine ⟨_, sourceFiles_accounts tree named written locates folder shared, ?_⟩
  intro names content listed
  have source := (mem_sourceFiles tree).mp listed
  have stands := source.1
  have areNames := named.of_below stands
  have below : names ≠ [] := isWanted_ne_nil (hasSource_iff.mp source).1
  refine ⟨fun one => entryOf_eq_ok, fun plain => ?_, fun bytes => ?_⟩
  · exact FilePath.IsBare.ofFile (.inl absolute) below fun name member =>
      (areNames name member).1.isName (plain name member)
  · obtain ⟨edited, files⟩ := sourceFiles_put tree source bytes
    rw [← files]
    refine sourceFiles_accounts edited (named.put (named.of_node? stands)) written (locate_put locates stands bytes) ?_
      shared
    rwa [Disk.node?_put_other]
    exact fun own => below (List.append_right_eq_self.mp own.symm)

/-- A page, a file that is no text and one that is no module, in a folder that would be left out elsewhere. -/
def mixedFolder : Disk where
  nodes := [
    (["dist"], .folder),
    (["dist", "page.js"], .file (Text.bytesOf "'use client'")),
    (["dist", "image.ts"], .file [255]),
    (["dist", "lib"], .folder),
    (["dist", "lib", "draft.mjs"], .file (Text.bytesOf "=")),
    (["dist", "lib", "notes.md"], .file []),
    (["dist", "target"], .folder),
    (["dist", "target", "page.js"], .file (Text.bytesOf "'use client'"))]
  here := []

theorem mixedFolder_accounts : mixedFolder.IsTree ∧ mixedFolder.IsNamed ∧
    FilePath.isAbsolute "/dist/./lib/.." = true ∧ mixedFolder.locate "/dist/./lib/.." = .ok ["dist"] ∧
      mixedFolder.node? ["dist"] = some .folder ∧
        ⟨⟨"page.js"⟩, .client, [], false⟩ ∈ (discover mixedFolder [] "/dist/./lib/..").modules ∧
        .atFile .unparsable "lib/draft.mjs" ∈ (discover mixedFolder [] "/dist/./lib/..").errors ∧
          ∃ files, Accounts mixedFolder [] "/dist/./lib/.." ["dist"] files ∧
            (∀ content, (["target", "page.js"], content) ∉ files) ∧
              Accounts (mixedFolder.put ["dist", "lib", "draft.mjs"] (.file [])) [] "/dist/./lib/.." ["dist"]
                (files.map (replaced ["lib", "draft.mjs"] [])) := by
  have tree : mixedFolder.IsTree := Disk.isTree_of_all (by decide) (by decide +kernel)
  have named : mixedFolder.IsNamed := Disk.isNamed_of_all (by decide +kernel)
  have absolute : FilePath.isAbsolute "/dist/./lib/.." = true := by decide
  have locates : mixedFolder.locate "/dist/./lib/.." = .ok ["dist"] := toOption_eq_some.mp (by decide +kernel)
  have folder : mixedFolder.node? ["dist"] = some .folder := by decide +kernel
  obtain ⟨files, accounts, each⟩ := discover_accounts tree named absolute locates folder []
  have page : (["page.js"], Text.bytesOf "'use client'") ∈ files :=
    (accounts.counted _ _).mpr (hasSource_iff.mpr (by decide +kernel))
  have draft : (["lib", "draft.mjs"], Text.bytesOf "=") ∈ files :=
    (accounts.counted _ _).mpr (hasSource_iff.mpr (by decide +kernel))
  refine ⟨tree, named, absolute, locates, folder, ?_, ?_, files, accounts, ?_, (each _ _ draft).2.2 []⟩
  · exact accounts.modules.mem_iff.mpr (List.mem_filterMap.mpr ⟨_, page, by decide +kernel⟩)
  · rw [accounts.errors]
    exact List.mem_filterMap.mpr ⟨_, draft, by decide +kernel⟩
  · intro content listed
    have wanted := (hasSource_iff.mp ((accounts.counted _ _).mp listed)).1
    exact absurd wanted (by decide +kernel)

/-- A page whose name is a way out of the root, where a backslash separates as well. -/
def upwardFolder : Disk where
  nodes := [
    (["app"], .folder),
    (["app", "..\\page.js"], .file (Text.bytesOf "'use client'"))]
  here := []

/-- The page can be read and parsed, and is an error all the same: its path leaves the root before it is read. -/
theorem upwardFolder_refused : upwardFolder.IsTree ∧ upwardFolder.IsNamed ∧
    FilePath.isAbsolute "/app" = true ∧ upwardFolder.locate "/app" = .ok ["app"] ∧
      upwardFolder.node? ["app"] = some .folder ∧
        upwardFolder.HasSource ["app"] ["..\\page.js"] (Text.bytesOf "'use client'") ∧
        upwardFolder.read "/app/..\\page.js" = .ok "'use client'" ∧
        (ModuleRecord.parse? [] ⟨"..\\page.js"⟩ "'use client'").isSome = true ∧
          (discover upwardFolder [] "/app").modules = [] ∧
          (discover upwardFolder [] "/app").errors = [.atFile (.escapesRoot "..\\page.js") "..\\page.js"] := by
  have tree : upwardFolder.IsTree := Disk.isTree_of_all (by decide) (by decide +kernel)
  have named : upwardFolder.IsNamed := by
    have names : ∀ entry ∈ upwardFolder.nodes, ∀ name ∈ entry.1,
        (name ≠ "" ∧ name ≠ "." ∧ name ≠ "..") ∧ '/' ∉ name.toList ∧ '\x00' ∉ name.toList := by decide +kernel
    intro entry listed name member
    obtain ⟨plain, noSlash, clean⟩ := names entry listed name member
    exact ⟨⟨plain, noSlash⟩, clean⟩
  have locates : upwardFolder.locate "/app" = .ok ["app"] := toOption_eq_some.mp (by decide +kernel)
  have found : discover upwardFolder [] "/app" =
      ⟨[], [.atFile (.escapesRoot "..\\page.js") "..\\page.js"]⟩ := by decide +kernel
  refine ⟨tree, named, by decide, locates, by decide +kernel, hasSource_iff.mpr (by decide +kernel), ?_,
    by decide +kernel, ?_, ?_⟩
  · exact toOption_eq_some.mp (by decide +kernel)
  · rw [found]
  · rw [found]

end Discovery
end Realms
