import Realms.Proofs.Disk.Ending
import Realms.Proofs.Disk.Filled
import Realms.Proofs.Disk.Named

/-!
Where folders can be created and files can be written. Below a path that ends in its name, a folder is created
together with those that must hold it wherever no file is in the way, and afterwards a path leads there.
-/
namespace Realms

namespace FilePath

variable {here : Place} {names : List String} {base name : String}

theorem foldl_join_ne_empty (areNames : ∀ name ∈ names, IsFileName name) (some : names ≠ []) (base : String) :
    names.foldl join base ≠ "" := by
  rw [← List.dropLast_append_getLast some, List.foldl_append]
  have isName := areNames _ (List.getLast_mem some)
  obtain ⟨folder, _, chars⟩ := exists_join (names.dropLast.foldl join base)
  intro empty
  have nothing := (chars _ isName).symm.trans (congrArg String.toList empty)
  exact isName.nonempty (List.append_eq_nil_iff.mp nothing).2

/-- A written path that ends in the name of what it leads to. -/
def EndsInName (text : String) : Prop := ∃ front name, IsFileName name ∧ text = join front name

theorem endsInName_join (isName : IsFileName name) (base : String) : EndsInName (join base name) :=
  ⟨base, name, isName, rfl⟩

theorem endsInName_foldl_join (areNames : ∀ name ∈ names, IsFileName name) (ends : EndsInName base) :
    EndsInName (names.foldl join base) := by
  induction names generalizing base with
  | nil => exact ends
  | cons first rest ih =>
      exact ih (fun name member => areNames name (List.mem_cons_of_mem first member))
        (endsInName_join (areNames first List.mem_cons_self) base)

namespace EndsInName

variable (ends : EndsInName base)

include ends

theorem chars : ∃ name folder, IsFileName name ∧ base.toList = folder ++ name.toList := by
  obtain ⟨front, name, isName, rfl⟩ := ends
  obtain ⟨folder, _, chars⟩ := exists_join front
  exact ⟨name, folder, isName, chars name isName⟩

theorem ne_empty : base ≠ "" := by
  obtain ⟨name, folder, isName, chars⟩ := ends.chars
  rintro rfl
  exact isName.nonempty (List.append_eq_nil_iff.mp chars.symm).2

theorem last_ne_slash : base.toList.getLast? ≠ some '/' := by
  obtain ⟨name, folder, isName, chars⟩ := ends.chars
  rw [chars, List.getLast?_append_of_ne_nil _ isName.nonempty]
  exact fun last => isName.noSlash (List.mem_of_getLast? last)

theorem withoutSlashes_eq : withoutSlashes base = base := by
  have noSlash : base.toList.reverse.dropWhile (· == '/') = base.toList.reverse := by
    have last := ends.last_ne_slash
    rw [← List.head?_reverse] at last
    cases chars : base.toList.reverse with
    | nil => rfl
    | cons first rest =>
        rw [chars, List.head?_cons, ne_eq, Option.some.injEq] at last
        rw [List.dropWhile_cons_of_neg (by simpa using last)]
  have some : base.toList.reverse ≠ [] := by simpa using ends.ne_empty
  rw [withoutSlashes, noSlash]
  split
  · contradiction
  · rw [List.reverse_reverse, String.ofList_toList]

/-- Behind a name comes a slash. -/
theorem join_eq (isName : IsFileName name) : join base name = base ++ "/" ++ name := by
  rw [join, if_neg (Bool.eq_false_iff.mp isName.relative), if_neg (by simp [ends.ne_empty, ends.last_ne_slash])]

/-- What holds a name is what it was put behind. -/
theorem parent?_join (isName : IsFileName name) : parent? (join base name) = some base := by
  obtain ⟨own, folder, isOwn, chars⟩ := ends.chars
  have trims : trimmed (join base name) = (base.toList ++ ['/']) ++ name.toList := by
    refine trimmed_eq isName ?_
    rw [(endsInName_join isName base).withoutSlashes_eq, ends.join_eq isName]
    simp
  have whole : ∀ c ∈ name.toList.reverse, (c != '/') = true := fun c member => by
    simpa using isName.last_ne_slash (List.mem_reverse.mp member)
  have back : (trimmed (join base name)).reverse = name.toList.reverse ++ '/' :: base.toList.reverse := by
    rw [trims]
    simp
  have some : base.toList.reverse ≠ [] := by simpa using ends.ne_empty
  have front : trimReversed ('/' :: base.toList.reverse).length ('/' :: base.toList.reverse) =
      base.toList.reverse := by
    have step := trimReversed_slashes some 1 base.toList.reverse.length
    rw [List.length_cons, Nat.add_comm]
    refine step.trans ?_
    rw [chars, List.reverse_append, trimReversed_name isOwn]
  have notRoot : name.toList.reverse ++ '/' :: base.toList.reverse ≠ ['/'] := by
    intro same
    obtain ⟨c, rest, first⟩ := List.exists_cons_of_ne_nil (List.reverse_ne_nil_iff.mpr isName.nonempty)
    rw [first, List.cons_append, List.cons_eq_cons] at same
    simp at same
  rw [parent?, back, if_neg (by simp [notRoot])]
  dsimp only
  rw [List.dropWhile_append_of_pos whole, List.dropWhile_cons_of_neg (by simp), front, List.reverse_reverse,
    String.ofList_toList]

/-- Each name makes a path longer. -/
theorem length_foldl_join (areNames : ∀ name ∈ names, IsFileName name) :
    base.length + names.length ≤ (names.foldl join base).length := by
  induction names generalizing base with
  | nil => simp
  | cons first rest ih =>
      have isFirst := areNames first List.mem_cons_self
      have longer := ih (endsInName_join isFirst base) fun name member =>
        areNames name (List.mem_cons_of_mem first member)
      have one : (join base first).length = base.length + 1 + first.length := by
        rw [ends.join_eq isFirst, String.length_append, String.length_append]
        rfl
      rw [List.foldl_cons, List.length_cons]
      omega

end EndsInName

end FilePath

namespace Disk

open FilePath (place through EndsInName)

variable {disk : Disk} {text base : String} {spot names : Place}

/-- Names lead from a path to where they stand if all but the last are folders. -/
theorem locate_names (areNames : ∀ name ∈ names, FilePath.IsFileName name ∧ '\x00' ∉ name.toList) (below : names ≠ [])
    (way : ∀ stop ∈ through disk.here base, disk.node? stop = some .folder)
    (clean : ∀ part ∈ FilePath.splitParts base, '\x00' ∉ part.toList)
    (folders : ∀ front rest, names = front ++ rest → rest ≠ [] →
      disk.node? (place disk.here base ++ front) = some .folder) :
    disk.locate (names.foldl FilePath.join base) = .ok (place disk.here base ++ names) := by
  have isNames : ∀ name ∈ names, FilePath.IsFileName name := fun name member => (areNames name member).1
  obtain ⟨spot, locates⟩ : ∃ spot, disk.locate (names.foldl FilePath.join base) = .ok spot := by
    refine locate_isOk.mpr ⟨FilePath.foldl_join_ne_empty isNames below base, fun stop member => ?_,
      fun part member => ?_⟩
    · rcases (FilePath.mem_through_names isNames base).mp member with onWay | ⟨front, rest, split, more, rfl⟩
      · exact way stop onWay
      · exact folders front rest split more
    · by_cases empty : part = ""
      · simp [empty]
      · exact ((FilePath.mem_splitParts_names isNames empty).mp member).elim (clean part) fun own =>
          (areNames part own).2
  rw [locates, locate_eq_ok locates, FilePath.place_foldl_join isNames]

/-! ### One folder -/

theorem createFolder_of_free (ends : EndsInName text) (locates : disk.locate text = .ok spot)
    (free : disk.node? spot = none) : disk.createFolder text = .ok (disk.put spot .folder) := by
  rw [createFolder, ends.withoutSlashes_eq, locates]
  simp [bind, Except.bind, free]

theorem createFolder_of_folder (ends : EndsInName text) (locates : disk.locate text = .ok spot)
    (folder : disk.node? spot = some .folder) :
    disk.createFolder text = .error .taken ∧ disk.isFolder text = true := by
  rw [createFolder, ends.withoutSlashes_eq, isFolder, find?, locates]
  simp [bind, Except.bind, folder]

/-- Where no file stands there is a folder afterwards, if what must hold it is there. -/
theorem ensureFolder_isOk (ends : EndsInName text) (locates : disk.locate text = .ok spot)
    (notFile : disk.node? spot = none ∨ disk.node? spot = some .folder) :
    ∃ after, disk.ensureFolder text = .ok after := by
  rw [ensureFolder]
  rcases notFile with free | folder
  · exact ⟨_, by rw [createFolder_of_free ends locates free]⟩
  · obtain ⟨taken, isFolder⟩ := createFolder_of_folder ends locates folder
    exact ⟨disk, by rw [taken]; exact if_pos isFolder⟩

theorem isFolder_eq_true : disk.isFolder text = true ↔ ∃ spot, disk.locate text = .ok spot ∧
    disk.node? spot = some .folder := by
  rw [isFolder, beq_iff_eq, find?]
  cases disk.locate text <;> simp

theorem node?_of_createFolder {after : Disk} (h : disk.createFolder text = .ok after) :
    after.node? (place disk.here text) = some .folder := by
  obtain ⟨_, free, rfl⟩ := createFolder_eq_ok h
  refine node?_put_self fun root => ?_
  rw [root] at free
  cases free

theorem node?_of_isFolder (h : disk.isFolder text = true) : disk.node? (place disk.here text) = some .folder := by
  obtain ⟨spot, locates, folder⟩ := isFolder_eq_true.mp h
  rwa [← locate_eq_ok locates]

theorem node?_of_ensureFolder {after : Disk} (h : disk.ensureFolder text = .ok after) :
    after.node? (place disk.here text) = some .folder := by
  unfold ensureFolder at h
  split at h
  · rename_i next creates
    exact node?_of_createFolder (creates.trans h)
  · split at h
    · rename_i isFolder
      exact Except.ok.inj h ▸ node?_of_isFolder isFolder
    · cases h

theorem write_of_locate {content : List UInt8} (locates : disk.locate text = .ok spot)
    (notFolder : disk.node? spot ≠ some .folder) : disk.write text content = .ok (disk.put spot (.file content)) := by
  rw [write, locates]
  simp only [bind, Except.bind]

/-! ### Folders and what must hold them -/

theorem node?_of_createFoldersWithin {after : Disk} {levels : Nat} (nonempty : text ≠ "")
    (h : createFoldersWithin levels disk text = .ok after) : after.node? (place disk.here text) = some .folder := by
  cases levels with
  | zero => cases h
  | succ levels =>
      unfold createFoldersWithin at h
      rw [if_neg (by simpa using nonempty)] at h
      split at h
      · rename_i next creates
        exact node?_of_createFolder (creates.trans h)
      · split at h
        · cases h
        · obtain ⟨next, creates, ensures⟩ := bind_eq_ok.mp h
          exact (createFoldersWithin_leaves creates).here ▸ node?_of_ensureFolder ensures
      · split at h
        · rename_i isFolder
          exact Except.ok.inj h ▸ node?_of_isFolder isFolder
        · cases h

theorem createFoldersWithin_of_locate (ends : EndsInName text) (levels : Nat)
    (locates : disk.locate text = .ok spot)
    (notFile : disk.node? spot = none ∨ disk.node? spot = some .folder) :
    ∃ after, createFoldersWithin (levels + 1) disk text = .ok after := by
  rw [createFoldersWithin, if_neg (by simpa using ends.ne_empty)]
  rcases notFile with free | folder
  · exact ⟨_, by rw [createFolder_of_free ends locates free]⟩
  · obtain ⟨taken, isFolder⟩ := createFolder_of_folder ends locates folder
    exact ⟨disk, by rw [taken]; exact if_pos isFolder⟩

/-- A name leads into a folder that names below a path lead to. -/
theorem IsTree.locate_into {front : Place} {name : String} (tree : disk.IsTree)
    (way : ∀ stop ∈ through disk.here base, disk.node? stop = some .folder)
    (clean : ∀ part ∈ FilePath.splitParts base, '\x00' ∉ part.toList)
    (areNames : ∀ other ∈ front ++ [name], FilePath.IsFileName other ∧ '\x00' ∉ other.toList)
    (folder : disk.node? (place disk.here base ++ front) = some .folder) :
    disk.locate ((front ++ [name]).foldl FilePath.join base) = .ok (place disk.here base ++ (front ++ [name])) := by
  refine locate_names areNames (by simp) way clean fun above rest split more => ?_
  obtain ⟨rest, last, rfl⟩ : ∃ rest' last, rest = rest' ++ [last] := ⟨_, _, (List.dropLast_concat_getLast more).symm⟩
  rw [← List.append_assoc] at split
  obtain ⟨rfl, _⟩ := List.append_inj' split rfl
  by_cases whole : rest = []
  · rwa [whole, List.append_nil] at folder
  · rw [← List.append_assoc] at folder
    exact tree.folder_above whole folder

section Below

variable (tree : disk.IsTree) (ends : EndsInName base) (found : ∃ spot, disk.locate base = .ok spot)
  (areNames : ∀ name ∈ names, FilePath.IsFileName name ∧ '\x00' ∉ name.toList)
  (notFile : ∀ front, front <+: names →
    disk.node? (place disk.here base ++ front) = none ∨ disk.node? (place disk.here base ++ front) = some .folder)

include tree ends found areNames notFile

omit tree in
/-- Where no file is in the way, names lead to where they stand, or there is no folder for them yet. -/
theorem locate_or_notFound : disk.locate (names.foldl FilePath.join base) = .ok (place disk.here base ++ names) ∨
    disk.locate (names.foldl FilePath.join base) = .error .notFound := by
  obtain ⟨_, way, clean⟩ := locate_isOk.mp found
  have isNames : ∀ name ∈ names, FilePath.IsFileName name := fun name member => (areNames name member).1
  have nonempty := (FilePath.endsInName_foldl_join isNames ends).ne_empty
  have parts : ∀ part ∈ FilePath.splitParts (names.foldl FilePath.join base), '\x00' ∉ part.toList := by
    intro part member
    by_cases empty : part = ""
    · simp [empty]
    · exact ((FilePath.mem_splitParts_names isNames empty).mp member).elim (clean part) fun own => (areNames part own).2
  by_cases free : ∃ stop ∈ through disk.here (names.foldl FilePath.join base), disk.node? stop = none
  · refine .inr (locate_notFound nonempty (fun stop member => ?_) free parts)
    rcases (FilePath.mem_through_names isNames base).mp member with onWay | ⟨front, rest, rfl, _, rfl⟩
    · exact .inl (way stop onWay)
    · exact (notFile front (List.prefix_append front rest)).symm
  · refine .inl ?_
    rw [locate_eq_place (locate_isOk.mpr ⟨nonempty, fun stop member => ?_, parts⟩), FilePath.place_foldl_join isNames]
    rcases (FilePath.mem_through_names isNames base).mp member with onWay | ⟨front, rest, rfl, _, rfl⟩
    · exact way stop onWay
    · exact (notFile front (List.prefix_append front rest)).resolve_left fun isFree => free ⟨_, member, isFree⟩

/-- Folders can be created where no file is in the way. -/
theorem createFoldersWithin_isOk {levels : Nat} (enough : names.length < levels) :
    ∃ after, createFoldersWithin levels disk (names.foldl FilePath.join base) = .ok after := by
  obtain ⟨_, way, clean⟩ := locate_isOk.mp found
  induction names using List.reverseRecOn generalizing levels with
  | nil =>
      obtain ⟨spot, locates⟩ := found
      obtain ⟨levels, rfl⟩ := Nat.exists_eq_succ_of_ne_zero (Nat.ne_of_gt enough)
      obtain rfl := locate_eq_ok locates
      exact createFoldersWithin_of_locate ends levels locates (by simpa using notFile [] (List.prefix_refl []))
  | append_singleton front name ih =>
      obtain ⟨levels, rfl⟩ := Nat.exists_eq_succ_of_ne_zero (Nat.ne_of_gt (Nat.zero_lt_of_lt enough))
      have isName := (areNames name (List.mem_append_right front List.mem_cons_self)).1
      have frontNames := fun name member => areNames name (List.mem_append_left _ member)
      have frontEnds := FilePath.endsInName_foldl_join (fun name member => (frontNames name member).1) ends
      have textEnds := FilePath.endsInName_foldl_join (fun name member => (areNames name member).1) ends
      have last := notFile (front ++ [name]) (List.prefix_refl _)
      rcases locate_or_notFound ends found areNames notFile with leads | gone
      · exact createFoldersWithin_of_locate textEnds levels leads last
      · -- the folder for it is created first, and then the path leads there
        obtain ⟨next, creates⟩ := ih frontNames
          (fun part within => notFile part (within.trans (List.prefix_append _ _))) (by simpa using enough)
        have filled := createFoldersWithin_filled creates
        have holds := node?_of_createFoldersWithin frontEnds.ne_empty creates
        rw [FilePath.place_foldl_join fun name member => (frontNames name member).1] at holds
        have leads : next.locate ((front ++ [name]).foldl FilePath.join base) =
            .ok (place next.here base ++ (front ++ [name])) := by
          refine (tree.createFoldersWithin creates).locate_into (fun stop onWay => ?_) clean areNames
            (filled.here.symm ▸ holds)
          rw [filled.here] at onWay
          exact filled.keeps (by simp) (way stop onWay)
        have notFile : next.node? (place next.here base ++ (front ++ [name])) = none ∨
            next.node? (place next.here base ++ (front ++ [name])) = some .folder := by
          rw [filled.here]
          rcases filled.others _ (by simp) with same | ⟨_, folder, _⟩
          · rwa [same]
          · exact .inr folder
        obtain ⟨after, ensures⟩ := ensureFolder_isOk textEnds leads notFile
        rw [List.foldl_append, List.foldl_cons, List.foldl_nil] at gone textEnds ensures ⊢
        refine ⟨after, ?_⟩
        have refused : disk.createFolder (FilePath.join (front.foldl FilePath.join base) name) = .error .notFound := by
          rw [createFolder, textEnds.withoutSlashes_eq, gone]
          rfl
        rw [createFoldersWithin, if_neg (mt beq_iff_eq.mp textEnds.ne_empty), refused]
        dsimp only
        rw [frontEnds.parent?_join isName]
        exact bind_eq_ok.mpr ⟨next, creates, ensures⟩

/-- So they can be created over all levels that the path has. -/
theorem createFolders_isOk : ∃ after, disk.createFolders (names.foldl FilePath.join base) = .ok after := by
  have long := ends.length_foldl_join fun name member => (areNames name member).1
  rw [createFolders]
  exact createFoldersWithin_isOk tree ends found areNames notFile (by omega)

end Below

end Disk

end Realms
