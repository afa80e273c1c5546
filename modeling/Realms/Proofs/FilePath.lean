import Realms.Proofs.Resolution
import Realms.Proofs.Sources.OfDisk

/-!
The module path of a file that was found below a root. It is made of the names that lead to the file, if the root is
absolute, or is written so that it adds no segment to a path.
-/
namespace Realms

open ModulePath (IsName addSegments splitSegments)

namespace FilePath

variable {here : Place} {names : List String} {root text : String}

/-! ### Absolute paths -/

theorem foldl_addPart (parts : List String) (kept : List String) :
    (parts.foldl addPart kept).reverse = parts.foldl enter kept.reverse := by
  induction parts generalizing kept with
  | nil => rfl
  | cons part rest ih =>
      rw [List.foldl_cons, List.foldl_cons, ih, addPart, enter]
      split
      · rfl
      · split
        · rw [List.drop_one, ← List.dropLast_reverse]
        · rw [List.reverse_cons]

/-- The clean form of an absolute path is the place it leads to. -/
theorem clean_absolute (here : Place) (absolute : isAbsolute text = true) : clean text = ⟨true, place here text⟩ := by
  rw [clean, place, absolute, foldl_addPart]
  rfl

theorem dropNames_eq_some {front all : List String} : dropNames front all = some names ↔ all = front ++ names := by
  induction front generalizing all with
  | nil => exact Option.some_inj
  | cons name front ih =>
      cases all with
      | nil => simp [dropNames]
      | cons first rest =>
          by_cases same : name = first
          · simp [dropNames, same, ih]
          · simp [dropNames, same, Ne.symm same]

/-- Below an absolute path lies what goes on from its place. -/
theorem below?_absolute {root spot : Place} {below : FilePath} :
    below? ⟨true, root⟩ ⟨true, spot⟩ = some below ↔ ∃ names, spot = root ++ names ∧ below = ⟨false, names⟩ := by
  rw [below?, if_neg (by simp), if_pos (by rfl), Option.map_eq_some_iff]
  refine exists_congr fun names => ?_
  rw [dropNames_eq_some]
  exact and_congr_right fun _ => eq_comm

theorem isAbsolute_join {name : String} (isName : IsFileName name) (nonempty : root ≠ "") :
    isAbsolute (join root name) = isAbsolute root := by
  rw [join, if_neg (Bool.eq_false_iff.mp isName.relative)]
  split
  · exact isAbsolute_append name nonempty
  · rw [String.append_assoc, isAbsolute_append ("/" ++ name) nonempty]

theorem isAbsolute_foldl_join (nonempty : root ≠ "") (areNames : ∀ name ∈ names, IsFileName name) :
    isAbsolute (names.foldl join root) = isAbsolute root := by
  induction names generalizing root with
  | nil => rfl
  | cons name rest ih =>
      have isName := areNames name List.mem_cons_self
      have areOthers := fun other later => areNames other (List.mem_cons_of_mem name later)
      rw [List.foldl_cons, ih (endsInName_join isName root).ne_empty areOthers, isAbsolute_join isName nonempty]

/-! ### Relative paths -/

/-- The name of a file is that of a module if no backslash takes it apart. -/
theorem IsFileName.isName {name : String} (isName : IsFileName name) (whole : '\\' ∉ name.toList) :
    IsName name.toList where
  nonempty := isName.nonempty
  notHere same := isName.plain.2.1 (String.toList_inj.mp same)
  notUp same := isName.plain.2.2 (String.toList_inj.mp same)
  whole c member := by
    have notSlash : c ≠ '/' := fun same => isName.noSlash (same ▸ member)
    have notBackslash : c ≠ '\\' := fun same => whole (same ▸ member)
    simp [ModulePath.isSeparator, notSlash, notBackslash]

theorem addSegments_join {name : String} (isName : IsName name.toList) (base : String) :
    addSegments [] (splitSegments (join base name).toList) =
      addSegments [] (splitSegments base.toList) >>= fun kept => .ok (name.toList :: kept) := by
  have own := ModulePath.splitSegments_name isName
  have adds (kept : List (List Char)) : addSegments kept [name.toList] = .ok (name.toList :: kept) :=
    ModulePath.addSegments_all (by simpa using isName) kept
  have slash (front : List Char) : addSegments [] (splitSegments (front ++ '/' :: name.toList)) =
      addSegments [] (splitSegments front) >>= fun kept => .ok (name.toList :: kept) := by
    rw [ModulePath.splitSegments_slash, ModulePath.addSegments_append, own]
    simp only [adds]
  rw [join, if_neg (Bool.eq_false_iff.mp (isFileName_of_name isName).relative)]
  split
  · rename_i ends
    rcases Bool.or_eq_true_iff.mp ends with empty | last
    · obtain rfl := beq_iff_eq.mp empty
      rw [String.empty_append, own]
      exact adds []
    · obtain ⟨front, chars⟩ := List.getLast?_eq_some_iff.mp (beq_iff_eq.mp last)
      have nothing : addSegments [] (splitSegments base.toList) = addSegments [] (splitSegments front) := by
        rw [chars, ModulePath.splitSegments_slash, ModulePath.addSegments_append]
        cases addSegments [] (splitSegments front) <;> rfl
      rw [nothing, ← slash, String.toList_append, chars, List.append_assoc]
      rfl
  · rw [String.append_assoc, String.toList_append, String.toList_append, ← slash]
    rfl

/-- Names behind a written path are the last segments of it. -/
theorem addSegments_foldl_join (areNames : ∀ name ∈ names, IsName name.toList) (base : String) :
    addSegments [] (splitSegments (names.foldl join base).toList) =
      addSegments [] (splitSegments base.toList) >>= fun kept => .ok ((names.map String.toList).reverse ++ kept) := by
  induction names generalizing base with
  | nil =>
      rw [List.foldl_nil]
      cases addSegments [] (splitSegments base.toList) <;> rfl
  | cons name rest ih =>
      rw [List.foldl_cons, ih (fun other later => areNames other (List.mem_cons_of_mem name later)),
        addSegments_join (areNames name List.mem_cons_self)]
      cases addSegments [] (splitSegments base.toList) with
      | error fault => rfl
      | ok kept => simp [bind, Except.bind]

/-- A root next to which the names of files are those of modules. -/
def IsBare (root : String) : Prop :=
  isAbsolute root = true ∨ root ≠ "" ∧ addSegments [] (splitSegments root.toList) = .ok []

theorem IsBare.ne_empty (bare : IsBare root) : root ≠ "" := by
  rcases bare with absolute | ⟨nonempty, _⟩
  · rintro rfl
    cases absolute
  · exact nonempty

end FilePath

open FilePath (join place isAbsolute)

variable {names : List String} {root : String}

theorem Sources.pathOf_injective {other : List String} (below : names ≠ []) (otherBelow : other ≠ [])
    (areNames : ∀ name ∈ names, FilePath.IsFileName name) (otherNames : ∀ name ∈ other, FilePath.IsFileName name)
    (same : pathOf names = pathOf other) : names = other := by
  rw [← splitParts_pathOf below areNames, same, splitParts_pathOf otherBelow otherNames]

theorem ModulePath.ofText_of_segments {raw : String} (below : names ≠ [])
    (adds : addSegments [] (splitSegments raw.toList) = .ok (names.map String.toList).reverse) :
    ofText raw = .ok (Sources.pathOf names) := by
  have normal := normalize_names (by simpa using below) adds
  rw [ofText, normal, ← Sources.pathOf_text]

/-- A file is known by the names that lead to it from an absolute root. -/
theorem ModulePath.ofFile_of_place {file : String} (absolute : isAbsolute root = true)
    (fileAbsolute : isAbsolute file = true) (lies : place [] file = place [] root ++ names) (below : names ≠ [])
    (areNames : ∀ name ∈ names, IsName name.toList) : ofFile root file = .ok (Sources.pathOf names) := by
  have behind : FilePath.below? (FilePath.clean root) (FilePath.clean file) = some ⟨false, names⟩ := by
    rw [FilePath.clean_absolute [] absolute, FilePath.clean_absolute [] fileAbsolute, lies]
    exact FilePath.below?_absolute.mpr ⟨names, rfl, rfl⟩
  have raw : (FilePath.text ⟨false, names⟩).toList = joinSegments (names.map String.toList) := by
    rw [← String.toList_ofList (l := joinSegments _), ← Sources.pathOf_text]
    simp [FilePath.text, Sources.pathOf]
  have segments : ∀ segment ∈ names.map String.toList, IsName segment := by simpa using areNames
  rw [ofFile, fileAbsolute]
  simp only [Bool.not_true, Bool.false_eq_true, if_false, behind]
  refine ofText_of_segments below ?_
  rw [raw, splitSegments_join (by simpa using below) segments, addSegments_all segments, List.append_nil]

/-- Next to such a root a file is known by its names. -/
theorem FilePath.IsBare.ofFile (bare : FilePath.IsBare root) (below : names ≠ [])
    (areNames : ∀ name ∈ names, IsName name.toList) :
    ModulePath.ofFile root (names.foldl join root) = .ok (Sources.pathOf names) := by
  have isNames := fun name member => FilePath.isFileName_of_name (areNames name member)
  have nonempty := bare.ne_empty
  cases absolute : isAbsolute root with
  | true =>
      have file := (FilePath.isAbsolute_foldl_join nonempty isNames).trans absolute
      exact ModulePath.ofFile_of_place absolute file (FilePath.place_foldl_join isNames root) below areNames
  | false =>
      obtain ⟨_, nothing⟩ := bare.resolve_left (by simp [absolute])
      rw [ModulePath.ofFile, FilePath.isAbsolute_foldl_join nonempty isNames, absolute]
      simp only [Bool.not_false, if_true]
      refine ModulePath.ofText_of_segments below ?_
      rw [FilePath.addSegments_foldl_join areNames, nothing]
      simp [bind, Except.bind]

end Realms
