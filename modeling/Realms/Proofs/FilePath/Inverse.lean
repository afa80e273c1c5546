import Realms.Proofs.FilePath

/-!
Modules and their files, there and back. The file of a module below an absolute root has the path of the module,
however the root is written, and a file that lies below the root is the file of its path.
-/
namespace Realms.FilePath

open ModulePath (IsName)

variable {part text root : String} {spot names : Place}

/-! ### Names of places -/

theorem noSlash_of_mem_splitParts (member : part ∈ splitParts text) : '/' ∉ part.toList := by
  obtain ⟨segment, within, rfl⟩ := List.mem_map.mp member
  rw [String.toList_ofList]
  rw [List.splitOn_eq_splitOnP] at within
  intro slash
  have other := ModulePath.splitOnP_whole within '/' slash
  simp at other

theorem enter_names (areNames : ∀ name ∈ spot, IsFileName name) (noSlash : '/' ∉ part.toList) :
    ∀ name ∈ enter spot part, IsFileName name := by
  intro name member
  unfold enter at member
  split at member
  · exact areNames name member
  · rename_i moves
    obtain ⟨nonempty, notHere⟩ : part ≠ "" ∧ part ≠ "." := by simpa using moves
    split at member
    · exact areNames name (List.dropLast_subset spot member)
    · rename_i notUp
      rcases List.mem_append.mp member with above | own
      · exact areNames name above
      · obtain rfl := List.mem_singleton.mp own
        exact ⟨⟨nonempty, notHere, by simpa using notUp⟩, noSlash⟩

theorem foldl_enter_names {parts : List String} (areNames : ∀ name ∈ spot, IsFileName name)
    (noSlash : ∀ part ∈ parts, '/' ∉ part.toList) : ∀ name ∈ parts.foldl enter spot, IsFileName name := by
  induction parts generalizing spot with
  | nil => exact areNames
  | cons part rest ih =>
      apply ih (enter_names areNames (noSlash part List.mem_cons_self))
      exact fun other later => noSlash other (List.mem_cons_of_mem part later)

/-- A place that a text means from the root has names of files. -/
theorem place_names (text : String) : ∀ name ∈ place [] text, IsFileName name := by
  refine foldl_enter_names ?_ fun part member => noSlash_of_mem_splitParts member
  split
  · exact List.forall_mem_nil IsFileName
  · exact List.forall_mem_nil IsFileName

/-! ### The text of a place -/

theorem intercalate_concat (some : names ≠ []) (name : String) :
    "/".intercalate (names ++ [name]) = "/".intercalate names ++ "/" ++ name := by
  have someTexts : names.map String.toList ≠ [] := by simpa using some
  have joined := ModulePath.joinSegments_append someTexts name.toList
  rw [← String.toList_inj, String.toList_append, String.toList_append, String.toList_intercalate,
    String.toList_intercalate, List.map_append, List.append_assoc]
  exact joined

/-- A place is written as its names behind the root. -/
theorem text_absolute (areNames : ∀ name ∈ names, IsFileName name) :
    FilePath.text ⟨true, names⟩ = names.foldl join "/" := by
  induction names using List.reverseRecOn with
  | nil => rfl
  | append_singleton front name ih =>
      have isName := areNames name (List.mem_append_right front List.mem_cons_self)
      have isFront : ∀ other ∈ front, IsFileName other := fun other member =>
        areNames other (List.mem_append_left [name] member)
      rw [List.foldl_append, List.foldl_cons, List.foldl_nil, ← ih isFront]
      by_cases first : front = []
      · subst first
        rw [join, if_neg (Bool.eq_false_iff.mp isName.relative), if_pos (by rfl)]
        simp [FilePath.text]
      · have ends : EndsInName (FilePath.text ⟨true, front⟩) := by
          obtain ⟨head, rest, rfl⟩ := List.exists_cons_of_ne_nil first
          rw [ih isFront, List.foldl_cons]
          exact endsInName_foldl_join (fun other later => isFront other (List.mem_cons_of_mem head later))
            (endsInName_join (isFront head List.mem_cons_self) "/")
        rw [ends.join_eq isName]
        simp [FilePath.text, intercalate_concat first, String.append_assoc]

/-- Names behind a place are written behind its text. -/
theorem text_foldl_join {below : Place} (areNames : ∀ name ∈ spot ++ below, IsFileName name) :
    below.foldl join (FilePath.text ⟨true, spot⟩) = FilePath.text ⟨true, spot ++ below⟩ := by
  rw [text_absolute areNames, List.foldl_append,
    text_absolute fun name member => areNames name (List.mem_append_left below member)]

/-! ### There and back -/

theorem ofFile_normal {file : String} {path : ModulePath} (h : ModulePath.ofFile root file = .ok path) :
    path.Normal := by
  rw [ModulePath.ofFile] at h
  split at h
  · exact ModulePath.ofText_normal h
  · dsimp only at h
    split at h
    · exact ModulePath.ofText_normal h
    · cases h

/-- What is promised of the files and the modules next to a root. -/
structure IsInverse (root : String) : Prop where
  /-- The file of a module has the path of the module. -/
  back : ∀ path : ModulePath, path.Normal → ModulePath.ofFile root (ofModule root path) = .ok path
  /-- A file below the root is the file of its path. -/
  there : ∀ file names, isAbsolute file = true → place [] file = place [] root ++ names → names ≠ [] →
    (∀ name ∈ names, '\\' ∉ name.toList) → ∃ path, ModulePath.ofFile root file = .ok path ∧ path.Normal ∧
      ofModule (FilePath.text (clean root)) path = FilePath.text (clean file)
  /-- No other absolute path has one. -/
  only : ∀ file path, isAbsolute file = true → ModulePath.ofFile root file = .ok path →
    ∃ names, names ≠ [] ∧ place [] file = place [] root ++ names

theorem isInverse (absolute : isAbsolute root = true) : IsInverse root where
  back path normal := by
    obtain ⟨below, names⟩ := splitParts_normal normal
    have finds := IsBare.ofFile (.inl absolute) below names
    rwa [Sources.pathOf_splitParts] at finds
  there file names fileAbsolute lies below plain := by
    have areFiles : ∀ name ∈ place [] root ++ names, IsFileName name := lies ▸ place_names file
    have areNames : ∀ name ∈ names, IsName name.toList := by
      intro name member
      exact (areFiles name (List.mem_append_right _ member)).isName (plain name member)
    have finds := ModulePath.ofFile_of_place absolute fileAbsolute lies below areNames
    have parts := Sources.splitParts_pathOf below fun name member => isFileName_of_name (areNames name member)
    refine ⟨_, finds, ofFile_normal finds, ?_⟩
    rw [clean_absolute [] absolute, clean_absolute [] fileAbsolute, lies, ofModule, parts, text_foldl_join areFiles]
  only file path fileAbsolute finds := by
    rw [ModulePath.ofFile, fileAbsolute] at finds
    simp only [Bool.not_true, Bool.false_eq_true, if_false] at finds
    split at finds
    · rename_i found
      rw [clean_absolute [] absolute, clean_absolute [] fileAbsolute] at found
      obtain ⟨names, lies, rfl⟩ := below?_absolute.mp found
      refine ⟨names, ?_, lies⟩
      rintro rfl
      cases finds
    · cases finds

/-- A file that is reached by way of what is outside of its root. -/
theorem crookedRoot_isInverse : isAbsolute "/a/./../b//" = true ∧ IsInverse "/a/./../b//" ∧
    ∃ path, ModulePath.ofFile "/a/./../b//" "/b/../b/x/y.js" = .ok path ∧ path.Normal ∧
      ofModule (FilePath.text (clean "/a/./../b//")) path = FilePath.text (clean "/b/../b/x/y.js") := by
  have inverse : IsInverse "/a/./../b//" := isInverse (by decide)
  have lies : place [] "/b/../b/x/y.js" = place [] "/a/./../b//" ++ ["x", "y.js"] := by decide +kernel
  exact ⟨by decide, inverse, inverse.there _ _ (by decide) lies (by decide) (by decide)⟩

end Realms.FilePath
