import Realms.Proofs.ModulePath
import Realms.Resolution

/-!
What specifiers mean. A path in normal form means itself, and so does its file name next to it.
-/
namespace Realms

namespace ModulePath

variable {segments front kept : List (List Char)} {name : List Char} {path : ModulePath}

theorem joinSegments_append (nonempty : front ≠ []) (name : List Char) :
    joinSegments (front ++ [name]) = joinSegments front ++ '/' :: name := by
  induction front with
  | nil => exact absurd rfl nonempty
  | cons first front ih =>
      cases front with
      | nil => simp [joinSegments]
      | cons second front =>
          have later := ih (List.cons_ne_nil second front)
          simp only [joinSegments, List.cons_append, List.intercalate_cons_cons] at later ⊢
          simp [later]

theorem splitSegments_slash (front rest : List Char) :
    splitSegments (front ++ '/' :: rest) = splitSegments front ++ splitSegments rest :=
  List.splitOnP_append_cons front rest rfl

theorem splitSegments_name (isName : IsName name) : splitSegments name = [name] :=
  List.splitOnP_eq_singleton isName.whole

theorem splitSegments_join (nonempty : segments ≠ []) (names : ∀ segment ∈ segments, IsName segment) :
    splitSegments (joinSegments segments) = segments := by
  induction segments with
  | nil => exact absurd rfl nonempty
  | cons name segments ih =>
      have first := splitSegments_name (names name List.mem_cons_self)
      cases segments with
      | nil => rwa [joinSegments, List.intercalate_singleton]
      | cons next segments =>
          have later := ih (List.cons_ne_nil next segments) fun segment member =>
            names segment (List.mem_cons_of_mem name member)
          rw [joinSegments, List.intercalate_cons_cons, List.append_assoc, List.singleton_append, splitSegments_slash,
            first, ← joinSegments, later]
          rfl

theorem addSegments_append (kept front rest : List (List Char)) :
    addSegments kept (front ++ rest) = addSegments kept front >>= fun kept => addSegments kept rest := by
  induction front generalizing kept with
  | nil => rfl
  | cons segment front ih =>
      rw [List.cons_append, addSegments, addSegments]
      cases addSegment kept segment with
      | error fault => rfl
      | ok next => exact ih next

theorem addSegment_name (isName : IsName name) (kept : List (List Char)) :
    addSegment kept name = .ok (name :: kept) := by
  simp [addSegment, isName.nonempty, isName.notHere, isName.notUp]

/-- Names are all kept. -/
theorem addSegments_all (names : ∀ segment ∈ segments, IsName segment) (kept : List (List Char)) :
    addSegments kept segments = .ok (segments.reverse ++ kept) := by
  induction segments generalizing kept with
  | nil => rfl
  | cons name segments ih =>
      rw [addSegments, addSegment_name (names name List.mem_cons_self)]
      refine (ih (fun segment member => names segment (List.mem_cons_of_mem name member)) _).trans ?_
      rw [List.reverse_cons, List.append_assoc, List.singleton_append]

theorem normalize_names {raw : String} (nonempty : segments ≠ [])
    (adds : addSegments [] (splitSegments raw.toList) = .ok segments.reverse) :
    normalize raw = .ok ⟨String.ofList (joinSegments segments)⟩ := by
  have some : segments.reverse ≠ [] := fun none => nonempty (List.reverse_eq_nil_iff.mp none)
  obtain ⟨first, rest, same⟩ := List.exists_cons_of_ne_nil some
  have back : (first :: rest).reverse = segments := by rw [← same, List.reverse_reverse]
  rw [normalize, adds, same, ← back]
  rfl

/-- A path in normal form is what its text is put into. -/
theorem Normal.normalize (normal : path.Normal) : normalize path.text = .ok path := by
  obtain ⟨segments, nonempty, names, text⟩ := normal
  have adds : addSegments [] (splitSegments path.text.toList) = .ok segments.reverse := by
    rw [text, String.toList_ofList, splitSegments_join nonempty names, addSegments_all names, List.append_nil]
  rw [normalize_names nonempty adds, ← text]

theorem IsName.reverse_noSlash (isName : IsName name) : ∀ c ∈ name.reverse, (c != '/') = true := by
  intro c member
  rw [bne_iff_ne]
  rintro rfl
  exact isName.noSlash (List.mem_reverse.mp member)

theorem lastSlash_name (isName : IsName name) : afterLastSlash name = name ∧ beforeLastSlash name = [] := by
  have taken : (name.reverse ++ []).takeWhile (· != '/') = name.reverse ++ [].takeWhile (· != '/') :=
    List.takeWhile_append_of_pos isName.reverse_noSlash
  have dropped : (name.reverse ++ []).dropWhile (· != '/') = [].dropWhile (· != '/') :=
    List.dropWhile_append_of_pos isName.reverse_noSlash
  rw [List.append_nil] at taken dropped
  rw [afterLastSlash, beforeLastSlash, taken, dropped]
  simp

theorem lastSlash_join (isName : IsName name) (folder : List Char) :
    afterLastSlash (folder ++ '/' :: name) = name ∧ beforeLastSlash (folder ++ '/' :: name) = folder := by
  have reversed : (folder ++ '/' :: name).reverse = name.reverse ++ '/' :: folder.reverse := by simp
  rw [afterLastSlash, beforeLastSlash, reversed, List.takeWhile_append_of_pos isName.reverse_noSlash,
    List.dropWhile_append_of_pos isName.reverse_noSlash]
  simp

/-- The segments of a path in normal form: those of its folder, and its file name. -/
theorem Normal.parts (normal : path.Normal) : ∃ front name, (∀ segment ∈ front, IsName segment) ∧ IsName name ∧
    path.text = String.ofList (joinSegments (front ++ [name])) ∧ path.folder = String.ofList (joinSegments front) ∧
      path.fileName = String.ofList name := by
  obtain ⟨segments, nonempty, names, text⟩ := normal
  obtain ⟨front, name, rfl⟩ : ∃ front name, segments = front ++ [name] :=
    ⟨_, _, (List.dropLast_concat_getLast nonempty).symm⟩
  have isName := names name (List.mem_append_right front List.mem_cons_self)
  have chars : path.text.toList = joinSegments (front ++ [name]) := by rw [text, String.toList_ofList]
  have last : afterLastSlash (joinSegments (front ++ [name])) = name ∧
      beforeLastSlash (joinSegments (front ++ [name])) = joinSegments front := by
    by_cases first : front = []
    · subst first
      have alone : joinSegments ([] ++ [name]) = name := List.intercalate_singleton
      rw [alone]
      exact lastSlash_name isName
    · rw [joinSegments_append first]
      exact lastSlash_join isName (joinSegments front)
  refine ⟨front, name, fun segment member => names segment (List.mem_append_left [name] member), isName, text, ?_, ?_⟩
  · rw [folder, chars, last.2]
  · rw [fileName, chars, last.1]

theorem joinSegments_ne_nil (nonempty : front ≠ []) (names : ∀ segment ∈ front, IsName segment) :
    joinSegments front ≠ [] := by
  intro empty
  have alone := splitSegments_join nonempty names
  rw [empty] at alone
  have none : IsName [] := names [] (alone ▸ List.mem_singleton.mpr rfl)
  exact none.nonempty rfl

theorem joinedText_relative {specifier : String} (relative : FilePath.isAbsolute specifier = false)
    (importer : ModulePath) : importer.joinedText specifier =
      if importer.folder == "" then specifier else importer.folder ++ "/" ++ specifier := by
  unfold joinedText
  split
  · rename_i rest chars
    rw [FilePath.isAbsolute, chars] at relative
    cases relative
  · rfl

end ModulePath

end Realms
