import Mathlib.Data.List.TakeWhile
import Realms.Proofs.Disk.Place

/-!
The folders that written paths lead through. A disk can follow a path where all of them are folders; what
holds a path lies on the way to it, and a name behind a path adds the place of the path alone.
-/
namespace Realms

namespace FilePath

/-- The places that are entered from, part by part. -/
def stops : Place → List String → List Place
  | _, [] => []
  | place, part :: rest => place :: stops (enter place part) rest

def start (here : Place) (text : String) : Place := if isAbsolute text then [] else here

/-- The places that must be folders for a path to lead anywhere. -/
def through (here : Place) (text : String) : List Place := stops (start here text) (splitParts text)

variable {here : Place}

theorem stops_append (place : Place) (a b : List String) :
    stops place (a ++ b) = stops place a ++ stops (a.foldl enter place) b := by
  induction a generalizing place with
  | nil => rfl
  | cons part rest ih => rw [List.cons_append, stops, stops, ih, List.foldl_cons, List.cons_append]

theorem through_slash {base : String} (text : String) (nonempty : base ≠ "") :
    through here (base ++ "/" ++ text) =
      through here base ++ stops (place here base) (splitParts text) := by
  have same : start here (base ++ "/" ++ text) = start here base := by
    rw [start, start, String.append_assoc, isAbsolute_append _ nonempty]
  rw [through, same, splitParts_slash, stops_append]
  rfl

theorem through_endingSlash {base : String} (nonempty : base ≠ "") :
    through here (base ++ "/") = through here base ++ [place here base] := by
  have same : base ++ "/" = base ++ "/" ++ "" := by simp
  rw [same, through_slash "" nonempty]
  rfl

theorem splitParts_endingSlash (base : String) : splitParts (base ++ "/") = splitParts base ++ [""] := by
  have same : base ++ "/" = base ++ "/" ++ "" := by simp
  rw [same, splitParts_slash]
  rfl

/-- A written path ends without a slash, is one slash, or ends in a slash behind another path. -/
theorem slash_cases (base : String) : base = "" ∨ base = "/" ∨ (∃ front, front ≠ "" ∧ base = front ++ "/") ∨
    base ≠ "" ∧ base.toList.getLast? ≠ some '/' := by
  by_cases empty : base = ""
  · exact .inl empty
  · by_cases slash : base.toList.getLast? = some '/'
    · obtain ⟨front, chars⟩ := List.getLast?_eq_some_iff.mp slash
      have ends : base = String.ofList front ++ "/" := by
        rw [← String.toList_inj, chars]
        simp
      by_cases root : front = []
      · subst root
        exact .inr (.inl ends)
      · exact .inr (.inr (.inl ⟨String.ofList front, by simpa using root, ends⟩))
    · exact .inr (.inr (.inr ⟨empty, slash⟩))

/-- On the way to a name behind a path lie the places on the way to the path, and its own. -/
theorem mem_through_join {base name : String} (isName : IsFileName name) {spot : Place} :
    spot ∈ through here (join base name) ↔ spot ∈ through here base ∨ spot = place here base := by
  have last (place : Place) : stops place (splitParts name) = [place] := by
    rw [isName.parts]
    rfl
  rw [join, if_neg (Bool.eq_false_iff.mp isName.relative)]
  rcases slash_cases base with rfl | rfl | ⟨front, nonempty, rfl⟩ | ⟨nonempty, noSlash⟩
  · have one : through here ("" ++ name) = [here] := by
      rw [String.empty_append, through, last, start, isName.relative]
      rfl
    have empty : through here "" = [here] := rfl
    rw [if_pos (by rfl), one, empty]
    exact (or_iff_left_of_imp fun same => List.mem_singleton.mpr same).symm
  · have root : isAbsolute ("" ++ "/" ++ name) = true := by simp [isAbsolute]
    have two : through here ("/" ++ name) = [[], []] := by
      rw [← String.empty_append (s := "/"), through, start, root, splitParts_slash, stops_append, last]
      rfl
    have slash : through here "/" = [[], []] := rfl
    have nowhere : place here "/" = [] := rfl
    rw [if_pos (by rfl), two, slash, nowhere]
    exact (or_iff_left_of_imp fun same => same ▸ List.mem_cons_self).symm
  · rw [if_pos (by simp), through_slash name nonempty, last, through_endingSlash nonempty,
      place_endingSlash nonempty]
    exact (or_iff_left_of_imp fun same => same ▸ List.mem_append_right _ List.mem_cons_self).symm
  · rw [if_neg (by simp [nonempty, noSlash]), through_slash name nonempty, last, List.mem_append,
      List.mem_singleton]

/-- A path with a name behind it has the parts of the path and the name, empty parts apart. -/
theorem mem_splitParts_join {base name part : String} (isName : IsFileName name) (nonempty : part ≠ "") :
    part ∈ splitParts (join base name) ↔ part ∈ splitParts base ∨ part = name := by
  have empty : splitParts "" = [""] := rfl
  rw [join, if_neg (Bool.eq_false_iff.mp isName.relative)]
  rcases slash_cases base with rfl | rfl | ⟨front, _, rfl⟩ | ⟨folder, noSlash⟩
  · rw [if_pos (by rfl), String.empty_append, isName.parts, empty]
    simp [nonempty]
  · have slash : splitParts "/" = ["", ""] := rfl
    rw [if_pos (by rfl), ← String.empty_append (s := "/"), splitParts_slash, isName.parts, empty,
      String.empty_append, slash]
    simp [nonempty]
  · rw [if_pos (by simp), splitParts_slash, isName.parts, splitParts_endingSlash]
    simp [nonempty]
  · rw [if_neg (by simp [folder, noSlash]), splitParts_slash, isName.parts, List.mem_append, List.mem_singleton]

theorem mem_splitParts_names {names : List String} (areNames : ∀ name ∈ names, IsFileName name) {base part : String}
    (nonempty : part ≠ "") : part ∈ splitParts (names.foldl join base) ↔ part ∈ splitParts base ∨ part ∈ names := by
  induction names generalizing base with
  | nil => exact (or_iff_left List.not_mem_nil).symm
  | cons first rest ih =>
      rw [List.foldl_cons, ih fun name later => areNames name (List.mem_cons_of_mem first later),
        mem_splitParts_join (areNames first List.mem_cons_self) nonempty, or_assoc, List.mem_cons]

/-- On the way to names behind a path lie the places on the way to the path, its own, and those of the names in
front of the last one. -/
theorem mem_through_names {names : List String} (areNames : ∀ name ∈ names, IsFileName name) (base : String)
    {spot : Place} : spot ∈ through here (names.foldl join base) ↔
      spot ∈ through here base ∨ ∃ front rest, names = front ++ rest ∧ rest ≠ [] ∧ spot = place here base ++ front := by
  induction names generalizing base with
  | nil =>
      refine (or_iff_left ?_).symm
      rintro ⟨front, rest, empty, more, _⟩
      exact more (List.append_eq_nil_iff.mp empty.symm).2
  | cons first names ih =>
      have isName := areNames first List.mem_cons_self
      rw [List.foldl_cons, ih (fun name later => areNames name (List.mem_cons_of_mem first later)),
        mem_through_join isName, or_assoc, isName.place_join]
      refine or_congr_right ⟨?_, ?_⟩
      · rintro (rfl | ⟨front, rest, rfl, more, rfl⟩)
        · exact ⟨[], first :: names, rfl, List.cons_ne_nil _ _, (List.append_nil _).symm⟩
        · exact ⟨first :: front, rest, rfl, more, List.append_assoc _ _ _⟩
      · rintro ⟨front, rest, split, more, rfl⟩
        cases front with
        | nil => exact .inl (List.append_nil _)
        | cons name front =>
            obtain ⟨rfl, rfl⟩ := List.cons.inj split
            exact .inr ⟨front, rest, rfl, more, by rw [List.append_assoc, List.singleton_append]⟩

theorem ofList_slash (rest : List Char) :
    String.ofList ('/' :: rest).reverse = String.ofList rest.reverse ++ "/" := by
  rw [← String.toList_inj]
  simp

theorem ofList_dot (rest : List Char) :
    String.ofList ('.' :: '/' :: rest).reverse = String.ofList rest.reverse ++ "/" ++ "." := by
  rw [← String.toList_inj]
  simp

/-- Without the slashes and dots at its end a path leads to the same place, on a part of the same way. -/
theorem trimReversed_way (here : Place) (rounds : Nat) (cs : List Char) :
    place here (String.ofList (trimReversed rounds cs).reverse) = place here (String.ofList cs.reverse) ∧
      through here (String.ofList (trimReversed rounds cs).reverse) ⊆
        through here (String.ofList cs.reverse) := by
  induction rounds generalizing cs with
  | zero => exact ⟨rfl, fun _ member => member⟩
  | succ rounds ih =>
      unfold trimReversed
      split
      · exact ⟨rfl, fun _ member => member⟩
      · rename_i rest notRoot
        have nonempty : String.ofList rest.reverse ≠ "" := by
          simpa using fun empty : rest = [] => notRoot (empty ▸ rfl)
        obtain ⟨same, within⟩ := ih rest
        rw [ofList_slash, place_endingSlash nonempty, through_endingSlash nonempty]
        exact ⟨same, fun spot member => List.mem_append_left _ (within member)⟩
      · exact ⟨rfl, fun _ member => member⟩
      · rename_i rest notRoot
        have nonempty : String.ofList rest.reverse ≠ "" := by
          simpa using fun empty : rest = [] => notRoot (empty ▸ rfl)
        obtain ⟨same, within⟩ := ih rest
        rw [ofList_dot, place_slash "." nonempty, through_slash "." nonempty]
        exact ⟨same, fun spot member => List.mem_append_left _ (within member)⟩
      · exact ⟨rfl, fun _ member => member⟩

/-- What stands before a slash lies on the way to what stands behind it. -/
theorem front_on_way (front name : String) : place here (front ++ "/") ∈ through here (front ++ "/" ++ name) ∧
    through here (front ++ "/") ⊆ through here (front ++ "/" ++ name) := by
  obtain ⟨first, rest, parts⟩ := List.exists_cons_of_ne_nil
    (show splitParts name ≠ [] by simp [splitParts, List.splitOn_ne_nil])
  by_cases empty : front = ""
  · subst empty
    have root : start here ("" ++ "/" ++ name) = [] := by simp [start, isAbsolute]
    have way : through here ("" ++ "/" ++ name) = [] :: [] :: stops (enter [] first) rest := by
      rw [through, root, splitParts_slash, stops_append, parts]
      rfl
    have slash : through here ("" ++ "/") = [[], []] := rfl
    have nowhere : place here ("" ++ "/") = [] := rfl
    rw [way, slash, nowhere]
    exact ⟨List.mem_cons_self, List.cons_subset_cons _ (List.cons_subset_cons _ (List.nil_subset _))⟩
  · rw [place_endingSlash empty, through_slash name empty, through_endingSlash empty, parts, stops]
    have here : place here front ∈ through here front ++ place here front ::
        stops (enter (place here front) first) rest := List.mem_append_right _ List.mem_cons_self
    exact ⟨here, List.append_subset.mpr ⟨List.subset_append_left _ _, List.cons_subset.mpr
      ⟨here, List.nil_subset _⟩⟩⟩

theorem through_noSlash (here : Place) {cs : List Char} (noSlash : '/' ∉ cs) :
    through here (String.ofList cs) = [here] := by
  have relative : isAbsolute (String.ofList cs) = false := by
    cases cs with
    | nil => rfl
    | cons first more =>
        have other : first ≠ '/' := fun slash => noSlash (slash ▸ List.mem_cons_self)
        simp [isAbsolute, other]
  rw [through, start, relative, splitParts, String.toList_ofList, List.splitOn_eq_singleton noSlash]
  rfl

/-- What is in front of the last slash of a path lies on the way to it. -/
theorem folder_on_way (here : Place) (cs : List Char) :
    place here (String.ofList (cs.dropWhile (· != '/')).reverse) ∈ through here (String.ofList cs.reverse) ∧
      through here (String.ofList (cs.dropWhile (· != '/')).reverse) ⊆ through here (String.ofList cs.reverse) := by
  cases rest : cs.dropWhile (· != '/') with
  | nil =>
      have noSlash : '/' ∉ cs.reverse := by
        intro slash
        have other := List.dropWhile_eq_nil_iff.mp rest '/' (List.mem_reverse.mp slash)
        simp at other
      rw [through_noSlash here noSlash]
      exact ⟨List.mem_cons_self, fun _ member => member⟩
  | cons slash more =>
      have isSlash : slash = '/' := by
        have head := List.head_dropWhile_not (p := (· != '/')) (l := cs) (by simp [rest])
        simpa [rest] using head
      subst isSlash
      have parts : String.ofList cs.reverse = String.ofList more.reverse ++ "/" ++
          String.ofList (cs.takeWhile (· != '/')).reverse := by
        rw [← String.toList_inj]
        conv_lhs => rw [← List.takeWhile_append_dropWhile (p := (· != '/')) (l := cs), rest]
        simp
      rw [parts, ofList_slash]
      exact front_on_way _ _

/-- What holds a path lies on the way to it. -/
theorem parent?_on_way (here : Place) {text parent : String} (h : parent? text = some parent) :
    place here parent ∈ through here text ∧ through here parent ⊆ through here text := by
  unfold parent? at h
  dsimp only at h
  split at h
  · cases h
  · obtain rfl := Option.some.inj h
    obtain ⟨_, whole⟩ := trimReversed_way here text.toList.length text.toList.reverse
    rw [List.reverse_reverse, String.ofList_toList] at whole
    rw [trimmed, List.length_reverse, List.reverse_reverse]
    generalize trimReversed text.toList.length text.toList.reverse = cs at whole
    obtain ⟨same, within⟩ := trimReversed_way here (cs.dropWhile (· != '/')).length
      (cs.dropWhile (· != '/'))
    obtain ⟨folder, below⟩ := folder_on_way here cs
    rw [same]
    exact ⟨whole folder, fun spot member => whole (below (within member))⟩

/-- With the slashes at its end a path leads through its own place at most that it does not lead through without
them. -/
theorem withoutSlashes_way (here : Place) {text : String} (nonempty : text ≠ "") : withoutSlashes text ≠ "" ∧
    through here (withoutSlashes text) ⊆ through here text ∧
    (∀ spot ∈ through here text, spot ∈ through here (withoutSlashes text) ∨ spot = place here text) ∧
      ∀ part ∈ splitParts text, part ∈ splitParts (withoutSlashes text) ∨ part = "" := by
  induction text using withoutSlashes_induct with
  | bare text same =>
      rw [same]
      exact ⟨nonempty, List.Subset.refl _, fun _ => .inl, fun _ => .inl⟩
  | slash base folder shorter ih =>
      obtain ⟨left, within, way, names⟩ := ih folder
      rw [shorter, through_endingSlash folder, place_endingSlash folder, splitParts_endingSlash]
      refine ⟨left, fun spot onWay => List.mem_append_left _ (within onWay), fun spot onWay => ?_,
        fun part listed => ?_⟩
      · exact (List.mem_append.mp onWay).elim (way spot) fun own => .inr (List.mem_singleton.mp own)
      · exact (List.mem_append.mp listed).elim (names part) fun own => .inr (List.mem_singleton.mp own)

end FilePath
end Realms
