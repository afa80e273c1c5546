import Mathlib.Data.List.Induction
import Realms.Disk
import Realms.Proofs.ModulePath
import Realms.Proofs.Outcome

/-!
The places that written paths mean. Without links a path leads to one place at most, which its text and the
working folder tell alone; names that are put behind a path lead below it.
-/
namespace Realms

namespace FilePath

/-- Where one more part of a written path leads. -/
def enter (place : Place) (part : String) : Place :=
  if part == "" || part == "." then place
  else if part == ".." then place.dropLast
  else place ++ [part]

/-- The place that a written path means in a working folder, whatever stands there. -/
def place (here : Place) (text : String) : Place :=
  (splitParts text).foldl enter (if isAbsolute text then [] else here)

variable {here : Place}

theorem splitParts_slash (a b : String) : splitParts (a ++ "/" ++ b) = splitParts a ++ splitParts b := by
  have chars : (a ++ "/" ++ b).toList = a.toList ++ '/' :: b.toList := by simp
  rw [splitParts, chars, List.splitOn_append_cons_self, List.map_append]
  rfl

theorem isAbsolute_append {a : String} (b : String) (nonempty : a ≠ "") :
    isAbsolute (a ++ b) = isAbsolute a := by
  have chars : a.toList ≠ [] := fun empty => nonempty (String.toList_eq_nil_iff.mp empty)
  obtain ⟨first, rest, same⟩ := List.exists_cons_of_ne_nil chars
  rw [isAbsolute, isAbsolute, String.toList_append, same]
  rfl

theorem place_slash {base : String} (text : String) (nonempty : base ≠ "") :
    place here (base ++ "/" ++ text) = (splitParts text).foldl enter (place here base) := by
  rw [place, splitParts_slash, List.foldl_append, String.append_assoc, isAbsolute_append _ nonempty, place]

theorem place_endingSlash {base : String} (nonempty : base ≠ "") :
    place here (base ++ "/") = place here base := by
  have same : base ++ "/" = base ++ "/" ++ "" := by simp
  rw [same, place_slash "" nonempty]
  rfl

theorem place_join {base text : String} (relative : isAbsolute text = false) :
    place here (join base text) = (splitParts text).foldl enter (place here base) := by
  unfold join
  rw [if_neg (Bool.eq_false_iff.mp relative)]
  by_cases empty : base = ""
  · subst empty
    rw [if_pos (by rfl), String.empty_append, place, relative]
    rfl
  · by_cases slash : base.toList.getLast? = some '/'
    · rw [if_pos (by simp [slash])]
      obtain ⟨front, chars⟩ := List.getLast?_eq_some_iff.mp slash
      have ends : base = String.ofList front ++ "/" := by
        rw [← String.toList_inj, chars]
        simp
      by_cases root : front = []
      · subst root
        subst ends
        have absolute : isAbsolute ("" ++ "/" ++ text) = true := by simp [isAbsolute]
        rw [String.ofList_nil, place, absolute, splitParts_slash, List.foldl_append]
        rfl
      · have nonempty : String.ofList front ≠ "" := by simpa using root
        rw [ends, place_slash text nonempty, place_endingSlash nonempty]
    · rw [if_neg (by simp [empty, slash]), place_slash text empty]

/-- What holds without slashes at the end of a path holds with them if it holds with one more. -/
theorem withoutSlashes_induct {motive : String → Prop} (bare : ∀ text, withoutSlashes text = text → motive text)
    (slash : ∀ base, base ≠ "" → withoutSlashes (base ++ "/") = withoutSlashes base → motive base →
      motive (base ++ "/"))
    (text : String) : motive text := by
  obtain ⟨cs, rfl⟩ : ∃ cs, text = String.ofList cs := ⟨text.toList, by simp⟩
  induction cs using List.reverseRecOn with
  | nil => exact bare _ rfl
  | append_singleton front c ih =>
      by_cases more : c = '/' ∧ front ≠ []
      · obtain ⟨rfl, root⟩ := more
        have ends : String.ofList (front ++ ['/']) = String.ofList front ++ "/" := by
          rw [← String.toList_inj]
          simp
        rw [ends]
        refine slash _ (by simpa using root) ?_ ih
        rw [← ends]
        simp [withoutSlashes, root]
      · apply bare
        by_cases isSlash : c = '/'
        · obtain rfl : front = [] := by
            by_contra root
            exact more ⟨isSlash, root⟩
          subst isSlash
          decide
        · simp [withoutSlashes, isSlash]

/-- Slashes at the end of a path lead nowhere else. -/
theorem place_withoutSlashes (text : String) : place here (withoutSlashes text) = place here text := by
  induction text using withoutSlashes_induct with
  | bare text same => rw [same]
  | slash base nonempty shorter ih => rw [shorter, ih, place_endingSlash nonempty]

/-- A part of a path that leads to the name itself. -/
def IsPlain (part : String) : Prop := part ≠ "" ∧ part ≠ "." ∧ part ≠ ".."

theorem enter_plain {part : String} (plain : IsPlain part) (place : Place) :
    enter place part = place ++ [part] := by
  obtain ⟨nonempty, notHere, notUp⟩ := plain
  simp [enter, nonempty, notHere, notUp]

open ModulePath (IsName)

theorem isPlain_of_name {name : String} (isName : IsName name.toList) : IsPlain name := by
  refine ⟨?_, ?_, ?_⟩ <;> rintro rfl
  · exact isName.nonempty rfl
  · exact isName.notHere rfl
  · exact isName.notUp rfl

/-- A part of a path that leads to what has its name. -/
structure IsFileName (name : String) : Prop where
  plain : IsPlain name
  noSlash : '/' ∉ name.toList

theorem isFileName_of_name {name : String} (isName : IsName name.toList) : IsFileName name :=
  ⟨isPlain_of_name isName, isName.noSlash⟩

namespace IsFileName

variable {name : String}

theorem nonempty (isName : IsFileName name) : name.toList ≠ [] := fun empty =>
  isName.plain.1 (String.toList_eq_nil_iff.mp empty)

theorem parts (isName : IsFileName name) : splitParts name = [name] := by
  rw [splitParts, List.splitOn_eq_singleton isName.noSlash]
  simp

theorem relative (isName : IsFileName name) : isAbsolute name = false := by
  have absent := isName.noSlash
  cases chars : name.toList with
  | nil => simp [isAbsolute, chars]
  | cons first rest =>
      rw [chars] at absent
      have other : first ≠ '/' := fun same => absent (same ▸ List.mem_cons_self)
      simp [isAbsolute, chars, other]

theorem place_join (isName : IsFileName name) (base : String) :
    place here (join base name) = place here base ++ [name] := by
  rw [FilePath.place_join isName.relative, isName.parts, List.foldl_cons, List.foldl_nil,
    enter_plain isName.plain]

end IsFileName

/-- A name behind a path leads to what has the name there. -/
theorem place_joinName {base name : String} (isName : IsName name.toList) :
    place here (join base name) = place here base ++ [name] :=
  (isFileName_of_name isName).place_join base

theorem place_foldl_join {names : List String} (areNames : ∀ name ∈ names, IsFileName name)
    (base : String) : place here (names.foldl join base) = place here base ++ names := by
  induction names generalizing base with
  | nil => simp
  | cons first rest ih =>
      rw [List.foldl_cons, ih fun name member => areNames name (List.mem_cons_of_mem first member),
        (areNames first List.mem_cons_self).place_join, List.append_assoc]
      rfl

theorem splitParts_normal {path : ModulePath} (normal : path.Normal) :
    splitParts path.text ≠ [] ∧ ∀ name ∈ splitParts path.text, IsName name.toList := by
  obtain ⟨segments, nonempty, names, text⟩ := normal
  have whole : ∀ segment ∈ segments, '/' ∉ segment := fun segment member =>
    (names segment member).noSlash
  have parts : splitParts path.text = segments.map String.ofList := by
    rw [splitParts, text, String.toList_ofList, ModulePath.joinSegments,
      List.splitOn_intercalate '/' whole nonempty]
  rw [parts]
  refine ⟨by simpa using nonempty, fun name member => ?_⟩
  obtain ⟨segment, listed, rfl⟩ := List.mem_map.mp member
  rw [String.toList_ofList]
  exact names segment listed

/-- A module in normal form lies below the folder that it is taken from. -/
theorem place_ofModule {path : ModulePath} (normal : path.Normal) (root : String) :
    place here (ofModule root path) = place here root ++ splitParts path.text :=
  place_foldl_join (fun name member => isFileName_of_name ((splitParts_normal normal).2 name member)) root

end FilePath

namespace Disk

open FilePath (enter place)

theorem follow_eq_ok {disk : Disk} {start last : Place} {parts : List String}
    (h : disk.follow start parts = .ok last) : last = parts.foldl enter start := by
  induction parts generalizing start with
  | nil => exact (Except.ok.inj h).symm
  | cons part rest ih =>
      obtain ⟨_, _, h⟩ := bind_eq_ok.mp h
      rw [List.foldl_cons, enter]
      split at h
      · rename_i stays
        rw [if_pos stays]
        exact ih h
      · rename_i moves
        rw [if_neg moves]
        split at h
        · rename_i up
          rw [if_pos up]
          exact ih h
        · rename_i down
          rw [if_neg down]
          split at h
          · cases h
          · exact ih h

/-- A path that a disk can follow leads to the place that it means. -/
theorem locate_eq_ok {disk : Disk} {text : String} {found : Place} (h : disk.locate text = .ok found) :
    found = place disk.here text := by
  unfold locate at h
  split at h
  · cases h
  · exact follow_eq_ok h

end Disk
end Realms
