import Realms.BuildError
import Realms.Proofs.Outcome

/-!
Module paths in normal form. Segments are kept only if they stand for themselves, so a path that was made
from a text never leads out of the folder it is taken from.
-/
namespace Realms.ModulePath

/-- A segment that stands for itself. -/
structure IsName (segment : List Char) : Prop where
  nonempty : segment ≠ []
  notHere : segment ≠ ['.']
  notUp : segment ≠ ['.', '.']
  whole : ∀ c ∈ segment, isSeparator c = false

instance : DecidablePred IsName := fun segment =>
  decidable_of_iff (segment ≠ [] ∧ segment ≠ ['.'] ∧ segment ≠ ['.', '.'] ∧
      segment.all (!isSeparator ·) = true) <| by
    rw [List.all_eq_true]
    simp only [Bool.not_eq_true']
    exact ⟨fun ⟨nonempty, notHere, notUp, whole⟩ => ⟨nonempty, notHere, notUp, whole⟩,
      fun isName => ⟨isName.nonempty, isName.notHere, isName.notUp, isName.whole⟩⟩

theorem IsName.noSlash {segment : List Char} (isName : IsName segment) : '/' ∉ segment := fun within =>
  Bool.false_ne_true ((isName.whole '/' within).symm.trans rfl)

/-- A path made of names, with single slashes between them. -/
def Normal (path : ModulePath) : Prop :=
  ∃ segments, segments ≠ [] ∧ (∀ segment ∈ segments, IsName segment) ∧
    path.text = String.ofList (joinSegments segments)

/-- What stands between separators holds none. -/
theorem splitOnP_whole {p : Char → Bool} {cs segment : List Char} (member : segment ∈ cs.splitOnP p) :
    ∀ c ∈ segment, p c = false := by
  induction cs generalizing segment with
  | nil =>
      rw [List.splitOnP_nil, List.mem_singleton] at member
      subst member
      exact List.forall_mem_nil _
  | cons first rest ih =>
      rw [List.splitOnP_cons_eq_if_modifyHead] at member
      split at member
      · rcases List.mem_cons.mp member with rfl | later
        · exact List.forall_mem_nil _
        · exact ih later
      · rename_i whole
        obtain ⟨front, more, parts⟩ := List.exists_cons_of_ne_nil (List.splitOnP_ne_nil p rest)
        rw [parts, List.modifyHead_cons] at member
        rw [parts] at ih
        rcases List.mem_cons.mp member with rfl | later
        · intro c within
          rcases List.mem_cons.mp within with rfl | behind
          · exact Bool.eq_false_iff.mpr whole
          · exact ih List.mem_cons_self c behind
        · exact ih (List.mem_cons_of_mem front later)

theorem splitSegments_whole {cs segment : List Char} (member : segment ∈ splitSegments cs) :
    ∀ c ∈ segment, isSeparator c = false :=
  splitOnP_whole member

theorem addSegment_names {kept last : List (List Char)} {segment : List Char}
    (names : ∀ name ∈ kept, IsName name) (whole : ∀ c ∈ segment, isSeparator c = false)
    (h : addSegment kept segment = .ok last) : ∀ name ∈ last, IsName name := by
  unfold addSegment at h
  split at h
  · exact Except.ok.inj h ▸ names
  · rename_i skipped
    split at h
    · cases kept with
      | nil => cases h
      | cons first rest =>
          exact Except.ok.inj h ▸ fun name member => names name (List.mem_cons_of_mem first member)
    · rename_i up
      obtain rfl := Except.ok.inj h
      rw [Bool.or_eq_true, not_or, beq_iff_eq, beq_iff_eq] at skipped
      intro name member
      rcases List.mem_cons.mp member with rfl | older
      · exact ⟨skipped.1, skipped.2, fun same => up (beq_iff_eq.mpr same), whole⟩
      · exact names name older

theorem addSegments_names {kept segments last : List (List Char)}
    (names : ∀ name ∈ kept, IsName name)
    (whole : ∀ segment ∈ segments, ∀ c ∈ segment, isSeparator c = false)
    (h : addSegments kept segments = .ok last) : ∀ name ∈ last, IsName name := by
  induction segments generalizing kept with
  | nil => exact Except.ok.inj h ▸ names
  | cons first rest ih =>
      obtain ⟨next, adds, h⟩ := bind_eq_ok.mp h
      exact ih (addSegment_names names (whole first List.mem_cons_self) adds)
        (fun segment member => whole segment (List.mem_cons_of_mem first member)) h

theorem normalize_normal {raw : String} {path : ModulePath} (h : normalize raw = .ok path) :
    path.Normal := by
  obtain ⟨kept, adds, h⟩ := bind_eq_ok.mp h
  have names := addSegments_names (List.forall_mem_nil IsName)
    (fun segment member => splitSegments_whole member) adds
  cases kept with
  | nil => cases h
  | cons first rest =>
      obtain rfl := Except.ok.inj h
      exact ⟨(first :: rest).reverse, by simp, fun segment member => names segment (List.mem_reverse.mp member),
        rfl⟩

theorem ofText_normal {raw : String} {path : ModulePath} (h : ofText raw = .ok path) : path.Normal := by
  unfold ofText at h
  split at h
  · rename_i found normal
    exact Except.ok.inj h ▸ normalize_normal normal
  · cases h
  · cases h

theorem mapM_ofText_normal {raws : List String} {paths : List ModulePath}
    (h : raws.mapM ofText = .ok paths) : ∀ path ∈ paths, path.Normal := by
  induction raws generalizing paths with
  | nil =>
      obtain rfl := pure_eq_ok.mp h
      exact List.forall_mem_nil _
  | cons raw rest ih =>
      rw [List.mapM_cons] at h
      obtain ⟨first, made, h⟩ := bind_eq_ok.mp h
      obtain ⟨others, later, h⟩ := bind_eq_ok.mp h
      obtain rfl := pure_eq_ok.mp h
      intro path member
      rcases List.mem_cons.mp member with rfl | behind
      · exact ofText_normal made
      · exact ih later path behind

end Realms.ModulePath
