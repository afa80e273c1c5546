import Realms.Proofs.Disk.Through

/-!
The last names of written paths. A path that ends in a name has another ending by taking another name in the
same folder; slashes behind the name do not count.
-/
namespace Realms.FilePath

variable {front name text : String}

theorem IsFileName.last_ne_slash (isName : IsFileName name) {c : Char} (last : c ∈ name.toList) : c ≠ '/' :=
  fun slash => isName.noSlash (slash ▸ last)

/-- A name ends in no dot that would be taken off. -/
theorem trimReversed_name (isName : IsFileName name) (rounds : Nat) (before : List Char) :
    trimReversed rounds (name.toList.reverse ++ before) = name.toList.reverse ++ before := by
  cases rounds with
  | zero => rfl
  | succ rounds =>
      obtain ⟨c, rest, chars⟩ := List.exists_cons_of_ne_nil (List.reverse_ne_nil_iff.mpr isName.nonempty)
      have listed : ∀ d ∈ c :: rest, d ∈ name.toList := fun d member =>
        List.mem_reverse.mp (chars ▸ member)
      have notSlash : c ≠ '/' := isName.last_ne_slash (listed c List.mem_cons_self)
      have notAlone : ∀ more, c = '.' → rest ++ before ≠ '/' :: more := by
        intro more dot same
        cases rest with
        | nil =>
            have single : name = "." := by
              rw [← String.toList_inj, ← List.reverse_inj, chars, dot]
              rfl
            exact isName.plain.2.1 single
        | cons d others =>
            have slash : d = '/' := (List.cons.inj same).1
            exact isName.last_ne_slash (listed d (List.mem_cons_of_mem c List.mem_cons_self)) slash
      rw [chars, List.cons_append]
      unfold trimReversed
      split
      · rename_i same
        exact absurd (List.cons.inj same).1 notSlash
      · rename_i same
        exact absurd (List.cons.inj same).1 notSlash
      · rename_i same
        obtain ⟨dot, tail⟩ := List.cons.inj same
        exact absurd tail (notAlone [] dot)
      · rename_i more _ same
        obtain ⟨dot, tail⟩ := List.cons.inj same
        exact absurd tail (notAlone more dot)
      · rfl

theorem trimReversed_slashes {rest : List Char} (nonempty : rest ≠ []) (count rounds : Nat) :
    trimReversed (count + rounds) (List.replicate count '/' ++ rest) = trimReversed rounds rest := by
  induction count with
  | zero => rw [Nat.zero_add, List.replicate_zero, List.nil_append]
  | succ count ih =>
      obtain ⟨c, more, parts⟩ := List.exists_cons_of_ne_nil
        (show List.replicate count '/' ++ rest ≠ [] by simp [nonempty])
      have step : trimReversed (count + rounds + 1) ('/' :: c :: more) =
          trimReversed (count + rounds) (c :: more) := rfl
      rw [Nat.add_right_comm, List.replicate_succ, List.cons_append, parts, step, ← parts, ih]

/-- Behind one folder, names are put in one way. -/
theorem exists_join (front : String) : ∃ folder, (folder = [] ∨ folder.getLast? = some '/') ∧
    ∀ name, IsFileName name → (join front name).toList = folder ++ name.toList := by
  by_cases ready : front = "" ∨ front.toList.getLast? = some '/'
  · refine ⟨front.toList, ?_, fun name isName => ?_⟩
    · exact ready.imp (fun empty => String.toList_eq_nil_iff.mpr empty) id
    · rw [join, if_neg (Bool.eq_false_iff.mp isName.relative),
        if_pos (by simpa using ready), String.toList_append]
  · refine ⟨front.toList ++ ['/'], .inr (by simp), fun name isName => ?_⟩
    rw [join, if_neg (Bool.eq_false_iff.mp isName.relative), if_neg (by simpa using ready)]
    simp

/-- A path that ends in a name, read from its end. -/
theorem reverse_eq_of_withoutSlashes (isName : IsFileName name) {folder : List Char}
    (ends : (withoutSlashes text).toList = folder ++ name.toList) : ∃ count,
      text.toList.reverse = List.replicate count '/' ++ (name.toList.reverse ++ folder.reverse) := by
  refine ⟨(text.toList.reverse.takeWhile (· == '/')).length, ?_⟩
  have slashes : text.toList.reverse.takeWhile (· == '/') =
      List.replicate (text.toList.reverse.takeWhile (· == '/')).length '/' :=
    List.eq_replicate_of_mem fun c member => by simpa using List.mem_takeWhile_imp member
  have rest : text.toList.reverse.dropWhile (· == '/') = name.toList.reverse ++ folder.reverse := by
    unfold withoutSlashes at ends
    split at ends
    · have only : ∀ c ∈ name.toList, c = '/' := by
        intro c member
        have within : c ∈ folder ++ name.toList := List.mem_append_right folder member
        rw [← ends] at within
        split at within
        · simp at within
        · simpa using within
      obtain ⟨c, more, chars⟩ := List.exists_cons_of_ne_nil isName.nonempty
      have member : c ∈ name.toList := chars ▸ List.mem_cons_self
      exact absurd (only c member) (isName.last_ne_slash member)
    · rename_i found
      rw [String.toList_ofList] at ends
      rw [← List.reverse_inj, ends]
      simp
  conv_lhs => rw [← List.takeWhile_append_dropWhile (p := (· == '/')) (l := text.toList.reverse), slashes, rest]

theorem trimmed_eq (isName : IsFileName name) {folder : List Char}
    (ends : (withoutSlashes text).toList = folder ++ name.toList) : trimmed text = folder ++ name.toList := by
  obtain ⟨count, chars⟩ := reverse_eq_of_withoutSlashes isName ends
  have nonempty : name.toList.reverse ++ folder.reverse ≠ [] := by simp [isName.plain.1]
  have bound : text.toList.reverse.length = count + (name.toList.reverse ++ folder.reverse).length := by
    rw [chars, List.length_append, List.length_replicate]
  rw [trimmed, bound, chars, trimReversed_slashes nonempty, trimReversed_name isName]
  simp

theorem cutAtDot_leads (cs : List Char) : (cutAtDot cs).1 <+: cs := by
  unfold cutAtDot
  split
  · rename_i dot stem found
    split
    · exact List.prefix_refl _
    · have suffix : dot :: stem <:+ cs.reverse := found ▸ List.dropWhile_suffix _
      have tail : stem <:+ cs.reverse := (List.suffix_cons dot stem).trans suffix
      exact List.reverse_suffix.mp (by simpa using tail)
  · exact List.prefix_refl _

/-- A name with another ending. -/
def otherEnding (name ending : String) : String :=
  String.ofList ((cutAtDot name.toList).1 ++ '.' :: ending.toList)

theorem withEnding_join (isName : IsFileName name) (ends : withoutSlashes text = join front name)
    {ending : String} (other : IsFileName (otherEnding name ending)) :
    withEnding text ending = join front (otherEnding name ending) := by
  obtain ⟨folder, slash, chars⟩ := exists_join front
  have trims := trimmed_eq isName ((congrArg String.toList ends).trans (chars name isName))
  have whole : ∀ c ∈ name.toList.reverse, (c != '/') = true := fun c member => by
    simpa using isName.last_ne_slash (List.mem_reverse.mp member)
  have taken : (trimmed text).reverse.takeWhile (· != '/') = name.toList.reverse := by
    rw [trims, List.reverse_append, List.takeWhile_append_of_pos whole]
    rcases slash with rfl | last
    · simp
    · obtain ⟨before, rfl⟩ := List.getLast?_eq_some_iff.mp last
      simp
  have last : lastName? text = some name.toList := by
    have notDot : name.toList ≠ ['.'] := fun dot => isName.plain.2.1 (String.toList_inj.mp dot)
    have notDots : name.toList ≠ ['.', '.'] := fun dots => isName.plain.2.2 (String.toList_inj.mp dots)
    rw [lastName?, taken, List.reverse_reverse]
    simp [isName.nonempty, notDot, notDots]
  rw [withEnding, last]
  dsimp only
  rw [trims, ← String.toList_inj, chars _ other, String.toList_ofList]
  simp [otherEnding]

theorem isFileName_otherEnding (isName : IsFileName name) {ending : String} (long : 2 ≤ ending.toList.length)
    (noSlash : '/' ∉ ending.toList) : IsFileName (otherEnding name ending) where
  plain := by
    refine ⟨?_, ?_, ?_⟩ <;> intro same
    all_goals
      have chars := congrArg (fun text : String => text.toList.length) same
      simp only [otherEnding, String.toList_ofList, List.length_append, List.length_cons] at chars
    · simp at chars
    · have one : ".".toList.length = 1 := rfl
      omega
    · have two : "..".toList.length = 2 := rfl
      omega
  noSlash slash := by
    rw [otherEnding, String.toList_ofList, List.mem_append, List.mem_cons] at slash
    rcases slash with stem | dot | inEnding
    · exact isName.noSlash ((cutAtDot_leads _).subset stem)
    · cases dot
    · exact noSlash inEnding

end Realms.FilePath
