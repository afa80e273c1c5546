import Realms.Proofs.ModulePath.NormalForm

/-!
What a relative specifier means. It is walked, segment by segment, from the folder of its module or from the root; it
is refused where the walk leaves the root or ends there, and otherwise it means the first file of a list that is made
from the place where the walk ends.
-/
namespace Realms

namespace ModulePath

variable {segment name ending : List Char} {folder segments front kept last : List (List Char)} {specifier : String}
  {importer base : ModulePath}

/-- A walk along segments that stays in the root: from the names of a folder to the names of the place where it
ends. -/
inductive Leads : List (List Char) → List (List Char) → List (List Char) → Prop
  | here (folder : List (List Char)) : Leads folder [] folder
  | stays {folder rest last : List (List Char)} {segment : List Char} :
      IsIdle segment → Leads folder rest last → Leads folder (segment :: rest) last
  | up {folder rest last : List (List Char)} {name : List Char} :
      Leads folder rest last → Leads (folder ++ [name]) (['.', '.'] :: rest) last
  | down {folder rest last : List (List Char)} {name : List Char} :
      isOrdinary name = true → Leads (folder ++ [name]) rest last → Leads folder (name :: rest) last

theorem Leads.adds (leads : Leads folder segments last) : addSegments folder.reverse segments = .ok last.reverse := by
  induction leads with
  | here folder => rfl
  | stays idle _ ih => rw [addSegments_idle idle, ih]
  | up _ ih =>
      rw [List.reverse_append]
      exact ih
  | down ordinary _ ih =>
      rw [List.reverse_append] at ih
      rw [addSegments_ordinary ordinary]
      exact ih

theorem leads_of_adds (h : addSegments kept segments = .ok last) : Leads kept.reverse segments last.reverse := by
  induction segments generalizing kept with
  | nil =>
      obtain rfl := Except.ok.inj h
      exact .here _
  | cons segment rest ih =>
      rcases segment_cases segment with idle | rfl | ordinary
      · rw [addSegments_idle idle] at h
        exact .stays idle (ih h)
      · cases kept with
        | nil => cases h
        | cons name kept =>
            rw [List.reverse_cons]
            exact .up (ih h)
      · rw [addSegments_ordinary ordinary] at h
        have leads := ih h
        rw [List.reverse_cons] at leads
        exact .down ordinary leads

/-- Segments are kept exactly as a walk leads. -/
theorem leads_iff : Leads folder segments last ↔ addSegments folder.reverse segments = .ok last.reverse := by
  refine ⟨Leads.adds, fun h => ?_⟩
  have leads := leads_of_adds h
  rwa [List.reverse_reverse, List.reverse_reverse] at leads

/-! ### From a module -/

/-- The names of the folder that a specifier in a module is walked from. -/
def startOf (importer : ModulePath) (specifier : String) : List (List Char) :=
  if FilePath.isAbsolute specifier then [] else (segmentsOf importer.text).dropLast

theorem Normal.startOf_names (normal : importer.Normal) (specifier : String) :
    ∀ name ∈ startOf importer specifier, IsName name := by
  intro name member
  unfold startOf at member
  split at member
  · exact absurd member List.not_mem_nil
  · exact normal.eq_ofSegments.2.1 name (List.dropLast_subset _ member)

/-- The text that a specifier stands for keeps what the walk along the specifier leads to. -/
theorem Normal.joinedText_adds (normal : importer.Normal) (specifier : String) :
    addSegments [] (segmentsOf (importer.joinedText specifier)) =
      addSegments (startOf importer specifier).reverse (segmentsOf specifier) := by
  obtain ⟨front, name, names, isName, text, folder, _⟩ := normal.parts
  have holder : (segmentsOf importer.text).dropLast = front := by
    have all : ∀ segment ∈ front ++ [name], IsName segment := by
      simpa [or_imp, forall_and] using And.intro names isName
    rw [segmentsOf, text, String.toList_ofList, splitSegments_join (by simp) all, List.dropLast_concat]
  cases absolute : FilePath.isAbsolute specifier with
  | true =>
      obtain ⟨rest, chars⟩ := List.head?_eq_some_iff.mp (beq_iff_eq.mp absolute)
      have joined : importer.joinedText specifier = String.ofList rest := by
        rw [joinedText, chars]
        rfl
      have segments : segmentsOf specifier = [] :: splitSegments rest := by
        rw [segmentsOf, chars]
        exact splitSegments_slash [] rest
      rw [joined, startOf, if_pos absolute, segments, addSegments_idle (.inl rfl), segmentsOf, String.toList_ofList]
      rfl
  | false =>
      rw [joinedText_relative absolute, startOf, if_neg (Bool.eq_false_iff.mp absolute), holder, folder]
      by_cases first : front = []
      · subst first
        rfl
      · have filled : String.ofList (joinSegments front) ≠ "" := fun empty =>
          joinSegments_ne_nil first names (String.ofList_eq_empty_iff.mp empty)
        have own : segmentsOf (String.ofList (joinSegments front)) = front := segmentsOf_ofSegments first names
        rw [if_neg (by simpa using filled), segmentsOf_slash, own, addSegments_append, addSegments_all names,
          List.append_nil]
        rfl

theorem resolveAt_eq_ok (normal : importer.Normal) : importer.resolveAt specifier = .ok base ↔
    base.Normal ∧ Leads (startOf importer specifier) (segmentsOf specifier) (segmentsOf base.text) := by
  have same : importer.resolveAt specifier = .ok base ↔ ofText (importer.joinedText specifier) = .ok base := by
    rw [resolveAt]
    cases ofText (importer.joinedText specifier) <;> simp
  rw [same, ofText_eq_ok, normal.joinedText_adds, leads_iff]

/-- A walk that ends below the root ends at a module. -/
theorem resolveAt_of_leads (normal : importer.Normal) (nonempty : last ≠ [])
    (leads : Leads (startOf importer specifier) (segmentsOf specifier) last) :
    (ofSegments last).Normal ∧ importer.resolveAt specifier = .ok (ofSegments last) := by
  have names : ∀ name ∈ last, IsName name := by
    intro name member
    refine addSegments_names (fun segment within => ?_) (fun segment within => splitSegments_whole within) leads.adds
      name (List.mem_reverse.mpr member)
    exact normal.startOf_names specifier segment (List.mem_reverse.mp within)
  have isNormal : (ofSegments last).Normal := ⟨last, nonempty, names, rfl⟩
  refine ⟨isNormal, (resolveAt_eq_ok normal).mpr ⟨isNormal, ?_⟩⟩
  rwa [segmentsOf_ofSegments nonempty names]

theorem Leads.unique {first second : List (List Char)} (leads : Leads folder segments first)
    (again : Leads folder segments second) : first = second :=
  List.reverse_injective (Except.ok.inj (leads.adds.symm.trans again.adds))

theorem resolveAt_fails (normal : importer.Normal) : (∃ e, importer.resolveAt specifier = .error e) ↔
    (¬∃ last, Leads (startOf importer specifier) (segmentsOf specifier) last) ∨
      Leads (startOf importer specifier) (segmentsOf specifier) [] := by
  cases found : importer.resolveAt specifier with
  | ok base =>
      obtain ⟨isNormal, leads⟩ := (resolveAt_eq_ok normal).mp found
      constructor
      · rintro ⟨_, fails⟩
        cases fails
      · rintro (leaves | root)
        · exact absurd ⟨_, leads⟩ leaves
        · exact absurd (leads.unique root) isNormal.eq_ofSegments.1
  | error e =>
      refine ⟨fun _ => ?_, fun _ => ⟨e, rfl⟩⟩
      by_contra inside
      obtain ⟨stays, notRoot⟩ := not_or.mp inside
      obtain ⟨last, leads⟩ := not_not.mp stays
      have nonempty : last ≠ [] := by
        rintro rfl
        exact notRoot leads
      rw [(resolveAt_of_leads normal nonempty leads).2] at found
      cases found

theorem resolveAt_error {e : BuildError} (fails : importer.resolveAt specifier = .error e) :
    e.report.code = "RB-ERR-OUTSIDE-ROOT" ∧ e.report.file = importer.text ∧
      e.report.context = some ("import `" ++ specifier ++ "`") := by
  rw [resolveAt] at fails
  rcases ofText_cases (importer.joinedText specifier) with ⟨_, reads⟩ | ⟨_, _, reads⟩ | ⟨_, _, path, reads⟩
  · rw [reads] at fails
    obtain rfl := Except.error.inj fails
    exact ⟨rfl, rfl, rfl⟩
  · rw [reads] at fails
    obtain rfl := Except.error.inj fails
    exact ⟨rfl, rfl, rfl⟩
  · rw [reads] at fails
    cases fails

/-! ### Paths next to a path -/

/-- A name with an ending is a name. -/
theorem IsName.append (isName : IsName name) (long : 2 ≤ ending.length) (whole : ∀ c ∈ ending, isSeparator c = false) :
    IsName (name ++ ending) := by
  have some := List.length_pos_iff.mpr isName.nonempty
  have length : 3 ≤ (name ++ ending).length := by
    rw [List.length_append]
    omega
  refine ⟨?_, ?_, ?_, ?_⟩
  · intro same
    rw [same] at length
    cases length
  · intro same
    rw [same] at length
    exact absurd length (by decide)
  · intro same
    rw [same] at length
    exact absurd length (by decide)
  · intro c member
    rcases List.mem_append.mp member with inName | inEnding
    · exact isName.whole c inName
    · exact whole c inEnding

/-- The last name of a path may have an ending. -/
theorem Normal.append (normal : base.Normal) {text : String} (long : 2 ≤ text.toList.length)
    (whole : ∀ c ∈ text.toList, isSeparator c = false) : (⟨base.text ++ text⟩ : ModulePath).Normal := by
  obtain ⟨front, name, names, isName, own, _⟩ := normal.parts
  refine ⟨front ++ [name ++ text.toList], by simp, ?_, ?_⟩
  · intro segment member
    rcases List.mem_append.mp member with inFront | isLast
    · exact names segment inFront
    · exact List.mem_singleton.mp isLast ▸ isName.append long whole
  · rw [← String.toList_inj, String.toList_append, own, String.toList_ofList, String.toList_ofList]
    by_cases first : front = []
    · subst first
      simp [joinSegments]
    · rw [joinSegments_append first, joinSegments_append first, List.append_assoc, List.cons_append]

/-- A path may go on with a name. -/
theorem Normal.child (normal : base.Normal) {text : String} (isName : IsName text.toList) :
    (⟨base.text ++ "/" ++ text⟩ : ModulePath).Normal := by
  obtain ⟨segments, nonempty, names, own⟩ := normal
  refine ⟨segments ++ [text.toList], by simp, ?_, ?_⟩
  · intro segment member
    rcases List.mem_append.mp member with within | isLast
    · exact names segment within
    · exact List.mem_singleton.mp isLast ▸ isName
  · rw [← String.toList_inj, own, String.toList_ofList, joinSegments_append nonempty]
    simp

end ModulePath

namespace Resolution

open ModulePath (Leads IsName startOf segmentsOf ofSegments isSeparator)

variable {isFile : ModulePath → Bool} {importer base : ModulePath} {specifier : String}

/-- The paths that may be meant, the first one preferred: a path itself, with an ending, and as a folder of an index
file with an ending. -/
def choices (base : ModulePath) : List ModulePath :=
  base :: endings.map (fun ending => ⟨base.text ++ ending⟩) ++ endings.map fun ending => ⟨base.text ++ "/index" ++ ending⟩

theorem candidates_choices (base : ModulePath) : (candidates base).map ModulePath.mk = choices base := by
  simp [candidates, choices, Function.comp_def]

theorem choices_normal (normal : base.Normal) : ∀ path ∈ choices base, path.Normal := by
  have long : ∀ ending ∈ endings, 2 ≤ ending.toList.length := by decide
  have own : ∀ ending ∈ endings, IsName ending.toList := by decide
  have index : ∀ ending ∈ endings, IsName ("index" ++ ending).toList := by decide
  intro path member
  rw [choices, List.mem_append, List.mem_cons, List.mem_map, List.mem_map] at member
  rcases member with (rfl | ⟨ending, listed, rfl⟩) | ⟨ending, listed, rfl⟩
  · exact normal
  · exact normal.append (long ending listed) (own ending listed).whole
  · have behind : base.text ++ "/index" ++ ending = base.text ++ "/" ++ ("index" ++ ending) := by
      rw [← String.toList_inj]
      simp
    rw [behind]
    exact normal.child (index ending listed)

/-- What was found among the choices. -/
def ofFound (found : Option ModulePath) : Resolution := found.elim .unresolved .module

theorem firstOf_eq {texts : List String} (built : ∀ text ∈ texts, ModulePath.ofText text = .ok ⟨text⟩) :
    firstOf isFile texts = .ok (ofFound ((texts.map ModulePath.mk).find? isFile)) := by
  induction texts with
  | nil => rfl
  | cons text rest ih =>
      have later := ih fun other member => built other (List.mem_cons_of_mem text member)
      rw [firstOf, built text List.mem_cons_self, List.map_cons, List.find?_cons]
      change (if isFile ⟨text⟩ then _ else _) = _
      cases isFile ⟨text⟩ with
      | true => rfl
      | false => exact later

/-- What is promised of a specifier that is taken relative to a module or to the root. -/
structure IsRelativeTo (isFile : ModulePath → Bool) (importer : ModulePath) (specifier : String) : Prop where
  /-- It is refused exactly if its walk leaves the root or ends there. -/
  fails : (∃ e, resolve isFile importer specifier = .error e) ↔
    (¬∃ last, Leads (startOf importer specifier) (segmentsOf specifier) last) ∨
      Leads (startOf importer specifier) (segmentsOf specifier) []
  named : ∀ e, resolve isFile importer specifier = .error e → e.report.code = "RB-ERR-OUTSIDE-ROOT" ∧
    e.report.file = importer.text ∧ e.report.context = some ("import `" ++ specifier ++ "`")
  /-- Otherwise it means the first choice that is a file. -/
  first : ∀ last, last ≠ [] → Leads (startOf importer specifier) (segmentsOf specifier) last →
    resolve isFile importer specifier = .ok (ofFound ((choices (ofSegments last)).find? isFile))
  unresolved : resolve isFile importer specifier = .ok .unresolved ↔ ∃ last, last ≠ [] ∧
    Leads (startOf importer specifier) (segmentsOf specifier) last ∧
      ∀ path ∈ choices (ofSegments last), isFile path = false
  built : ∀ last, last ≠ [] → Leads (startOf importer specifier) (segmentsOf specifier) last →
    ∀ path ∈ choices (ofSegments last), path.Normal ∧ ModulePath.ofText path.text = .ok path
  found : ∀ path, resolve isFile importer specifier = .ok (.module path) → path.Normal ∧ isFile path = true

theorem resolve_eq (relative : isRelative specifier = true) : resolve isFile importer specifier =
    importer.resolveAt specifier >>= fun base => firstOf isFile (candidates base) := by
  rw [resolve, relative]
  rfl

/-- A walk that ends at a module decides what the choices are. -/
theorem resolve_of_resolveAt (relative : isRelative specifier = true) (normal : base.Normal)
    (finds : importer.resolveAt specifier = .ok base) :
    resolve isFile importer specifier = .ok (ofFound ((choices base).find? isFile)) := by
  rw [resolve_eq relative, finds, ← candidates_choices]
  apply firstOf_eq
  intro text member
  have isNormal := choices_normal normal ⟨text⟩ (candidates_choices base ▸ List.mem_map.mpr ⟨text, member, rfl⟩)
  exact isNormal.ofText

theorem resolve_eq_error (relative : isRelative specifier = true) (normal : importer.Normal) {e : BuildError} :
    resolve isFile importer specifier = .error e ↔ importer.resolveAt specifier = .error e := by
  cases finds : importer.resolveAt specifier with
  | error other =>
      rw [resolve_eq relative, finds]
      exact ⟨fun same => congrArg Except.error (Except.error.inj same),
        fun same => congrArg Except.error (Except.error.inj same)⟩
  | ok base =>
      rw [resolve_of_resolveAt relative ((ModulePath.resolveAt_eq_ok normal).mp finds).1 finds]
      constructor
      · intro same
        cases same
      · intro same
        cases same

/-- A result comes from a walk that ends at a module. -/
theorem exists_of_resolve {result : Resolution} (relative : isRelative specifier = true) (normal : importer.Normal)
    (h : resolve isFile importer specifier = .ok result) : ∃ last, last ≠ [] ∧
      Leads (startOf importer specifier) (segmentsOf specifier) last ∧ (ofSegments last).Normal ∧
        result = ofFound ((choices (ofSegments last)).find? isFile) := by
  rw [resolve_eq relative] at h
  obtain ⟨base, finds, _⟩ := bind_eq_ok.mp h
  obtain ⟨isNormal, leads⟩ := (ModulePath.resolveAt_eq_ok normal).mp finds
  obtain ⟨nonempty, _, same⟩ := isNormal.eq_ofSegments
  refine ⟨segmentsOf base.text, nonempty, leads, same ▸ isNormal, ?_⟩
  rw [← same]
  rw [← resolve_eq relative, resolve_of_resolveAt relative isNormal finds] at h
  exact (Except.ok.inj h).symm

theorem ofFound_eq_module {found : Option ModulePath} {path : ModulePath} :
    ofFound found = .module path ↔ found = some path := by
  cases found <;> simp [ofFound]

theorem ofFound_eq_unresolved {found : Option ModulePath} : ofFound found = .unresolved ↔ found = none := by
  cases found <;> simp [ofFound]

theorem resolve_isRelativeTo (normal : importer.Normal) (relative : isRelative specifier = true)
    (isFile : ModulePath → Bool) : IsRelativeTo isFile importer specifier where
  fails := by
    rw [← ModulePath.resolveAt_fails normal]
    exact exists_congr fun e => resolve_eq_error relative normal
  named e fails := ModulePath.resolveAt_error ((resolve_eq_error relative normal).mp fails)
  first last nonempty leads := by
    obtain ⟨isNormal, finds⟩ := ModulePath.resolveAt_of_leads normal nonempty leads
    exact resolve_of_resolveAt relative isNormal finds
  unresolved := by
    constructor
    · intro h
      obtain ⟨last, nonempty, leads, _, result⟩ := exists_of_resolve relative normal h
      have none := List.find?_eq_none.mp (ofFound_eq_unresolved.mp result.symm)
      exact ⟨last, nonempty, leads, fun path member => Bool.eq_false_iff.mpr (none path member)⟩
    · rintro ⟨last, nonempty, leads, none⟩
      obtain ⟨isNormal, finds⟩ := ModulePath.resolveAt_of_leads normal nonempty leads
      have absent : (choices (ofSegments last)).find? isFile = Option.none :=
        List.find?_eq_none.mpr fun path member => Bool.eq_false_iff.mp (none path member)
      rw [resolve_of_resolveAt relative isNormal finds, absent]
      rfl
  built last nonempty leads path member := by
    have isNormal := choices_normal (ModulePath.resolveAt_of_leads normal nonempty leads).1 path member
    exact ⟨isNormal, isNormal.ofText⟩
  found path h := by
    obtain ⟨last, nonempty, leads, isNormal, result⟩ := exists_of_resolve relative normal h
    have found := ofFound_eq_module.mp result.symm
    exact ⟨choices_normal isNormal path (List.mem_of_find?_eq_some found), List.find?_some found⟩

theorem likeSpecifier_isRelativeTo : (⟨"lists/item.js"⟩ : ModulePath).Normal ∧ isRelative "../like" = true ∧
    IsRelativeTo (· == ⟨"like.ts"⟩) ⟨"lists/item.js"⟩ "../like" ∧
      resolve (· == ⟨"like.ts"⟩) ⟨"lists/item.js"⟩ "../like" = .ok (.module ⟨"like.ts"⟩) := by
  have normal : (⟨"lists/item.js"⟩ : ModulePath).Normal :=
    ⟨[['l', 'i', 's', 't', 's'], ['i', 't', 'e', 'm', '.', 'j', 's']], by decide, by decide, by decide +kernel⟩
  have means : IsRelativeTo (· == ⟨"like.ts"⟩) ⟨"lists/item.js"⟩ "../like" :=
    resolve_isRelativeTo normal (by decide) (· == ⟨"like.ts"⟩)
  have leads : Leads (startOf ⟨"lists/item.js"⟩ "../like") (segmentsOf "../like") [['l', 'i', 'k', 'e']] :=
    ModulePath.leads_iff.mpr (toOption_eq_some.mp (by decide +kernel))
  have first : (choices (ofSegments [['l', 'i', 'k', 'e']])).find? (· == ⟨"like.ts"⟩) = some ⟨"like.ts"⟩ := by
    decide +kernel
  refine ⟨normal, by decide, means, ?_⟩
  rw [means.first _ (by decide) leads, first]
  rfl

end Resolution
end Realms
