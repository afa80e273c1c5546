import Realms.Proofs.Emission.Ids
import Realms.Proofs.Resolution

/-!
The form of ids. An id has it if the first hash sign in it ends a path without white space and what is behind it is
a plain name. The ids of a build end in identifiers of any script, behind paths of any characters, so some of them do
not have the form, and they are not taken apart.
-/
namespace Realms

namespace Reference

variable {c : Char} {cs front behind : List Char} {path : ModulePath} {name : String}

theorem cutAtHash_append (plain : '#' ∉ front) : cutAtHash (front ++ '#' :: behind) = some (front, behind) := by
  have others : ∀ c ∈ front, (c != '#') = true := fun c member => bne_iff_ne.mpr fun same => plain (same ▸ member)
  rw [cutAtHash, List.dropWhile_append_of_pos others, List.takeWhile_append_of_pos others]
  exact congrArg (fun front => some (front, behind)) (List.append_nil front)

theorem cutAtLastHash_append (plain : '#' ∉ behind) :
    cutAtLastHash (front ++ '#' :: behind) = some (front, behind) := by
  have turned : (front ++ '#' :: behind).reverse = behind.reverse ++ '#' :: front.reverse := by simp
  rw [cutAtLastHash, turned, cutAtHash_append fun member => plain (List.mem_reverse.mp member)]
  simp only [Option.map_some, List.reverse_reverse]

theorem isPlainPath_iff : isPlainPath cs = true ↔ cs ≠ [] ∧ ∀ c ∈ cs, c ≠ '#' ∧ Text.isBlank c = false := by
  simp [isPlainPath]

theorem toNat_lt_of_isAlphanum (alphanum : c.isAlphanum = true) : c.toNat < 128 := by
  have low {last : Char} (narrow : last.toNat < 128) (within : c.val ≤ last.val) : c.toNat < 128 :=
    (UInt32.le_iff_toNat_le.mp within).trans_lt narrow
  rcases Bool.or_eq_true_iff.mp alphanum with alpha | digit
  · rcases Bool.or_eq_true_iff.mp alpha with upper | lower
    · exact low (by decide : 'Z'.toNat < 128) (of_decide_eq_true upper).2
    · exact low (by decide : 'z'.toNat < 128) (of_decide_eq_true (Bool.and_eq_true_iff.mp lower).2)
  · exact low (by decide : '9'.toNat < 128) (of_decide_eq_true (Bool.and_eq_true_iff.mp digit).2)

/-- Beyond letters there are two signs in names, with or without the characters that other scripts have. -/
theorem named_iff {letter : Bool} {others : Bool} (low : letter = true → c.toNat < 128) :
    (letter || c == '_' || c == '$') = true ↔
      (if c.toNat < 128 then letter || c == '$' || c == '_' else others) = true ∧ c.toNat < 128 := by
  split
  · rename_i narrow
    rw [and_iff_left narrow, Bool.or_right_comm]
  · rename_i wide
    refine iff_of_false ?_ fun h => wide h.2
    intro named
    simp only [Bool.or_eq_true, beq_iff_eq] at named
    rcases named with (letter | rfl) | rfl
    · exact wide (low letter)
    · exact wide (by decide)
    · exact wide (by decide)

theorem isNameStart_iff : isNameStart c = true ↔ Text.isIdentifierStart c = true ∧ c.toNat < 128 :=
  named_iff fun alpha => toNat_lt_of_isAlphanum (Bool.or_eq_true_iff.mpr (.inl alpha))

theorem isNamePart_iff : isNamePart c = true ↔ Text.isIdentifierPart c = true ∧ c.toNat < 128 :=
  named_iff toNat_lt_of_isAlphanum

/-- The plain names are the identifiers of the first 128 characters. -/
theorem isPlainName_iff : isPlainName cs = true ↔ Text.isIdentifierName cs = true ∧ ∀ c ∈ cs, c.toNat < 128 := by
  cases cs with
  | nil => simp [isPlainName, Text.isIdentifierName]
  | cons c rest =>
      simp only [isPlainName, Text.isIdentifierName, Bool.and_eq_true, List.all_eq_true, isNameStart_iff,
        isNamePart_iff, List.forall_mem_cons]
      constructor
      · rintro ⟨⟨start, low⟩, parts⟩
        exact ⟨⟨start, fun d member => (parts d member).1⟩, low, fun d member => (parts d member).2⟩
      · rintro ⟨⟨start, parts⟩, low, lows⟩
        exact ⟨⟨start, low⟩, fun d member => ⟨parts d member, lows d member⟩⟩

theorem isPlainName_noHash (plain : isPlainName cs = true) : '#' ∉ cs := by
  cases cs with
  | nil => exact List.not_mem_nil
  | cons c rest =>
      simp only [isPlainName, Bool.and_eq_true, List.all_eq_true] at plain
      intro member
      rcases List.mem_cons.mp member with rfl | later
      · exact absurd plain.1 (by decide)
      · exact absurd (plain.2 '#' later) (by decide)

theorem idOf_toList : (idOf path name).toList = path.text.toList ++ '#' :: name.toList := by
  simp [idOf]

/-- An id has the form of one if its path and its name have theirs. -/
theorem isWellFormed_idOf : isWellFormed (idOf path name) = true ↔
    isPlainPath path.text.toList = true ∧ isPlainName name.toList = true := by
  rw [isWellFormed, idOf_toList]
  by_cases plain : '#' ∈ path.text.toList
  · -- What is behind the first hash sign holds the last one.
    obtain ⟨front, between, chars, first⟩ := List.eq_append_cons_of_mem plain
    rw [chars, List.append_assoc, List.cons_append, cutAtHash_append first]
    refine iff_of_false ?_ ?_
    · intro formed
      exact isPlainName_noHash (Bool.and_eq_true_iff.mp formed).2 (by simp)
    · intro formed
      exact ((isPlainPath_iff.mp formed.1).2 '#' (by simp)).1 rfl
  · rw [cutAtHash_append plain]
    exact Bool.and_eq_true_iff

theorem splitId_idOf (path : ModulePath) (name : String) : splitId (idOf path name) =
    if isWellFormed (idOf path name) then some (path.text, name) else none := by
  rw [splitId]
  split
  · rename_i formed
    rw [idOf_toList, cutAtLastHash_append (isPlainName_noHash (isWellFormed_idOf.mp formed).2)]
    simp only [Option.map_some, String.ofList_toList]
  · rfl

end Reference

open Reference

theorem ModulePath.Normal.nonempty {path : ModulePath} (normal : path.Normal) : path.text.toList ≠ [] := by
  obtain ⟨segments, nonempty, names, text⟩ := normal
  rw [text, String.toList_ofList]
  exact joinSegments_ne_nil nonempty names

namespace Build

variable {options : BuildOptions} {sources : Sources} {build : Build} {r : Reference}

/-- A reference of a build is that of a module in normal form, to a name that is an identifier. -/
theorem compile_reference (h : compile options sources = .ok build)
    (member : r ∈ build.manifest.clientReferences ++ build.manifest.serverFunctions) :
    r.id = idOf r.modulePath r.exportName ∧ r.modulePath.Normal ∧
      Text.isIdentifierName r.exportName.toList = true := by
  obtain ⟨project, listed, round, settled, normal, whole, _⟩ := compile_eq_ok h
  have emittable := settled.emittable
  rw [← whole] at emittable
  rw [compile_references h, Emission.referencesOf] at member
  obtain ⟨found, realm, known, own⟩ : ∃ found realm,
      build.partition.record? found.path = some found ∧ r ∈ Emission.referencesInto found realm := by
    rcases List.mem_append.mp member with component | function
    · obtain ⟨found, within, own⟩ := List.mem_flatMap.mp component
      exact ⟨found, .client, (Emission.record_of_mem emittable within).2.1, own⟩
    · obtain ⟨found, within, own⟩ := List.mem_flatMap.mp function
      exact ⟨found, .serverFunction, (Emission.record_of_mem emittable within).2.1, own⟩
  obtain ⟨name, crosses, rfl⟩ := List.mem_map.mp own
  rw [whole] at known
  exact ⟨rfl, settled.record_normal normal known, (Emission.crossingNames_bindable crosses).identifier⟩

/-- An id of a build has the form of one exactly if its path has neither a hash sign nor white space and its name
no character beyond the first 128. It is taken apart into what it was made from if it has the form, and not at all
otherwise. -/
theorem compile_idShapes (h : compile options sources = .ok build)
    (member : r ∈ build.manifest.clientReferences ++ build.manifest.serverFunctions) :
    (isWellFormed r.id = true ↔ (∀ c ∈ r.modulePath.text.toList, c ≠ '#' ∧ Text.isBlank c = false) ∧
      ∀ c ∈ r.exportName.toList, c.toNat < 128) ∧
    splitId r.id = if isWellFormed r.id then some (r.modulePath.text, r.exportName) else none := by
  obtain ⟨id, normal, identifier⟩ := compile_reference h member
  rw [id]
  refine ⟨?_, splitId_idOf _ _⟩
  rw [isWellFormed_idOf, isPlainPath_iff, isPlainName_iff, and_iff_right normal.nonempty, and_iff_right identifier]

/-- A menu with a dish of the first 128 characters and one beyond them. -/
def menuSources : Sources := .ofTexts [(⟨"menu.js"⟩, "'use client'; export const tea = 1; export const café = 2")]

def menuOptions : BuildOptions := ⟨".", ["menu.js"], [], .standard⟩

def menuReferences : List Reference :=
  [⟨"menu.js#tea", .client, "tea", ⟨"menu.js"⟩⟩, ⟨"menu.js#café", .client, "café", ⟨"menu.js"⟩⟩]

theorem menu_compiles : ∃ build, compile menuOptions menuSources = .ok build ∧
    build.manifest.clientReferences ++ build.manifest.serverFunctions = menuReferences := by
  have sees : (split menuOptions menuSources).toOption.map (fun partition =>
      (partition.isReady menuOptions.emission, Emission.referencesOf partition)) =
        some (true, menuReferences) := by decide +kernel
  obtain ⟨build, compiles, references⟩ := compile_sees sees
  exact ⟨build, compiles, (compile_references compiles).trans references⟩

/-- The id of the first dish has the form of one. -/
theorem menu_idShapes : ∃ build, compile menuOptions menuSources = .ok build ∧
    ∃ r ∈ build.manifest.clientReferences ++ build.manifest.serverFunctions, r.id = "menu.js#tea" ∧
      (isWellFormed r.id = true ↔ (∀ c ∈ r.modulePath.text.toList, c ≠ '#' ∧ Text.isBlank c = false) ∧
        ∀ c ∈ r.exportName.toList, c.toNat < 128) ∧
      splitId r.id = if isWellFormed r.id then some (r.modulePath.text, r.exportName) else none := by
  obtain ⟨build, compiles, references⟩ := menu_compiles
  have member : (⟨"menu.js#tea", .client, "tea", ⟨"menu.js"⟩⟩ : Reference) ∈
      build.manifest.clientReferences ++ build.manifest.serverFunctions := by
    rw [references]
    exact List.mem_cons_self
  exact ⟨build, compiles, _, member, rfl, compile_idShapes compiles member⟩

/-- The id of the second dish is that of a build, and neither has it the form of one nor is it taken apart. -/
theorem menu_idUnrecognized : ∃ build, compile menuOptions menuSources = .ok build ∧
    ∃ r ∈ build.manifest.clientReferences ++ build.manifest.serverFunctions, r.id = "menu.js#café" ∧
      isWellFormed r.id = false ∧ splitId r.id ≠ some (r.modulePath.text, r.exportName) := by
  obtain ⟨build, compiles, references⟩ := menu_compiles
  have member : (⟨"menu.js#café", .client, "café", ⟨"menu.js"⟩⟩ : Reference) ∈
      build.manifest.clientReferences ++ build.manifest.serverFunctions := by
    rw [references]
    exact List.mem_cons_of_mem _ List.mem_cons_self
  exact ⟨build, compiles, _, member, rfl, by decide +kernel, by decide +kernel⟩

end Build
end Realms
