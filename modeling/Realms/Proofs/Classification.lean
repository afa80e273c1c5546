import Realms.ModuleRecord
import Realms.Proofs.Script.Directives

/-!
The two ways to the realm of a module: its record, read as its path says, and its classification, which reads every
source without types.
-/
namespace Realms

open Script

variable {path : ModulePath} {source : String} {shared : SharedSet} {record : ModuleRecord}

/-- Only the first directive counts. -/
theorem Realm.ofDirectives_congr {directives directives' : List String} (same : directives.head? = directives'.head?) :
    ofDirectives directives = ofDirectives directives' := by
  cases directives with
  | nil =>
      obtain rfl := List.head?_eq_none_iff.mp same.symm
      rfl
  | cons first more =>
      obtain ⟨more', rfl⟩ := List.head?_eq_some_iff.mp same.symm
      rfl

namespace ModuleRecord

theorem parse?_realm (parsed : parse? shared path source = some record) : ∃ found,
    readSource path.allowsTypes source = some found ∧
      record.realm = realmFor shared path (Realm.ofDirectives found.script.directives) := by
  obtain ⟨script, reads, rfl⟩ := Option.map_eq_some_iff.mp parsed
  unfold script? scriptIn? at reads
  split at reads
  · rename_i found text
    split at reads
    · cases reads
    · obtain rfl := Option.some.inj reads
      exact ⟨found, text, rfl⟩
  · cases reads

/-- A source that can be read without types names one realm. -/
theorem parse?_classify {plain : SourceRead} (parsed : parse? shared path source = some record)
    (reads : readSource false source = some plain) : classifyModule shared path source = record.realm := by
  obtain ⟨found, read, realm⟩ := parse?_realm parsed
  have classified : Realm.classify source = Realm.ofDirectives plain.script.directives := by
    unfold Realm.classify
    rw [reads]
  rw [realm, classifyModule, classified, Realm.ofDirectives_congr (readText_head? reads read)]

/-- A module that can be read without types has one realm, and so has one that is declared shared. One that can only be
read with types counts as a plain one when it is classified, whatever its directive says. -/
theorem parsed_classifyModule (parsed : parse? shared path source = some record) :
    (classifyModule shared path source = record.realm ↔
      path ∈ shared ∨ (readSource false source).isSome = true ∨ record.realm = .server) ∧
    (path.allowsTypes = false → classifyModule shared path source = record.realm) := by
  obtain ⟨found, read, realm⟩ := parse?_realm parsed
  refine ⟨?_, fun plain => parse?_classify parsed (plain ▸ read)⟩
  cases reads : readSource false source with
  | some found => exact iff_of_true (parse?_classify parsed reads) (.inr (.inl rfl))
  | none =>
      have classified : Realm.classify source = .server := by
        unfold Realm.classify
        rw [reads]
      by_cases isShared : path ∈ shared
      · have same (named : Realm) : realmFor shared path named = .shared := if_pos (List.contains_iff_mem.mpr isShared)
        rw [classifyModule, realm, same, same]
        exact iff_of_true rfl (.inl isShared)
      · have unshared : classifyModule shared path source = .server := by
          rw [classifyModule, classified, realmFor, if_neg (List.contains_iff_mem.not.mpr isShared)]
        rw [unshared]
        simp [isShared, eq_comm]

/-- A page for the client that is written in the typed language and has no types in it. -/
def untypedPage : String := "'use client'; export const a = 1;"

theorem untypedPage_classifyModule : ∃ record, parse? [] ⟨"a.ts"⟩ untypedPage = some record ∧
    (readSource false untypedPage).isSome = true ∧ record.realm = .client ∧
      classifyModule [] ⟨"a.ts"⟩ untypedPage = record.realm := by
  have realms : (parse? [] ⟨"a.ts"⟩ untypedPage).map ModuleRecord.realm = some .client := by decide +kernel
  have plain : (readSource false untypedPage).isSome = true := by decide +kernel
  obtain ⟨record, parsed, realm⟩ := Option.map_eq_some_iff.mp realms
  exact ⟨record, parsed, plain, realm, (parsed_classifyModule parsed).1.mpr (.inr (.inl plain))⟩

def typedPage : String := "'use client'; let x: number = 1;"

theorem typedPage_misclassified : ∃ record, parse? [] ⟨"a.ts"⟩ typedPage = some record ∧
    classifyModule [] ⟨"a.ts"⟩ typedPage ≠ record.realm := by
  have realms : (parse? [] ⟨"a.ts"⟩ typedPage).map ModuleRecord.realm = some .client := by decide +kernel
  have classified : classifyModule [] ⟨"a.ts"⟩ typedPage = .server := by decide +kernel
  obtain ⟨record, parsed, realm⟩ := Option.map_eq_some_iff.mp realms
  refine ⟨record, parsed, fun same => ?_⟩
  cases classified.symm.trans (same.trans realm)

end ModuleRecord
end Realms
