import Mathlib.Data.List.Basic
import Realms.Proofs.Outcome
import Realms.Reference

/-!
The check of ids. It remembers the first reference of each id and compares a later one with that alone. No reference
that means another export than an earlier one of its id gets past it all the same, in whatever order they come, and
what it names is the first of them.
-/
namespace Realms.Reference

variable {references seen before rest : List Reference} {a b r first second : Reference}

/-- The same name of the same module, in one realm. -/
structure SameExport (a b : Reference) : Prop where
  modulePath : a.modulePath = b.modulePath
  exportName : a.exportName = b.exportName
  realm : a.realm = b.realm

theorem sameExport_iff : sameExport a b = true ↔ SameExport a b := by
  simp only [sameExport, Bool.and_eq_true, beq_iff_eq]
  constructor
  · rintro ⟨⟨modulePath, exportName⟩, realm⟩
    exact ⟨modulePath, exportName, realm⟩
  · rintro ⟨modulePath, exportName, realm⟩
    exact ⟨⟨modulePath, exportName⟩, realm⟩

namespace SameExport

theorem refl (a : Reference) : SameExport a a := ⟨rfl, rfl, rfl⟩

theorem symm (same : SameExport a b) : SameExport b a :=
  ⟨same.modulePath.symm, same.exportName.symm, same.realm.symm⟩

theorem trans {c : Reference} (same : SameExport a b) (next : SameExport b c) : SameExport a c :=
  ⟨same.modulePath.trans next.modulePath, same.exportName.trans next.exportName, same.realm.trans next.realm⟩

end SameExport

/-- Each id stands for one export. -/
def IdsAgree (references : List Reference) : Prop :=
  ∀ a ∈ references, ∀ b ∈ references, a.id = b.id → SameExport a b

/-- At a position stands a reference that means another export than an earlier one of its id. -/
def ConflictAt (references : List Reference) (n : Nat) : Prop :=
  ∃ second, references[n]? = some second ∧
    ∃ m < n, ∃ earlier, references[m]? = some earlier ∧ earlier.id = second.id ∧ ¬SameExport earlier second

/-- The reference at the first such position, and the first one of its id. -/
def FirstConflict (references : List Reference) (first second : Reference) : Prop :=
  ∃ n, ConflictAt references n ∧ (∀ m < n, ¬ConflictAt references m) ∧ references[n]? = some second ∧
    references.find? (·.id == second.id) = some first

theorem ConflictAt.not_agree {n : Nat} (conflict : ConflictAt references n) : ¬IdsAgree references := by
  intro agree
  obtain ⟨second, own, m, _, earlier, other, sameId, different⟩ := conflict
  exact different (agree earlier (List.mem_of_getElem? other) second (List.mem_of_getElem? own) sameId)

theorem FirstConflict.unique {first' second' : Reference} (conflict : FirstConflict references first second)
    (other : FirstConflict references first' second') : first = first' ∧ second = second' := by
  obtain ⟨n, here, none, own, found⟩ := conflict
  obtain ⟨n', here', none', own', found'⟩ := other
  obtain rfl : n = n' := by
    rcases Nat.lt_trichotomy n n' with less | same | more
    · exact absurd here (none' n less)
    · exact same
    · exact absurd here' (none n' more)
  obtain rfl := Option.some.inj (own.symm.trans own')
  exact ⟨Option.some.inj (found.symm.trans found'), rfl⟩

/-- What the check remembers of the references that it has passed: the first one of each id. -/
def Remembers (seen before : List Reference) : Prop :=
  ∀ id, seen.find? (·.id == id) = before.find? (·.id == id)

theorem Remembers.known (remembers : Remembers seen before) (found : seen.find? (·.id == r.id) = some first) :
    Remembers seen (before ++ [r]) := by
  intro id
  rw [List.find?_append, remembers id]
  cases holder : before.find? (·.id == id) with
  | some other => rfl
  | none =>
      have other : (r.id == id) = false := by
        apply Bool.eq_false_iff.mpr
        intro same
        rw [← beq_iff_eq.mp same, ← remembers, found] at holder
        cases holder
      simp [other]

theorem Remembers.new (remembers : Remembers seen before) : Remembers (seen ++ [r]) (before ++ [r]) := by
  intro id
  rw [List.find?_append, List.find?_append, remembers id]

/-- A reference that is like the first one of its id is like all of them. -/
theorem IdsAgree.concat (agree : IdsAgree before)
    (like : ∀ first, before.find? (·.id == r.id) = some first → SameExport first r) : IdsAgree (before ++ [r]) := by
  have behind (a : Reference) (member : a ∈ before) (sameId : a.id = r.id) : SameExport a r := by
    cases found : before.find? (·.id == r.id) with
    | none => exact absurd (beq_iff_eq.mpr sameId) (List.find?_eq_none.mp found a member)
    | some first =>
        have firstId : first.id = r.id := by simpa using List.find?_some found
        have alike := agree a member first (List.mem_of_find?_eq_some found) (sameId.trans firstId.symm)
        exact alike.trans (like first found)
  intro a left b right sameId
  rcases List.mem_append.mp left with left | left
  · rcases List.mem_append.mp right with right | right
    · exact agree a left b right sameId
    · rw [List.mem_singleton.mp right] at sameId ⊢
      exact behind a left sameId
  · rw [List.mem_singleton.mp left] at sameId ⊢
    rcases List.mem_append.mp right with right | right
    · exact (behind b right sameId.symm).symm
    · rw [List.mem_singleton.mp right]
      exact SameExport.refl r

/-- Behind references that agree, one that is unlike the first of its id is the first conflict. -/
theorem firstConflict_behind (agree : IdsAgree before) (found : before.find? (·.id == r.id) = some first)
    (unlike : ¬SameExport first r) : FirstConflict (before ++ r :: rest) first r := by
  have own : (before ++ r :: rest)[before.length]? = some r := by simp
  have front (m : Nat) (less : m < before.length) : (before ++ r :: rest)[m]? = before[m]? :=
    List.getElem?_append_left less
  refine ⟨before.length, ?_, ?_, own, ?_⟩
  · obtain ⟨m, less, stands⟩ := List.getElem_of_mem (List.mem_of_find?_eq_some found)
    have firstId : first.id = r.id := by simpa using List.find?_some found
    refine ⟨r, own, m, less, first, ?_, firstId, unlike⟩
    rw [front m less, List.getElem?_eq_getElem less, stands]
  · rintro n less ⟨second, here, m, earlierThan, earlier, there, sameId, different⟩
    rw [front n less] at here
    rw [front m (Nat.lt_trans earlierThan less)] at there
    exact different (agree earlier (List.mem_of_getElem? there) second (List.mem_of_getElem? here) sameId)
  · rw [List.find?_append, found]
    rfl

/-- How the check ends, if no two references that it has passed are at odds. -/
theorem checkUniqueAfter_cases (remembers : Remembers seen before) (agree : IdsAgree before) :
    checkUniqueAfter seen rest = .ok () ∧ IdsAgree (before ++ rest) ∨
      ∃ first second, checkUniqueAfter seen rest = .error (conflict first second) ∧
        FirstConflict (before ++ rest) first second := by
  induction rest generalizing seen before with
  | nil =>
      left
      rw [List.append_nil]
      exact ⟨rfl, agree⟩
  | cons r rest ih =>
      have next : before ++ r :: rest = before ++ [r] ++ rest := by simp
      rw [checkUniqueAfter]
      cases found : seen.find? (·.id == r.id) with
      | none =>
          have more : IdsAgree (before ++ [r]) := by
            apply agree.concat
            intro first holder
            rw [← remembers, found] at holder
            cases holder
          rw [next]
          exact ih remembers.new more
      | some first =>
          have holder : before.find? (·.id == r.id) = some first := (remembers r.id).symm.trans found
          cases same : sameExport first r with
          | true =>
              have more : IdsAgree (before ++ [r]) := by
                apply agree.concat
                intro other again
                rw [Option.some.inj (again.symm.trans holder)]
                exact sameExport_iff.mp same
              rw [next]
              simp only [same, if_true]
              exact ih (remembers.known found) more
          | false =>
              right
              simp only [same, Bool.false_eq_true, if_false]
              have unlike : ¬SameExport first r := by
                intro alike
                rw [sameExport_iff.mpr alike] at same
                cases same
              exact ⟨first, r, rfl, firstConflict_behind agree holder unlike⟩

theorem checkUnique_cases (references : List Reference) :
    checkUnique references = .ok () ∧ IdsAgree references ∨
      ∃ first second, checkUnique references = .error (conflict first second) ∧
        FirstConflict references first second :=
  checkUniqueAfter_cases (fun _ => rfl) (List.forall_mem_nil _)

theorem checkUnique_eq_ok : checkUnique references = .ok () ↔ IdsAgree references := by
  rcases checkUnique_cases references with ⟨passes, agree⟩ | ⟨first, second, fails, conflict⟩
  · exact iff_of_true passes agree
  · obtain ⟨n, here, _⟩ := conflict
    rw [fails]
    exact iff_of_false nofun here.not_agree

theorem checkUnique_eq_error {e : BuildError} : checkUnique references = .error e ↔
    ∃ first second, FirstConflict references first second ∧ e = conflict first second := by
  rcases checkUnique_cases references with ⟨passes, agree⟩ | ⟨first, second, fails, conflicts⟩
  · rw [passes]
    refine iff_of_false nofun ?_
    rintro ⟨first, second, ⟨n, here, _⟩, _⟩
    exact here.not_agree agree
  · rw [fails]
    constructor
    · intro same
      exact ⟨first, second, conflicts, (Except.error.inj same).symm⟩
    · rintro ⟨first', second', other, rfl⟩
      obtain ⟨rfl, rfl⟩ := conflicts.unique other
      rfl

theorem IdsAgree.perm {others : List Reference} (perm : references.Perm others) :
    IdsAgree references ↔ IdsAgree others := by
  simp only [IdsAgree, perm.mem_iff]

/-- The error reports two references of one id: it lies in the module of the second, and names the id and both parties
by their modules and realms. -/
structure Reports (e : BuildError) (first second : Reference) : Prop where
  code : e.report.code = "RB-ERR-DUPLICATE-ID"
  message : e.report.message = "Reference id `" ++ second.id ++ "` is produced twice"
  file : e.report.file = second.modulePath.text
  location : e.report.location = ⟨0, 0⟩
  context : e.report.context = some ("first: " ++ first.modulePath.text ++ " (" ++ first.realm.title ++ "), second: " ++
    second.modulePath.text ++ " (" ++ second.realm.title ++ ")")

theorem conflict_reports (first second : Reference) : Reports (conflict first second) first second where
  code := rfl
  message := rfl
  file := rfl
  location := rfl
  context := by simp [conflict, party, BuildError.report, String.append_assoc]

/-- The check passes exactly where each id stands for one export, whatever the order. It fails exactly where some
reference is at odds with an earlier one, and then its error reports the first such reference and the first reference of
that id. -/
theorem checkUnique_isExact (references : List Reference) :
    (checkUnique references = .ok () ↔
      ∀ a ∈ references, ∀ b ∈ references, a.id = b.id →
        a.modulePath = b.modulePath ∧ a.exportName = b.exportName ∧ a.realm = b.realm) ∧
    (∀ others, references.Perm others → (checkUnique references = .ok () ↔ checkUnique others = .ok ())) ∧
    (∀ e, checkUnique references = .error e →
      ∃ first second, FirstConflict references first second ∧ Reports e first second) ∧
    ∀ first second, FirstConflict references first second →
      ∃ e, checkUnique references = .error e ∧ Reports e first second := by
  refine ⟨?_, ?_, ?_, ?_⟩
  · rw [checkUnique_eq_ok]
    refine forall₄_congr fun a _ b _ => imp_congr_right fun _ => ?_
    constructor
    · intro same
      exact ⟨same.modulePath, same.exportName, same.realm⟩
    · rintro ⟨modulePath, exportName, realm⟩
      exact ⟨modulePath, exportName, realm⟩
  · intro others perm
    rw [checkUnique_eq_ok, checkUnique_eq_ok]
    exact IdsAgree.perm perm
  · intro e fails
    obtain ⟨first, second, found, rfl⟩ := checkUnique_eq_error.mp fails
    exact ⟨first, second, found, conflict_reports first second⟩
  · intro first second found
    exact ⟨conflict first second, checkUnique_eq_error.mpr ⟨first, second, found, rfl⟩, conflict_reports first second⟩

/-- Three references to one id, with another id in between: the second one of the id is at odds with the first, and the
last one is like the first again. -/
def badges : List Reference :=
  [⟨"badge.js#Badge", .client, "Badge", ⟨"badge.js"⟩⟩, ⟨"menu.js#Menu", .client, "Menu", ⟨"menu.js"⟩⟩,
    ⟨"badge.js#Badge", .serverFunction, "Badge", ⟨"old/badge.js"⟩⟩, ⟨"badge.js#Badge", .client, "Badge", ⟨"badge.js"⟩⟩]

theorem badges_conflict : FirstConflict badges ⟨"badge.js#Badge", .client, "Badge", ⟨"badge.js"⟩⟩
      ⟨"badge.js#Badge", .serverFunction, "Badge", ⟨"old/badge.js"⟩⟩ ∧
    ∃ e, checkUnique badges = .error e ∧ e.report.message = "Reference id `badge.js#Badge` is produced twice" ∧
      e.report.file = "old/badge.js" ∧
      e.report.context = some "first: badge.js (Client), second: old/badge.js (ServerFunction)" := by
  have agree : IdsAgree (badges.take 2) := by
    rw [← checkUnique_eq_ok]
    rfl
  have found : FirstConflict badges ⟨"badge.js#Badge", .client, "Badge", ⟨"badge.js"⟩⟩
      ⟨"badge.js#Badge", .serverFunction, "Badge", ⟨"old/badge.js"⟩⟩ := by
    change FirstConflict (badges.take 2 ++ _ :: badges.drop 3) _ _
    refine firstConflict_behind agree rfl ?_
    rintro ⟨modulePath, _, _⟩
    exact absurd (congrArg ModulePath.text modulePath) (by decide)
  obtain ⟨e, fails, reports⟩ := (checkUnique_isExact badges).2.2.2 _ _ found
  exact ⟨found, e, fails, reports.message, reports.file, reports.context⟩

end Realms.Reference
