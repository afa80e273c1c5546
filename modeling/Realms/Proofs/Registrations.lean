import Realms.Proofs.Registry
import Realms.Proofs.Sorted
import Realms.Proofs.Store

/-!
Registries that are filled by calls, in any order and with any repetition. Under each id stands the function of the
first call with it; a later call with this id changes nothing, and it is refused when it brings another function. So the
check of a manifest names exactly the ids that no call has brought.
-/
namespace Realms

open Realms.Json

/-- A call that registers a function under an id. -/
structure Registration where
  id : String
  function : ServerFunction

namespace Registry

/-- A registry after a call. A call that is refused leaves it as it was. -/
def called (registry : Registry) (call : Registration) : Registry :=
  match registry.register call.id call.function with
  | .ok next => next
  | .error _ => registry

/-- The registry that calls make of an empty one. -/
def filledBy (calls : List Registration) : Registry := calls.foldl called empty

/-- What the first call with an id brings. -/
def firstUnder (calls : List Registration) (id : String) : Option ServerFunction :=
  (calls.find? (·.id == id)).map (·.function)

/-- What calls leave behind in a registry: what it answers for an id, which calls it refuses from now on, which ones
leave it as it is, and what it says about a manifest. -/
structure Records (registry : Registry) (calls : List Registration) : Prop where
  resolve : ∀ id, registry.resolve id =
    match firstUnder calls id with
    | some function => .ok function
    | none => .error (.notFound id)
  refused : ∀ call : Registration, ∀ error, registry.register call.id call.function = .error error ↔
    error = .duplicateId call.id ∧
      ∃ first, firstUnder calls call.id = some first ∧ first.identity ≠ call.function.identity
  kept : ∀ call : Registration, (∃ earlier ∈ calls, earlier.id = call.id) → registry.called call = registry
  verified : ∀ manifest : Manifest, registry.verify manifest = .ok () ↔
    ∀ id ∈ manifest.serverFunctionIds, ∃ call ∈ calls, call.id = id
  missing : ∀ manifest : Manifest, (∃ id ∈ manifest.serverFunctionIds, ∀ call ∈ calls, call.id ≠ id) →
    ∃ ids, registry.verify manifest = .error (.unregistered ids) ∧ ids.Pairwise (· < ·) ∧
      ∀ id, id ∈ ids ↔ id ∈ manifest.serverFunctionIds ∧ ∀ call ∈ calls, call.id ≠ id

variable {registry : Registry} {calls : List Registration}

/-- The ids of a manifest that a registry lacks are listed in order, each once. -/
theorem verify_eq_error {manifest : Manifest}
    (lacks : ∃ listed ∈ manifest.serverFunctionIds, registry.contains listed = false) :
    ∃ ids, registry.verify manifest = .error (.unregistered ids) ∧ ids.Pairwise (· < ·) ∧
      ∀ listed, listed ∈ ids ↔ listed ∈ manifest.serverFunctionIds ∧ registry.contains listed = false := by
  let absent := manifest.serverFunctionIds.filter fun listed => !registry.contains listed
  have found : absent.isEmpty = false := by
    obtain ⟨listed, member, lacking⟩ := lacks
    exact List.isEmpty_eq_false_iff_exists_mem.mpr ⟨listed, List.mem_filter.mpr ⟨member, by simp [lacking]⟩⟩
  refine ⟨Sorted.ofList id absent, ?_, ?_, fun listed => ?_⟩
  · rw [verify]
    exact if_neg (ne_true_of_eq_false found)
  · exact Sorted.insertAll_ascending Function.injective_id absent Sorted.ascending_nil
  · rw [Sorted.ofList, Sorted.mem_insertAll Function.injective_id]
    simp [absent]

/-! ### One call -/

variable {id : String} {function : ServerFunction}

theorem register_of_find?_eq_none (unknown : registry.find? id = none) :
    registry.register id function = .ok ⟨insertMember id function registry.functions⟩ := by
  rw [register, unknown]

theorem register_of_find?_eq_some {first : ServerFunction} (known : registry.find? id = some first) :
    registry.register id function =
      if first.identity = function.identity then .ok registry else .error (.duplicateId id) := by
  rw [register, known]
  exact if_congr beq_iff_eq rfl rfl

/-- A call is refused only where another function stands under its id. -/
theorem register_eq_error {error : RegistryError} : registry.register id function = .error error ↔
    error = .duplicateId id ∧
      ∃ first, registry.find? id = some first ∧ first.identity ≠ function.identity := by
  cases known : registry.find? id with
  | none =>
      rw [register_of_find?_eq_none known]
      simp
  | some first =>
      rw [register_of_find?_eq_some known]
      split
      · rename_i same
        simp [same]
      · rename_i different
        simpa [different] using eq_comm

theorem called_of_find?_eq_some {call : Registration} {first : ServerFunction}
    (known : registry.find? call.id = some first) : registry.called call = registry := by
  rw [called, register_of_find?_eq_some known]
  by_cases same : first.identity = call.function.identity
  · rw [if_pos same]
  · rw [if_neg same]

/-- After a call its id has a function, and what stood in the registry before it stays. -/
theorem find?_called (registry : Registry) (call : Registration) (id : String) :
    (registry.called call).find? id =
      (registry.find? id).or (if call.id = id then some call.function else none) := by
  cases known : registry.find? call.id with
  | none =>
      have entered : (registry.called call).find? id =
          if id = call.id then some call.function else registry.find? id := by
        rw [called, register_of_find?_eq_none known]
        exact Store.find?_insertMember call.id id call.function registry.functions
      rw [entered]
      split
      · rename_i same
        rw [same, known, if_pos rfl, Option.none_or]
      · rename_i other
        rw [if_neg fun same => other same.symm, Option.or_none]
  | some first =>
      rw [called_of_find?_eq_some known]
      split
      · rename_i same
        rw [← same, known, Option.some_or]
      · rw [Option.or_none]

/-! ### All calls -/

/-- A registry answers with what it held before the calls, and then with the earliest of them. -/
theorem find?_foldl_called (calls : List Registration) (registry : Registry) (id : String) :
    (calls.foldl called registry).find? id = (registry.find? id).or (firstUnder calls id) := by
  induction calls generalizing registry with
  | nil => exact Option.or_none.symm
  | cons call rest ih =>
      have first : firstUnder (call :: rest) id =
          (if call.id = id then some call.function else none).or (firstUnder rest id) := by
        by_cases same : call.id = id
        · simp [firstUnder, same]
        · rw [firstUnder, List.find?_cons_of_neg (by simpa using same), if_neg same, Option.none_or, firstUnder]
      rw [List.foldl_cons, ih, find?_called, Option.or_assoc, first]

theorem find?_filledBy (calls : List Registration) (id : String) :
    (filledBy calls).find? id = firstUnder calls id :=
  find?_foldl_called calls empty id

theorem firstUnder_eq_none : firstUnder calls id = none ↔ ∀ call ∈ calls, call.id ≠ id := by
  simp [firstUnder, List.find?_eq_none]

theorem contains_filledBy_eq_false :
    (filledBy calls).contains id = false ↔ ∀ call ∈ calls, call.id ≠ id := by
  rw [contains, find?_filledBy, Option.isSome_eq_false_iff, Option.isNone_iff_eq_none, firstUnder_eq_none]

theorem contains_filledBy : (filledBy calls).contains id = true ↔ ∃ call ∈ calls, call.id = id := by
  rw [← Bool.not_eq_false, contains_filledBy_eq_false]
  push Not
  rfl

/-- However a registry was filled, it holds under each id the function of the first call, and nothing else. -/
theorem records_filledBy (calls : List Registration) : (filledBy calls).Records calls where
  resolve id := by
    have found := find?_filledBy calls id
    cases first : firstUnder calls id <;> simp only [Registry.resolve, found, first]
  refused call error := by
    rw [register_eq_error, find?_filledBy]
  kept call earlier := by
    have known := contains_filledBy.mpr earlier
    obtain ⟨first, found⟩ := Option.isSome_iff_exists.mp known
    exact called_of_find?_eq_some found
  verified manifest := by
    simp only [verify_eq_ok, resolve_isOk, contains_filledBy]
  missing manifest lacks := by
    simp only [← contains_filledBy_eq_false] at lacks ⊢
    exact verify_eq_error lacks

end Registry
end Realms
