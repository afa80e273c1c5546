import Realms.Proofs.Page.Sent
import Realms.Store

/-!
What a store answers after a value was put into it, and the counts among its values. A count that fits its bits is
what was written, and it can be sent.
-/
namespace Realms.Store

open Realms.Json

variable {store : Store} {key other : String} {count : Int}

theorem find?_insertMember {α : Type} (key other : String) (value : α) (members : List (String × α)) :
    ((insertMember key value members).find? (·.1 == other)).map Prod.snd =
      if other = key then some value else (members.find? (·.1 == other)).map Prod.snd := by
  by_cases same : other = key
  · subst same
    rw [if_pos rfl]
    induction members with
    | nil => simp [insertMember]
    | cons first rest ih =>
        obtain ⟨k, v⟩ := first
        rw [insertMember]
        split
        · simp
        · split
          · simp
          · rename_i different
            have apart : k ≠ other := fun equal => different (beq_iff_eq.mpr equal.symm)
            rw [List.find?_cons_of_neg (by simpa using apart), ih]
  · rw [if_neg same]
    have apart : key ≠ other := Ne.symm same
    induction members with
    | nil => simp [insertMember, apart]
    | cons first rest ih =>
        obtain ⟨k, v⟩ := first
        rw [insertMember]
        split
        · rw [List.find?_cons_of_neg (by simpa using apart)]
        · split
          · rename_i equal
            obtain rfl := beq_iff_eq.mp equal
            rw [List.find?_cons_of_neg (by simpa using apart), List.find?_cons_of_neg (by simpa using apart)]
          · by_cases here : k = other
            · simp [here]
            · rw [List.find?_cons_of_neg (by simpa using here), List.find?_cons_of_neg (by simpa using here), ih]

@[simp] theorem get?_set (store : Store) (key other : String) (value : Value) :
    (store.set key value).get? other = if other = key then some value else store.get? other :=
  find?_insertMember key other value store.members

theorem countOf_countValue (below : count < countBound) : countOf (countValue count) = some count := by
  unfold countValue
  split
  · rename_i notNegative
    have small : count.toNat < countBound := by omega
    simp only [countOf, if_pos small, Int.toNat_of_nonneg notNegative]
  · rename_i negative
    simp only [countOf]
    congr 1
    omega

/-- A count that was put into a store is found there, and all others are those from before. -/
theorem count_set (store : Store) (key other : String) (below : count < countBound) :
    (store.set key (countValue count)).count other = if other = key then count else store.count other := by
  rw [Store.count, get?_set]
  split
  · simp [countOf_countValue below]
  · rfl

theorem nextCount_eq (below : count + 1 < countBound) : nextCount count = count + 1 :=
  if_neg (Int.ne_of_lt below)

/-- A count has 64 bits with its sign. -/
def IsCount (count : Int) : Prop := -(countBound : Int) ≤ count ∧ count < countBound

theorem isWhole_countValue (isCount : IsCount count) : (countValue count).IsWhole := by
  obtain ⟨least, below⟩ := isCount
  unfold countBound at least below
  unfold countValue
  split
  · refine .number (decide_eq_true ?_)
    unfold largest
    omega
  · refine .number ?_
    simp only [Number.isWhole, Bool.and_eq_true, decide_eq_true_eq]
    omega

theorem isSorted_countValue (count : Int) : (countValue count).IsSorted := by
  unfold countValue
  split <;> exact .number _

end Realms.Store
