import Mathlib.Data.String.Basic
import Mathlib.Data.List.Nodup
import Realms.Partition.Basic
import Realms.Sorted

/-!
Sorted lists as sets. Insertion keeps a list ascending and adds one member, so that no member stands in a
list twice.
-/
namespace Realms

section

variable {α β : Type} [BEq α] [LawfulBEq α] {entries others : List (α × β)}

/-- Where each key is named once, an entry is found by its key. -/
theorem find?_key_eq_some (keys : (entries.map Prod.fst).Nodup) {key : α} {entry : α × β} :
    entries.find? (·.1 == key) = some entry ↔ entry ∈ entries ∧ entry.1 = key := by
  constructor
  · intro found
    exact ⟨List.mem_of_find?_eq_some found, by simpa using List.find?_some found⟩
  · rintro ⟨member, rfl⟩
    cases found : entries.find? (·.1 == entry.1) with
    | none => exact absurd (List.find?_eq_none.mp found entry member) (by simp)
    | some other =>
        have same : other.1 = entry.1 := by simpa using List.find?_some found
        rw [List.inj_on_of_nodup_map keys (List.mem_of_find?_eq_some found) member same]

/-- The order of the entries does not matter for what is found. -/
theorem find?_key_of_perm (perm : entries.Perm others) (keys : (entries.map Prod.fst).Nodup) (key : α) :
    entries.find? (·.1 == key) = others.find? (·.1 == key) := by
  have keys' : (others.map Prod.fst).Nodup := (perm.map Prod.fst).nodup_iff.mp keys
  refine Option.ext fun entry => ?_
  rw [find?_key_eq_some keys, find?_key_eq_some keys', perm.mem_iff]

end

namespace Sorted

variable {α : Type} {key : α → String}

/-- Every key is smaller than those behind it. -/
def Ascending (key : α → String) (items : List α) : Prop :=
  items.Pairwise fun a b => key a < key b

theorem ascending_nil : Ascending key [] := .nil

theorem Ascending.nodup {items : List α} (ascending : Ascending key items) : items.Nodup :=
  List.Pairwise.imp (fun {a b} less => fun same : a = b => lt_irrefl (key b) (same ▸ less)) ascending

theorem mem_insert (injective : Function.Injective key) (a b : α) (items : List α) :
    b ∈ insert key a items ↔ b = a ∨ b ∈ items := by
  induction items with
  | nil => simp [insert]
  | cons c rest ih =>
      rw [insert]
      split
      · simp
      · split
        · rename_i same
          have equal : a = c := injective (beq_iff_eq.mp same)
          subst equal
          simp
        · simp only [List.mem_cons, ih]
          exact or_left_comm

theorem insert_ascending (injective : Function.Injective key) (a : α) {items : List α}
    (ascending : Ascending key items) : Ascending key (insert key a items) := by
  induction items with
  | nil => exact List.pairwise_singleton _ a
  | cons c rest ih =>
      obtain ⟨first, tail⟩ := List.pairwise_cons.mp ascending
      rw [insert]
      split
      · rename_i less
        refine List.pairwise_cons.mpr ⟨?_, ascending⟩
        intro b member
        rcases List.mem_cons.mp member with rfl | later
        · exact less
        · exact less.trans (first b later)
      · split
        · exact ascending
        · rename_i notLess notSame
          have less : key c < key a :=
            lt_of_le_of_ne (not_lt.mp notLess) fun same => notSame (beq_iff_eq.mpr same.symm)
          refine List.pairwise_cons.mpr ⟨?_, ih tail⟩
          intro b member
          rcases (mem_insert injective a b rest).mp member with rfl | later
          · exact less
          · exact first b later

theorem mem_insertAll (injective : Function.Injective key) (b : α) (more items : List α) :
    b ∈ insertAll key more items ↔ b ∈ items ∨ b ∈ more := by
  induction more generalizing items with
  | nil => simp [insertAll]
  | cons a rest ih =>
      have unfolded : insertAll key (a :: rest) items = insertAll key rest (insert key a items) := rfl
      rw [unfolded, ih, mem_insert injective, List.mem_cons]
      exact ⟨fun h => by rcases h with (h | h) | h <;> simp [h],
        fun h => by rcases h with h | h | h <;> simp [h]⟩

theorem insertAll_ascending (injective : Function.Injective key) (more : List α) {items : List α}
    (ascending : Ascending key items) : Ascending key (insertAll key more items) := by
  induction more generalizing items with
  | nil => exact ascending
  | cons a rest ih => exact ih (insert_ascending injective a ascending)

/-- A key that is not there yet is put between the others. -/
theorem put_perm {a : α} {items : List α} (absent : ∀ b ∈ items, key a ≠ key b) :
    (put key a items).Perm (a :: items) := by
  induction items with
  | nil => exact .refl _
  | cons b rest ih =>
      rw [put]
      split
      · exact .refl _
      · split
        · rename_i same
          exact absurd (beq_iff_eq.mp same) (absent b List.mem_cons_self)
        · exact ((ih fun c later => absent c (List.mem_cons_of_mem b later)).cons b).trans (.swap a b rest)

/-- What has another key is found as before. -/
theorem find?_put {a : α} {holds : α → Bool} (others : ∀ b, key b = key a → holds b = false) (items : List α) :
    (put key a items).find? holds = items.find? holds := by
  have self := others a rfl
  induction items with
  | nil => rw [put, List.find?_cons, self]
  | cons b rest ih =>
      rw [put]
      split
      · rw [List.find?_cons, self]
      · split
        · rename_i same
          rw [List.find?_cons, self, List.find?_cons, others b (beq_iff_eq.mp same).symm]
        · rw [List.find?_cons, List.find?_cons, ih]

end Sorted

theorem ModulePath.text_injective : Function.Injective ModulePath.text := by
  intro a b same
  cases a
  cases b
  exact congrArg ModulePath.mk same

namespace PathSet

/-- A set of paths that is kept in order, each path once. -/
abbrev Ascending (paths : PathSet) : Prop := Sorted.Ascending ModulePath.text paths

theorem ascending_nil : Ascending [] := Sorted.ascending_nil

@[simp] theorem mem_insert {path other : ModulePath} {paths : PathSet} :
    other ∈ paths.insert path ↔ other = path ∨ other ∈ paths :=
  Sorted.mem_insert ModulePath.text_injective path other paths

theorem Ascending.insert {paths : PathSet} (ascending : paths.Ascending) (path : ModulePath) :
    (paths.insert path).Ascending :=
  Sorted.insert_ascending ModulePath.text_injective path ascending

@[simp] theorem mem_ofList {path : ModulePath} {paths : List ModulePath} :
    path ∈ ofList paths ↔ path ∈ paths := by
  simp [ofList, Sorted.ofList, Sorted.mem_insertAll ModulePath.text_injective]

theorem ascending_ofList (paths : List ModulePath) : (ofList paths).Ascending :=
  Sorted.insertAll_ascending ModulePath.text_injective paths ascending_nil

@[simp] theorem mem_union {path : ModulePath} {xs ys : PathSet} :
    path ∈ xs.union ys ↔ path ∈ xs ∨ path ∈ ys := by
  simp [union, Sorted.union, Sorted.mem_insertAll ModulePath.text_injective]

theorem Ascending.union {xs : PathSet} (ascending : xs.Ascending) (ys : PathSet) :
    (xs.union ys).Ascending :=
  Sorted.insertAll_ascending ModulePath.text_injective ys ascending

/-- A set has one list. -/
theorem Ascending.ext {xs ys : PathSet} (left : xs.Ascending) (right : ys.Ascending)
    (same : ∀ path, path ∈ xs ↔ path ∈ ys) : xs = ys := by
  have perm : xs.Perm ys := (List.perm_ext_iff_of_nodup left.nodup right.nodup).mpr same
  exact perm.eq_of_pairwise (fun a b _ _ less more => absurd (lt_trans less more) (lt_irrefl _)) left right

/-- A path that is not there yet takes one more place. -/
theorem insert_perm {path : ModulePath} {paths : PathSet} (ascending : paths.Ascending)
    (absent : path ∉ paths) : (paths.insert path).Perm (path :: paths) :=
  (List.perm_ext_iff_of_nodup (ascending.insert path).nodup
    (List.nodup_cons.mpr ⟨absent, ascending.nodup⟩)).mpr fun other => by
      rw [mem_insert, List.mem_cons]

end PathSet
end Realms
