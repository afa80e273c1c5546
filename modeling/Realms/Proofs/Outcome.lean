/-!
Computations that may fail: where a result comes from, and which errors can come out.
-/
namespace Realms

universe u v

variable {ε : Type u} {α β : Type v}

theorem bind_eq_ok {x : Except ε α} {f : α → Except ε β} {b : β} :
    (x >>= f) = .ok b ↔ ∃ a, x = .ok a ∧ f a = .ok b := by
  constructor
  · intro h
    cases x with
    | ok a => exact ⟨a, rfl, h⟩
    | error e => cases h
  · rintro ⟨a, rfl, h⟩
    exact h

theorem pure_eq_ok {a b : α} : (pure a : Except ε α) = .ok b ↔ a = b :=
  ⟨fun h => Except.ok.inj h, fun h => congrArg Except.ok h⟩

theorem toOption_eq_some {x : Except ε α} {a : α} : x.toOption = some a ↔ x = .ok a := by
  cases x <;> simp [Except.toOption]

theorem exists_of_isOk {x : Except ε α} (h : x.isOk = true) : ∃ a, x = .ok a := by
  cases x with
  | ok a => exact ⟨a, rfl⟩
  | error e => cases h

theorem exists_of_not_isOk {x : Except ε α} (h : x.isOk = false) : ∃ e, x = .error e := by
  cases x with
  | ok a => cases h
  | error e => exact ⟨e, rfl⟩

/-- A computation whose result was looked at has one. -/
theorem exists_of_toOption {x : Except ε α} {f : α → β} {b : β} (h : x.toOption.map f = some b) :
    ∃ a, x = .ok a ∧ f a = b := by
  cases x with
  | ok a => exact ⟨a, rfl, Option.some.inj h⟩
  | error e => cases h

/-- Every error of a computation is of some kind. -/
def FailsWith (kind : ε → Prop) (x : Except ε α) : Prop := ∀ e, x = .error e → kind e

namespace FailsWith

variable {kind : ε → Prop}

theorem ok (a : α) : FailsWith kind (.ok a) := fun _ h => nomatch h

theorem error {e : ε} (h : kind e) : FailsWith kind (.error e : Except ε α) :=
  fun _ same => Except.error.inj same ▸ h

theorem mono {other : ε → Prop} {x : Except ε α} (fails : FailsWith kind x) (within : ∀ e, kind e → other e) :
    FailsWith other x := fun e h => within e (fails e h)

theorem bind {x : Except ε α} {f : α → Except ε β} (first : FailsWith kind x)
    (rest : ∀ a, x = .ok a → FailsWith kind (f a)) : FailsWith kind (x >>= f) := by
  cases x with
  | ok a => exact rest a rfl
  | error e => exact error (first e rfl)

theorem foldlM {γ : Type v} {f : β → γ → Except ε β} (each : ∀ b c, FailsWith kind (f b c))
    (items : List γ) (b : β) : FailsWith kind (items.foldlM f b) := by
  induction items generalizing b with
  | nil => exact ok b
  | cons c rest ih => exact bind (each b c) fun next _ => ih next

theorem mapM {γ : Type v} {f : γ → Except ε β} (each : ∀ c, FailsWith kind (f c)) (items : List γ) :
    FailsWith kind (items.mapM f) := by
  induction items with
  | nil => exact ok []
  | cons c rest ih =>
      rw [List.mapM_cons]
      exact bind (each c) fun first _ => bind ih fun more _ => ok (first :: more)

end FailsWith

/-- Two computations come to one result, or they fail with errors that belong together. -/
inductive Agree (alike : ε → ε → Prop) : Except ε α → Except ε α → Prop
  | ok (a : α) : Agree alike (.ok a) (.ok a)
  | error {e e' : ε} : alike e e' → Agree alike (.error e) (.error e')

namespace Agree

variable {alike : ε → ε → Prop}

theorem refl (own : ∀ e, alike e e) (x : Except ε α) : Agree alike x x := by
  cases x with
  | ok a => exact .ok a
  | error e => exact .error (own e)

theorem of_ok {x y : Except ε α} {a : α} (agree : Agree alike x y) (h : x = .ok a) : y = .ok a := by
  cases agree with
  | ok b => exact h
  | error => cases h

theorem of_error {x y : Except ε α} {e : ε} (agree : Agree alike x y) (h : x = .error e) :
    ∃ e', y = .error e' ∧ alike e e' := by
  cases agree with
  | ok b => cases h
  | error same => exact ⟨_, rfl, Except.error.inj h ▸ same⟩

theorem bind {x y : Except ε α} {f g : α → Except ε β} (first : Agree alike x y)
    (rest : ∀ a, Agree alike (f a) (g a)) : Agree alike (x >>= f) (y >>= g) := by
  cases first with
  | ok a => exact rest a
  | error same => exact .error same

theorem foldlM {γ : Type v} {f g : β → γ → Except ε β} (each : ∀ b c, Agree alike (f b c) (g b c))
    (items : List γ) (b : β) : Agree alike (items.foldlM f b) (items.foldlM g b) := by
  induction items generalizing b with
  | nil => exact ok b
  | cons c rest ih => exact bind (each b c) fun next => ih next

end Agree
end Realms
