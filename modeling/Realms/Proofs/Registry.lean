import Realms.Proofs.Outcome
import Realms.Registry

/-!
What a registry answers. A manifest is accepted exactly when each of its ids has a function.
-/
namespace Realms.Registry

variable {registry : Registry} {id : String}

theorem resolve_isOk : (∃ function, registry.resolve id = .ok function) ↔ registry.contains id = true := by
  rw [resolve, contains, Option.isSome_iff_exists]
  cases registry.find? id with
  | none => simp
  | some function => simp

theorem verify_eq_ok {manifest : Manifest} : registry.verify manifest = .ok () ↔
    ∀ id ∈ manifest.serverFunctionIds, ∃ function, registry.resolve id = .ok function := by
  simp only [resolve_isOk]
  rw [verify]
  split
  · rename_i none
    simpa using none
  · rename_i some
    simpa using some

end Realms.Registry
