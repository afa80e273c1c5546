import Realms.Proofs.Album
import Realms.Proofs.Json.Record

/-!
What a call is answered with, whatever the functions, the page and the texts are. It gets the page exactly when its
function is known, succeeds, and leaves a store whose page can be made. Else it is told why, and the client reads this
reason as it was given, character for character. Nothing but the function and the making of a page touches the store.
A page is made of the store that a function has left if it succeeded, and not at all if it did not, so a page that is
only read from the store leaves each call with the store of its function.
-/
namespace Realms.Service

open Realms.Json

variable {app : App} {store : Store} {call : Call} {request : Request} {received : Received}

/-- Why a call does not get the page. -/
inductive CallError where
  | registry (e : RegistryError)
  | action (e : ActionError)
  | panic (detail : Option String)
  | page (e : PageError)

def CallError.message : CallError → String
  | .registry e => e.message
  | .action e => e.message
  | .panic detail => "Server function panicked: " ++ detail.getD "unknown cause"
  | .page e => e.message

namespace App

/-- The store that the function of a call leaves. Without a function it stays. -/
def leaves (app : App) (store : Store) (call : Call) : Store :=
  match app.registry.find? call.id with
  | some function => (function.run call.arguments store).1
  | none => store

/-- The function of a call is known and succeeds. -/
def Runs (app : App) (store : Store) (call : Call) : Prop :=
  ∃ function value, app.registry.find? call.id = some function ∧
    (function.run call.arguments store).2 = .value value

/-- The function of a call succeeds, and this is the page of the store it leaves. -/
def Succeeds (app : App) (store : Store) (call : Call) (root : Node) : Prop :=
  app.Runs store call ∧ (app.render (app.leaves store call)).2 = .ok root

inductive Fails (app : App) (store : Store) (call : Call) : CallError → Prop where
  | unknown : app.registry.find? call.id = none → app.Fails store call (.registry (.notFound call.id))
  | refused {function : ServerFunction} {e : ActionError} : app.registry.find? call.id = some function →
      (function.run call.arguments store).2 = .error e → app.Fails store call (.action e)
  | broken {function : ServerFunction} {detail : Option String} : app.registry.find? call.id = some function →
      (function.run call.arguments store).2 = .broken detail → app.Fails store call (.panic detail)
  | page {e : PageError} : app.Runs store call → (app.render (app.leaves store call)).2 = .error e →
      app.Fails store call (.page e)

/-- The page is produced from the store as it is: making it writes nothing. -/
def OnlyReads (app : App) : Prop := ∀ store, (app.render store).1 = store

end App

/-- An answer as it arrives unbroken, its body cut in any way. -/
structure Received.Carries (received : Received) (response : Response) : Prop where
  status : received.status = response.status
  contentType : received.contentType = response.contentType
  body : received.chunks.flatten = Text.bytesOf response.body
  unbroken : received.broken = false

/-- A call was answered: by the page where it succeeds, and else by the reason why not. -/
structure App.Answers (app : App) (store : Store) (call : Call) (after : Store) (response : Response) : Prop where
  /-- Where the function fails, or is not known, the store is the one it left. -/
  unmade : ¬app.Runs store call → after = app.leaves store call
  /-- Where it succeeds, the page is made of that store, and nothing else is done to it. -/
  made : app.Runs store call → after = (app.render (app.leaves store call)).1
  /-- So a page that only reads leaves it as the function did. -/
  kept : app.OnlyReads → after = app.leaves store call
  status : response.status = 200 ↔ ∃ root, app.Succeeds store call root
  page : ∀ root, app.Succeeds store call root → response = .page root
  failed : response.status ≠ 200 → response.status = 500 ∧ ∃ e, app.Fails store call e
  reason : ∀ e, app.Fails store call e → response.status = 500 ∧
    ∀ received : Received, received.Carries response → received.page = .error (.server 500 e.message)

/-! ### The reason of a failure -/

/-- The body of a failure says what was put into it. -/
theorem Fault.message?_value (message : String) :
    Fault.message? (Text.bytesOf (Fault.value message).compact) = some message := by
  rw [Fault.message?, Fault.fields, Fault.value, readRecord_text]
  rfl

/-- A client reads the reason of a failure as it was given. -/
theorem Received.Carries.page_failure {message : String} (carries : received.Carries (.failure message)) :
    received.page = .error (.server 500 message) := by
  have status : received.status = 500 := carries.status
  have refused : received.isSuccess = false := by simp [Received.isSuccess, status]
  have reason : received.reason = message := by
    rw [Received.reason, carries.unbroken, carries.body]
    simp only [Bool.false_eq_true, if_false, Text.decodeLossy_bytesOf, Response.failure, Fault.message?_value,
      Option.getD_some]
  simp [Received.page, refused, status, reason]

/-! ### What a call can come to -/

/-- A function that is refused, broken or not known does not run to its end. -/
theorem App.not_runs {function : ServerFunction} (known : app.registry.find? call.id = some function)
    (noValue : ∀ value, (function.run call.arguments store).2 ≠ .value value) : ¬app.Runs store call := by
  rintro ⟨other, value, found, outcome⟩
  obtain rfl := Option.some.inj (known.symm.trans found)
  exact noValue value outcome

/-- A call fails for one reason, and then it does not succeed. -/
theorem App.Fails.not_succeeds {e : CallError} (fails : app.Fails store call e) :
    ¬∃ root, app.Succeeds store call root := by
  rintro ⟨root, runs, made⟩
  cases fails with
  | unknown none =>
      obtain ⟨function, value, known, _⟩ := runs
      simp [known] at none
  | refused found error => exact App.not_runs found (by simp [error]) runs
  | broken found error => exact App.not_runs found (by simp [error]) runs
  | page _ error => simp [made] at error

theorem App.Fails.unique {e other : CallError} (fails : app.Fails store call e)
    (also : app.Fails store call other) : other = e := by
  cases fails <;> cases also <;> simp_all [App.Runs]

theorem App.Succeeds.unique {root other : Node} (succeeds : app.Succeeds store call root)
    (also : app.Succeeds store call other) : other = root :=
  Except.ok.inj (also.2.symm.trans succeeds.2)

/-- An answer by the page promises all that a success does. -/
theorem App.Succeeds.answers {root : Node} (succeeds : app.Succeeds store call root) :
    app.Answers store call (app.render (app.leaves store call)).1 (.page root) where
  unmade := fun stops => absurd succeeds.1 stops
  made := fun _ => rfl
  kept := fun reads => reads _
  status := ⟨fun _ => ⟨root, succeeds⟩, fun _ => rfl⟩
  page := fun other also => by rw [succeeds.unique also]
  failed := fun failed => absurd rfl failed
  reason := fun e fails => absurd ⟨root, succeeds⟩ fails.not_succeeds

/-- The reason of a failure is an answer, whichever store is left of the two that there can be. -/
theorem App.Fails.answers {e : CallError} {after : Store} (fails : app.Fails store call e)
    (unmade : ¬app.Runs store call → after = app.leaves store call)
    (made : app.Runs store call → after = (app.render (app.leaves store call)).1) :
    app.Answers store call after (.failure e.message) where
  unmade := unmade
  made := made
  kept := fun reads => by
    by_cases runs : app.Runs store call
    · exact (made runs).trans (reads _)
    · exact unmade runs
  status := ⟨fun success => absurd success (by decide : (500 : Nat) ≠ 200),
    fun some => absurd some fails.not_succeeds⟩
  page := fun root succeeds => absurd ⟨root, succeeds⟩ fails.not_succeeds
  failed := fun _ => ⟨rfl, e, fails⟩
  reason := fun other also => ⟨rfl, fun received carries => by
    rw [fails.unique also]
    exact carries.page_failure⟩

/-- A function that leaves a note. -/
def noted : ServerFunction := ⟨1, fun _ store => (store.set "note" .null, .value .null)⟩

end Realms.Service
