import Realms.Json.Record

/-!
The bodies that client and server exchange besides pages: a call of a function, and an error.
-/
namespace Realms.Service

open Realms.Json

structure Call where
  id : String
  arguments : List Value
deriving Inhabited

namespace Call

def fields : List Field := [("id", true, .text), ("args", false, .list .any)]

def ofValue (v : Value) : Call :=
  let arguments := match v.get? "args" with
    | some (.list items) => items.map Value.sorted
    | _ => []
  ⟨((v.get? "id") >>= Value.text?).getD "", arguments⟩

/-- The call in a body. Its arguments may be missing, and it may be a list. -/
def ofBody (body : List UInt8) : Result Call := do return ofValue (← readRecord fields body)

def value (call : Call) : Value := .object [("id", .text call.id), ("args", .list call.arguments)]

end Call

namespace Fault

def fields : List Field := [("error", true, .text)]

def value (message : String) : Value := .object [("error", .text message)]

def message? (body : List UInt8) : Option String :=
  match readRecord fields body with
  | .ok v => (v.get? "error") >>= Value.text?
  | .error _ => none

end Fault
end Realms.Service
