import Realms.Manifest
import Realms.Sorted
import Realms.Store
import Realms.Text.Shown

/-!
The registry of server functions: what runs under which id. It is filled once, and an id keeps its first
function.
-/
namespace Realms

open Realms.Json

inductive ActionError where
  | invalidArguments (reason : String)
  | failed (reason : String)
deriving DecidableEq, Repr, Inhabited

namespace ActionError

def message : ActionError → String
  | .invalidArguments reason => "Invalid arguments: " ++ reason
  | .failed reason => reason

end ActionError

inductive Outcome where
  | value (v : Value)
  | error (e : ActionError)
  | broken (detail : Option String)
deriving Inhabited

/-- A server function. It takes arguments by position and works on the store; `identity` tells functions
apart. -/
structure ServerFunction where
  identity : Nat
  run : List Value → Store → Store × Outcome

inductive RegistryError where
  | notFound (id : String)
  | duplicateId (id : String)
  | unregistered (ids : List String)
deriving DecidableEq, Repr, Inhabited

namespace RegistryError

def message : RegistryError → String
  | .notFound id => "Server function not found: " ++ id
  | .duplicateId id => "A different server function is already registered as " ++ id
  | .unregistered ids =>
    "Server functions listed in the manifest are not registered: " ++ ", ".intercalate ids

end RegistryError

/-- Functions by id, sorted by id. -/
structure Registry where
  functions : List (String × ServerFunction)

namespace Registry

def empty : Registry := ⟨[]⟩

def find? (registry : Registry) (id : String) : Option ServerFunction :=
  (registry.functions.find? (·.1 == id)).map Prod.snd

def contains (registry : Registry) (id : String) : Bool := (registry.find? id).isSome

def size (registry : Registry) : Nat := registry.functions.length

def ids (registry : Registry) : List String := registry.functions.map Prod.fst

def shown (registry : Registry) : String :=
  "FunctionRegistry \x7b ids: [" ++ ", ".intercalate (registry.ids.map Text.shown) ++ "] \x7d"

/-- Registers a function under an id. Doing so again changes nothing; another function is refused. -/
def register (registry : Registry) (id : String) (function : ServerFunction) :
    Except RegistryError Registry :=
  match registry.find? id with
  | some first =>
    if first.identity == function.identity then .ok registry else .error (.duplicateId id)
  | none => .ok ⟨insertMember id function registry.functions⟩

def resolve (registry : Registry) (id : String) : Except RegistryError ServerFunction :=
  match registry.find? id with
  | some function => .ok function
  | none => .error (.notFound id)

def verify (registry : Registry) (manifest : Manifest) : Except RegistryError Unit :=
  let missing := manifest.serverFunctionIds.filter fun id => !registry.contains id
  if missing.isEmpty then .ok () else .error (.unregistered (Sorted.ofList id missing))

end Registry
end Realms
