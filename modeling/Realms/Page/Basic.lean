import Realms.Json.Read

/-!
Pages: the tree that the server renders, and the rows in which it is sent. A row of its own introduces
each component of the client, and the tree points at it by the number of that row.
-/
namespace Realms

open Realms.Json

abbrev Props := List (String × Value)

inductive Node where
  | text (text : String)
  | element (tag : String) (props : Props) (children : List Node)
  /-- A component of the client, by the id of its reference. -/
  | clientReference (id : String) (props : Props)
  /-- A component of the client, by the number of its row. -/
  | lazy (row : Nat) (props : Props)
deriving Inhabited

inductive Row where
  | reference (row : Nat) (id : String)
  | tree (row : Nat) (tree : Node)
deriving Inhabited

inductive PageError where
  | failed (reason : String)
  | row (failure : Failure)
  /-- The tree points at a row that was not sent. -/
  | unknownRow (row : Nat)
deriving DecidableEq, Repr, Inhabited

namespace PageError

def message : PageError → String
  | .failed reason => "Render failed: " ++ reason
  | .row _ => "Malformed tree row"
  | .unknownRow number => "Tree references unknown row " ++ toString number

end PageError
end Realms
