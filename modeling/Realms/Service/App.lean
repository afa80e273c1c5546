import Realms.Page.Lines
import Realms.Page.Rows
import Realms.Registry
import Realms.Service.Call
import Realms.Service.MediaType

/-!
The service: one endpoint that sends the page and runs server functions. A call that succeeds is
answered by the page as it is then. The service itself never touches the store: only a function does, and
the making of a page.
-/
namespace Realms.Service

open Realms.Json

structure Request where
  method : String
  path : String
  contentType : Option String
  body : List UInt8
deriving Inhabited

structure Response where
  status : Nat
  contentType : Option String
  cacheControl : Option String
  body : String
deriving DecidableEq, Repr, Inhabited

def pageType : String := "text/x-component"

namespace Response

def bare (status : Nat) : Response := ⟨status, none, none, ""⟩

def failure (message : String) : Response :=
  ⟨500, some "application/json", none, (Fault.value message).compact⟩

def page (root : Node) : Response :=
  ⟨200, some pageType, some "no-cache", String.join (root.rows.map fun row => row.line ++ "\n")⟩

end Response

/-- An application: where it is served, its functions and its page. A page is made of the store, which
nothing keeps from being written on the way. -/
structure App where
  endpoint : String
  registry : Registry
  render : Store → Store × Except PageError Node

namespace App

/-- What an outcome tells the caller. The value of a function is not sent. -/
def failureOf : Outcome → Option String
  | .value _ => none
  | .error e => some e.message
  | .broken detail => some ("Server function panicked: " ++ detail.getD "unknown cause")

def pageResponse (app : App) (store : Store) : Store × Response :=
  let (store, made) := app.render store
  match made with
  | .ok root => (store, .page root)
  | .error e => (store, .failure e.message)

def callResponse (app : App) (store : Store) (call : Call) : Store × Response :=
  match app.registry.resolve call.id with
  | .error e => (store, .failure e.message)
  | .ok function =>
    let (store, outcome) := function.run call.arguments store
    match failureOf outcome with
    | some message => (store, .failure message)
    | none => app.pageResponse store

def post (app : App) (store : Store) (request : Request) : Store × Response :=
  if !acceptsBody request.contentType then (store, .bare 415)
  else
    match Call.ofBody request.body with
    | .ok call => app.callResponse store call
    | .error .unexpected => (store, .bare 422)
    | .error _ => (store, .bare 400)

/-- A path without its query. -/
def barePath (path : String) : String :=
  String.ofList (path.toList.takeWhile fun c => c != '?' && c != '#')

def handle (app : App) (store : Store) (request : Request) : Store × Response :=
  if barePath request.path != app.endpoint then (store, .bare 404)
  else
    match request.method with
    | "GET" => app.pageResponse store
    | "HEAD" =>
      let (store, response) := app.pageResponse store
      (store, { response with body := "" })
    | "POST" => app.post store request
    | _ => (store, .bare 405)

end App
end Realms.Service
