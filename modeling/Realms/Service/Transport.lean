import Realms.Page.Stream
import Realms.Service.App

/-!
The client's side of the service: sending requests, and reading the page out of an answer.
-/
namespace Realms.Service

open Realms.Json

/-- An answer as it arrives: its body comes in pieces and may break off. -/
structure Received where
  status : Nat
  contentType : Option String
  chunks : List (List UInt8)
  broken : Bool
deriving Inhabited

inductive TransportError where
  /-- There was no answer, or it broke off. -/
  | request
  | server (status : Nat) (reason : String)
  | contentType (found : String)
  | page (e : PageError)
deriving DecidableEq, Repr, Inhabited

namespace TransportError

def message : TransportError → String
  | .request => "Request failed"
  | .server status reason => "Server error " ++ toString status ++ ": " ++ reason
  | .contentType found => "Unexpected content type \x60" ++ found ++ "\x60"
  | .page e => e.message

end TransportError

namespace Received

def whole (response : Response) : Received :=
  ⟨response.status, response.contentType, [Text.bytesOf response.body], false⟩

def isSuccess (received : Received) : Bool := 200 ≤ received.status && received.status < 300

/-- What an answer says about a failure: the message in its body, or all of the body. -/
def reason (received : Received) : String :=
  let body := if received.broken then "" else Text.decodeLossy received.chunks.flatten
  (Fault.message? (Text.bytesOf body)).getD body

/-- Takes in the pieces of a page; one that breaks off has no end. -/
def readChunks (broken : Bool) (page : ReceivedPage) (stream : RowStream) :
    List (List UInt8) → Except TransportError ReceivedPage
  | [] =>
    if broken then .error .request
    else
      match stream.finish.result with
      | .ok (some row) => .ok (page.apply row)
      | .ok none => .ok page
      | .error e => .error (.page (.row e))
  | chunk :: rest =>
    let step := stream.push chunk
    match step.result with
    | .ok rows => readChunks broken (page.applyAll rows) step.stream rest
    | .error e => .error (.page (.row e))

def page (received : Received) : Except TransportError ReceivedPage :=
  if !received.isSuccess then .error (.server received.status received.reason)
  else
    let contentType := received.contentType.getD ""
    if !pageType.toList.isPrefixOf contentType.toList then .error (.contentType contentType)
    else readChunks received.broken .empty .empty received.chunks

end Received

/-- What carries requests to a service; there may be no connection. -/
abbrev Network := Request → Option Received

def Network.down : Network := fun _ => none

structure Transport where
  url : String
deriving DecidableEq, Repr, Inhabited

namespace Transport

/-- The url of an endpoint. Slashes at the end of the base are left out. -/
def ofBase (base endpoint : String) : Transport :=
  ⟨String.ofList (base.toList.reverse.dropWhile (· == '/')).reverse ++ endpoint⟩

def callRequest (path : String) (call : Call) : Request :=
  ⟨"POST", path, some "application/json", Text.bytesOf call.value.compact⟩

def fetchRequest (path : String) : Request := ⟨"GET", path, none, []⟩

def send (network : Network) (request : Request) : Except TransportError Received :=
  match network request with
  | some received => .ok received
  | none => .error .request

def call (network : Network) (path : String) (found : Call) : Except TransportError ReceivedPage := do
  (← send network (callRequest path found)).page

def fetch (network : Network) (path : String) : Except TransportError ReceivedPage := do
  (← send network (fetchRequest path)).page

end Transport
end Realms.Service
