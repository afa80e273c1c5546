import Realms.Script.Source

/-!
Realms: where a module may run. The first text of a module names its realm, unless the configuration
declares the module shared.
-/
namespace Realms

/-- Which side runs a module. -/
inductive Realm where
  /-- The origin alone. -/
  | server
  /-- The program of the end user. -/
  | client
  /-- The origin, called from the client. -/
  | serverFunction
  /-- Kept out of every build, so that one instance serves all of them. -/
  | shared
deriving DecidableEq, Repr, Inhabited

namespace Realm

def name : Realm → String
  | .server => "server"
  | .client => "client"
  | .serverFunction => "serverFunction"
  | .shared => "shared"

def title : Realm → String
  | .server => "Server"
  | .client => "Client"
  | .serverFunction => "ServerFunction"
  | .shared => "Shared"

def all : List Realm := [.server, .client, .serverFunction, .shared]

def ofName? (name : String) : Option Realm := all.find? (·.name == name)

/-- Modules of these realms are reached from the other side by references. -/
def isBoundary : Realm → Bool
  | .client | .serverFunction => true
  | .server | .shared => false

/-- Only the first directive counts. -/
def ofDirectives : List String → Realm
  | first :: _ =>
    if first == "use client" then .client
    else if first == "use server" then .serverFunction
    else .server
  | [] => .server

/-- The realm that a source names, read without types. A source that cannot be read to its end names
none, so it counts as a plain one. -/
def classify (source : String) : Realm :=
  match Script.readSource false source with
  | some found => ofDirectives found.script.directives
  | none => .server

end Realm
end Realms
