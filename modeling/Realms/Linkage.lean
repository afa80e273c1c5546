import Realms.Realm

/-!
The rule that links modules: what an import becomes, by the graph that holds the importing module and
the realm of the imported one.
-/
namespace Realms

inductive GraphKind where
  | server
  | client
  | serverFunction
deriving DecidableEq, Repr, Inhabited

namespace GraphKind

def name : GraphKind → String
  | .server => "server"
  | .client => "client"
  | .serverFunction => "serverFunction"

def title : GraphKind → String
  | .server => "Server"
  | .client => "Client"
  | .serverFunction => "ServerFunction"

def all : List GraphKind := [.server, .client, .serverFunction]

def ofName? (name : String) : Option GraphKind := all.find? (·.name == name)

/-- The graph in which a module of a realm is an entry when it is listed as one. -/
def ofRealm : Realm → GraphKind
  | .client => .client
  | .serverFunction => .serverFunction
  | .server | .shared => .server

end GraphKind

inductive Linkage where
  /-- Built into the importing graph. -/
  | inline
  /-- Left as an import of a module that is built apart. -/
  | external
  /-- The name of a package, left as it is. -/
  | package
deriving DecidableEq, Repr, Inhabited

namespace Linkage

def name : Linkage → String
  | .inline => "inline"
  | .external => "external"
  | .package => "package"

def title : Linkage → String
  | .inline => "Inline"
  | .external => "External"
  | .package => "Package"

def all : List Linkage := [.inline, .external, .package]

def ofName? (name : String) : Option Linkage := all.find? (·.name == name)

end Linkage

inductive Crossing where
  | none
  | intoClient
  | intoServerFunction
deriving DecidableEq, Repr, Inhabited

namespace Crossing

def name : Crossing → String
  | .none => "none"
  | .intoClient => "intoClient"
  | .intoServerFunction => "intoServerFunction"

def all : List Crossing := [.none, .intoClient, .intoServerFunction]

def ofName? (name : String) : Option Crossing := all.find? (·.name == name)

end Crossing

/-- What an import becomes, and the graph that must take the imported module as an entry. -/
structure Link where
  linkage : Linkage
  crossing : Crossing
  entryFor : Option GraphKind
deriving DecidableEq, Repr, Inhabited

def link : GraphKind → Realm → Link
  | _, .shared => ⟨.external, .none, some .server⟩
  | .client, .serverFunction => ⟨.external, .intoServerFunction, some .serverFunction⟩
  | .client, _ => ⟨.inline, .none, none⟩
  | _, .client => ⟨.external, .intoClient, some .client⟩
  | _, .serverFunction => ⟨.external, .none, some .serverFunction⟩
  | _, .server => ⟨.inline, .none, none⟩

end Realms
