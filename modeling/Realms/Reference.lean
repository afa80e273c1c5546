import Realms.BuildError
import Realms.Realm
import Realms.Text.Blank

/-!
References: how a module of one realm names an export of another one. An id is the path of the module, a
hash sign and the name of the export; the last hash sign of an id is where it is taken apart.
-/
namespace Realms

/-- An export that can be reached from another realm. -/
structure Reference where
  id : String
  realm : Realm
  exportName : String
  modulePath : ModulePath
deriving DecidableEq, Repr, Inhabited

namespace Reference

def idOf (path : ModulePath) (name : String) : String := path.text ++ "#" ++ name

def ofExport (path : ModulePath) (name : String) (realm : Realm) : Reference :=
  ⟨idOf path name, realm, name, path⟩

def clientMark : String := "realm.client.reference"

def serverMark : String := "realm.server.reference"

def mark (r : Reference) : String :=
  match r.realm with
  | .client => clientMark
  | _ => serverMark

def isNameStart (c : Char) : Bool := c.isAlpha || c == '_' || c == '$'

def isNamePart (c : Char) : Bool := c.isAlphanum || c == '_' || c == '$'

def isPlainName : List Char → Bool
  | c :: rest => isNameStart c && rest.all isNamePart
  | [] => false

/-- Neither empty nor with a hash sign or white space in it. -/
def isPlainPath (cs : List Char) : Bool := !cs.isEmpty && cs.all fun c => c != '#' && !Text.isBlank c

def cutAtHash (cs : List Char) : Option (List Char × List Char) :=
  match cs.dropWhile (· != '#') with
  | _ :: name => some (cs.takeWhile (· != '#'), name)
  | [] => none

def isWellFormed (id : String) : Bool :=
  match cutAtHash id.toList with
  | some (path, name) => isPlainPath path && isPlainName name
  | none => false

def cutAtLastHash (cs : List Char) : Option (List Char × List Char) :=
  (cutAtHash cs.reverse).map fun (name, path) => (path.reverse, name.reverse)

/-- The path and the name in an id, if it has the form of one. -/
def splitId (id : String) : Option (String × String) :=
  if isWellFormed id then
    (cutAtLastHash id.toList).map fun (path, name) => (String.ofList path, String.ofList name)
  else none

/-- Whether two references mean the same export. -/
def sameExport (a b : Reference) : Bool :=
  a.modulePath == b.modulePath && a.exportName == b.exportName && a.realm == b.realm

def party (r : Reference) : String := r.modulePath.text ++ " (" ++ r.realm.title ++ ")"

def conflict (first second : Reference) : BuildError where
  cause := .duplicateId second.id
  file := second.modulePath.text
  location := .none
  context := some ("first: " ++ first.party ++ ", second: " ++ second.party)

/-- Checks that no id stands for two exports. `seen` holds the first reference of each id so far. -/
def checkUniqueAfter (seen : List Reference) : List Reference → Except BuildError Unit
  | [] => .ok ()
  | r :: rest =>
    match seen.find? (·.id == r.id) with
    | some first => if sameExport first r then checkUniqueAfter seen rest else .error (conflict first r)
    | none => checkUniqueAfter (seen ++ [r]) rest

def checkUnique (references : List Reference) : Except BuildError Unit := checkUniqueAfter [] references

end Reference
end Realms
