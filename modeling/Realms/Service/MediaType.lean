/-!
Media types, as they stand in the header of a request.
-/
namespace Realms.Service

/-- A type and a subtype, without parameters and in lower case. -/
structure MediaType where
  type : List Char
  subtype : List Char
deriving DecidableEq, Repr, Inhabited

namespace MediaType

def isToken (c : Char) : Bool := c.isAlphanum || "!#$%&'*+-.^_\x60|~".toList.contains c

def isName (cs : List Char) : Bool := !cs.isEmpty && cs.all isToken

def skipQuoted : Bool → List Char → Option (List Char)
  | _, [] => none
  | true, _ :: rest => skipQuoted false rest
  | false, c :: rest =>
    if c == '"' then some rest else skipQuoted (c == '\\') rest

/-- What follows the value of a parameter. Only the last one may be empty. -/
def skipValue (cs : List Char) : Option (List Char) :=
  match cs with
  | [] => some []
  | '"' :: rest => skipQuoted false rest
  | _ =>
    let rest := cs.dropWhile isToken
    if (cs.takeWhile isToken).isEmpty then none else some rest

/-- Whether what follows a type is a list of parameters, each behind a semicolon. -/
def areParameters : Nat → List Char → Bool
  | _, [] => true
  | 0, _ => false
  | rounds + 1, ';' :: rest =>
    let rest := rest.dropWhile (· == ' ')
    if rest.isEmpty then true
    else
      match rest.dropWhile isToken with
      | '=' :: value =>
        !(rest.takeWhile isToken).isEmpty && (skipValue value).any (areParameters rounds)
      | _ => false
  | _ + 1, _ => false

def ofHeader? (header : String) : Option MediaType :=
  let cs := header.toList
  let type := cs.takeWhile isToken
  match cs.dropWhile isToken with
  | '/' :: rest =>
    let subtype := rest.takeWhile isToken
    if isName type && isName subtype && areParameters rest.length (rest.dropWhile isToken) then
      some ⟨type.map Char.toLower, subtype.map Char.toLower⟩
    else none
  | _ => none

def suffix? (found : MediaType) : Option (List Char) :=
  if found.subtype.drop 1 |>.contains '+' then
    some (found.subtype.reverse.takeWhile (· != '+')).reverse
  else none

/-- Whether a media type is that of the data format, or built on it. -/
def isJson (found : MediaType) : Bool :=
  found.type == "application".toList &&
    (found.subtype == "json".toList || found.suffix? == some "json".toList)

end MediaType

def acceptsBody : Option String → Bool
  | some header => (MediaType.ofHeader? header).any MediaType.isJson
  | none => false

end Realms.Service
