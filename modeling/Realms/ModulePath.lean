/-!
Module paths: names of modules relative to the root of a project. A path made from a text is in normal
form: segments between single slashes, none of them empty, `.` or `..`.
-/
namespace Realms

structure ModulePath where
  text : String
deriving DecidableEq, Repr, Inhabited

inductive PathFault where
  /-- More `..` than segments in front of them. -/
  | escapes
  | namesNothing
deriving DecidableEq, Repr

namespace ModulePath

def isSeparator (c : Char) : Bool := c == '/' || c == '\\'

/-- The segments between separators, at least one. -/
def splitSegments (cs : List Char) : List (List Char) := cs.splitOnP isSeparator

/-- One segment after those kept so far, the last of them first. -/
def addSegment (kept : List (List Char)) (segment : List Char) :
    Except PathFault (List (List Char)) :=
  if segment == [] || segment == ['.'] then .ok kept
  else if segment == ['.', '.'] then
    match kept with
    | [] => .error .escapes
    | _ :: rest => .ok rest
  else .ok (segment :: kept)

def addSegments : List (List Char) → List (List Char) → Except PathFault (List (List Char))
  | kept, [] => .ok kept
  | kept, segment :: rest => do addSegments (← addSegment kept segment) rest

def joinSegments (segments : List (List Char)) : List Char := ['/'].intercalate segments

def normalize (raw : String) : Except PathFault ModulePath := do
  match ← addSegments [] (splitSegments raw.toList) with
  | [] => .error .namesNothing
  | kept => .ok ⟨String.ofList (joinSegments kept.reverse)⟩

def afterLastSlash (cs : List Char) : List Char :=
  (cs.reverse.takeWhile (· != '/')).reverse

def beforeLastSlash (cs : List Char) : List Char :=
  ((cs.reverse.dropWhile (· != '/')).drop 1).reverse

/-- The part in front of the last slash; empty for a module at the root. -/
def folder (path : ModulePath) : String := String.ofList (beforeLastSlash path.text.toList)

def fileName (path : ModulePath) : String := String.ofList (afterLastSlash path.text.toList)

/-- What a specifier means next to a module, before it is put into normal form. One that starts with a
slash is taken from the root. -/
def joinedText (importer : ModulePath) (specifier : String) : String :=
  match specifier.toList with
  | '/' :: rest => String.ofList rest
  | _ =>
    if importer.folder == "" then specifier else importer.folder ++ "/" ++ specifier

def hasEnding (path : ModulePath) (ending : String) : Bool := path.text.endsWith ending

/-- Types may be written in modules with one of these endings. -/
def allowsTypes (path : ModulePath) : Bool :=
  [".ts", ".tsx", ".mts", ".cts"].any path.hasEnding

def le (a b : ModulePath) : Bool := a.text ≤ b.text

end ModulePath

/-- Sets of module paths, sorted. -/
abbrev PathSet := List ModulePath

end Realms
