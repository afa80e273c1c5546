import Realms.ModulePath

/-!
Paths of files, as written and cleaned. Cleaning works on the text alone: no link is followed.
-/
namespace Realms

/-- A path without `.`, `..` and empty parts. -/
structure FilePath where
  absolute : Bool
  names : List String
deriving DecidableEq, Repr, Inhabited

namespace FilePath

def splitParts (text : String) : List String := (text.toList.splitOn '/').map String.ofList

def isAbsolute (text : String) : Bool := text.toList.head? == some '/'

/-- One more part of a path whose last names come first. `..` takes away the last name, if there is
one. -/
def addPart (names : List String) (part : String) : List String :=
  if part == "" || part == "." then names
  else if part == ".." then names.drop 1
  else part :: names

def clean (text : String) : FilePath :=
  ⟨isAbsolute text, ((splitParts text).foldl addPart []).reverse⟩

def text (path : FilePath) : String :=
  (if path.absolute then "/" else "") ++ "/".intercalate path.names

def dropNames : List String → List String → Option (List String)
  | [], names => some names
  | a :: front, b :: names => if a == b then dropNames front names else none
  | _ :: _, [] => none

/-- The part of a path below another one. The empty path is above every path. -/
def below? (root path : FilePath) : Option FilePath :=
  if !root.absolute && root.names.isEmpty then some path
  else if root.absolute == path.absolute then
    (dropNames root.names path.names).map fun names => ⟨false, names⟩
  else none

def startsWith (path root : FilePath) : Bool := (below? root path).isSome

/-- A written path next to another one; an absolute one stands for itself. -/
def join (base text : String) : String :=
  if isAbsolute text then text
  else if base == "" || base.toList.getLast? == some '/' then base ++ text
  else base ++ "/" ++ text

def ofModule (root : String) (path : ModulePath) : String :=
  (splitParts path.text).foldl join root

/-- A written path without the slashes at its end; a slash alone stays. -/
def withoutSlashes (text : String) : String :=
  match text.toList.reverse.dropWhile (· == '/') with
  | [] => if text == "" then "" else "/"
  | cs => String.ofList cs.reverse

/-- Takes slashes and single dots off the end of a reversed written path; a slash alone stays. -/
def trimReversed : Nat → List Char → List Char
  | 0, cs => cs
  | rounds + 1, cs =>
    match cs with
    | ['/'] => ['/']
    | '/' :: rest => trimReversed rounds rest
    | ['.', '/'] => ['/']
    | '.' :: '/' :: rest => trimReversed rounds rest
    | _ => cs

def trimmed (text : String) : List Char :=
  let cs := text.toList.reverse
  (trimReversed cs.length cs).reverse

/-- The written path of what holds a path; none for the root and for the empty path. -/
def parent? (text : String) : Option String :=
  let cs := (trimmed text).reverse
  if cs.isEmpty || cs == ['/'] then none
  else
    let front := cs.dropWhile (· != '/')
    some (String.ofList (trimReversed front.length front).reverse)

/-- The last name of a written path, unless it ends in a place that has no name of its own. -/
def lastName? (text : String) : Option (List Char) :=
  let name := ((trimmed text).reverse.takeWhile (· != '/')).reverse
  if name.isEmpty || name == ['.'] || name == ['.', '.'] then none else some name

/-- A name taken apart at its last dot, unless that is its first character. -/
def cutAtDot (name : List Char) : List Char × Option (List Char) :=
  match name.reverse.dropWhile (· != '.') with
  | _ :: stem =>
    if stem.isEmpty then (name, none)
    else (stem.reverse, some (name.reverse.takeWhile (· != '.')).reverse)
  | [] => (name, none)

def ending? (name : String) : Option String :=
  if name == ".." then none else (cutAtDot name.toList).2.map String.ofList

/-- A written path with another ending of its last name. A path without a last name stays. -/
def withEnding (text ending : String) : String :=
  match lastName? text with
  | none => text
  | some name =>
    let front := (trimmed text).take ((trimmed text).length - name.length)
    String.ofList (front ++ (cutAtDot name).1 ++ '.' :: ending.toList)

end FilePath
end Realms
