import Realms.Script.Grammar.Patterns

/-!
Functions: declared, as values, as members and as arrows. What stands in a body may give results
back; whether it waits or yields depends on the function alone.
-/
namespace Realms.Script.Grammar

open Reading

def inFunction (isAsync isGenerator : Bool) (s : Setting) : Setting :=
  { s with inOperator := true, awaits := isAsync, yields := isGenerator, decorator := false }

def statements (p : Inner) : Reading (List Stmt) :=
  repeatWhile (do return !(← isMark "\x7d") && !(← isEnding)) (p.read (.statement false)) p.rounds

def block (p : Inner) : Reading (List Stmt) := do
  takeMark "\x7b"
  let body ← statements p
  takeMark "\x7d"
  return body

def functionBody (p : Inner) : Reading (List Stmt) :=
  under (fun s => { s with returns := true }) (block p)

/-- What stands behind the name of a function. Where types may be written, a function may be
described without a body. -/
def functionTail (p : Inner) (isAsync isGenerator ofConstructor : Bool) (name : Option String) :
    Reading Function :=
  under (inFunction isAsync isGenerator) do
    typeParameters p
    let parameters ← parameters p ofConstructor
    let _ ← resultAnnotation p
    if ← isMark "\x7b" then
      flawIf (← setting).ambient
      let body ← functionBody p
      return .mk isAsync isGenerator name parameters true body
    else
      need (← typed)
      return .mk isAsync isGenerator name parameters false []

def isAsyncFunctionAhead : Reading Bool := ahead do
  if ← isWord "async" then
    advance
    return (← isWord "function") && !(← newLine)
  else return false

/-- A function as a value. Its own name is read as within it. -/
def functionValue (p : Inner) : Reading Expr := do
  let isAsync ← eatWord "async"
  takeWord "function"
  let isGenerator ← eatMark "*"
  let name ← under (inFunction isAsync isGenerator) optionalBindingName
  return .function (← functionTail p isAsync isGenerator false name)

/-- A function as a declaration. Only one that is exported by default may have no name. -/
def functionDeclaration (p : Inner) (needsName : Bool) : Reading Function := do
  let isAsync ← eatWord "async"
  takeWord "function"
  let isGenerator ← eatMark "*"
  let name ← optionalBindingName
  flawIf (needsName && name.isNone)
  let found ← functionTail p isAsync isGenerator false name
  if !found.hasBody then endStatement
  return found

/-- Whether parameters of an arrow function may start here. Without this a value between
parentheses would always be read twice. -/
def mayStartParameters : Reading Bool := holdsAhead do
  if ← isMark "<" then
    advance
    let _ ← eatWord "const"
    if !(← isBindingWord) then return false
    advance
    if ← eatWord "extends" then return !(← isOneOf ["=", ">", "/"])
    isOneOf ["=", ","]
  else
    takeMark "("
    if ← isOneOf [")", "[", "\x7b", "...", "@"] then return true
    if (← isBindingWord) || (← isWord "this") then
      let leading ← leadsParameter
      advance
      return leading || (← isOneOf [":", "?", ",", "=", ")"])
    else return false

/-- Parameters of an arrow function and the arrow behind them; says whether a type stands between
the two. The arrow must be on the line where the parameters end. -/
def arrowHead (p : Inner) (isAsync : Bool) : Reading Bool :=
  under (fun s => { s with inOperator := true, awaits := isAsync || s.awaits, decorator := false }) do
    typeParameters p
    let _ ← parameters p false
    let hasType ← resultAnnotation p
    need (← isMark "=>")
    flawIf (← newLine)
    advance
    return hasType

def arrowBody (p : Inner) (isAsync resultType : Bool) : Reading Unit :=
  under (fun s => { s with awaits := isAsync, yields := false }) do
    if ← isMark "\x7b" then
      let _ ← under (fun s => { s with inOperator := true, decorator := false }) (functionBody p)
    else
      let _ ← p.read (.assignment resultType)

/-- An arrow function with parentheses, if one is in front. Between the two colons of a choice, a type
of the result is only one if another colon follows the function. -/
def arrowFunction (p : Inner) (resultType : Bool) : Reading (Option Expr) := do
  let isAsync ← holdsAhead (do
    takeWord "async"
    return !(← newLine) && (← isOneOf ["(", "<"]))
  let starts ← holdsAhead (do
    if isAsync then advance
    mayStartParameters)
  if !starts then return none
  attempt do
    if isAsync then takeWord "async"
    let hasType ← arrowHead p isAsync
    arrowBody p isAsync resultType
    if hasType && !resultType then need (← isMark ":")
    return .other

def asyncNameArrow (p : Inner) (resultType : Bool) : Reading (Option Expr) := do
  let starts ← holdsAhead (do
    takeWord "async"
    if (← newLine) || !(← isBindingWord) then return false
    advance
    isMark "=>")
  if !starts then return none
  takeWord "async"
  let _ ← under (fun s => { s with awaits := true }) bindingName
  flawIf (← newLine)
  takeMark "=>"
  arrowBody p true resultType
  return some .other

end Realms.Script.Grammar
