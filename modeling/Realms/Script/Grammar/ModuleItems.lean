import Realms.Script.Grammar.Declarations
import Realms.Script.Names

/-!
Imports and exports.
-/
namespace Realms.Script.Grammar

open Reading

/-- A name between the braces of an import or export: a word, or a text in which each character is
whole. -/
structure OuterName where
  name : String
  isText : Bool
  isBinding : Bool

def isOuterNameAhead : Reading Bool := do
  match ← lexeme with
  | .word _ _ | .text _ _ => return true
  | _ => return false

def outerName : Reading OuterName := do
  match ← lexeme with
  | .word name _ =>
    skipName
    return ⟨name, false, !reservedWords.contains name⟩
  | .text value wellFormed =>
    flawIf !wellFormed
    advance
    return ⟨value, true, false⟩
  | _ => fail

structure NamePair where
  typeOnly : Bool
  first : OuterName
  second : Option OuterName

def asName : OuterName := ⟨"as", false, true⟩

def renamed (typeOnly : Bool) (first : OuterName) : Reading NamePair := do
  if ← eatWord "as" then return ⟨typeOnly, first, some (← outerName)⟩
  else return ⟨typeOnly, first, none⟩

/-- A pair that starts with the word `type`, which may mark the pair or be its first name. -/
def typePair (first : OuterName) : Reading NamePair := do
  if ← eatWord "as" then
    if ← eatWord "as" then
      if ← isOuterNameAhead then return ⟨true, asName, some (← outerName)⟩
      else return ⟨false, first, some asName⟩
    else if ← isOuterNameAhead then return ⟨false, first, some (← outerName)⟩
    else return ⟨true, asName, none⟩
  else if ← isOuterNameAhead then renamed true (← outerName)
  else return ⟨false, first, none⟩

def namePair : Reading NamePair := do
  let first ← outerName
  if (← typed) && !first.isText && first.name == "type" then typePair first
  else renamed false first

def importAttributes (p : Inner) : Reading Unit := do
  if (← isWord "with") || ((← isWord "assert") && !(← newLine)) then
    advance
    takeMark "\x7b"
    let (keys, _) ← separated "\x7d" (do
      let key ← match ← lexeme with
        | .text _ _ => textLiteral
        | _ => anyWord
      takeMark ":"
      let _ ← textLiteral
      return key) p.rounds
    takeMark "\x7d"
    flawIf (keys.eraseDups.length != keys.length)

/-- One name between the braces of an import. What it is bound to is a plain name. -/
def importName (typeOnly : Bool) : Reading ImportName := do
  let pair ← namePair
  flawIf (typeOnly && pair.typeOnly)
  let bound := pair.second.getD pair.first
  need (bound.isBinding)
  checkName bound.name
  return ⟨pair.first.name, bound.name, pair.typeOnly⟩

def importClause (p : Inner) (typeOnly : Bool) (defaultName : Option String) :
    Reading (Option String × Option (List ImportName)) := do
  let more ← if defaultName.isSome then eatMark "," else pure true
  if !more then return (none, none)
  if ← eatMark "*" then
    takeWord "as"
    return (some (← bindingName), none)
  else
    takeMark "\x7b"
    let (names, _) ← separated "\x7d" (importName typeOnly) p.rounds
    takeMark "\x7d"
    return (none, some names)

def importedModule (p : Inner) : Reading String := do
  let specifier ← textLiteral
  importAttributes p
  endStatement
  return specifier

/-- Whether `type` in front of an import says that only types are meant: it may also be the name of
what is imported. -/
def isTypeImport : Reading Bool := do
  let isFrom ← isWord "from"
  let fromBehind ← holdsAhead (do
    advance
    return (← isWord "from") || (← isMark "="))
  return (!isFrom || fromBehind) && ((← isBindingWord) || (← isOneOf ["*", "\x7b"]))

def isSourceImport : Reading Bool := do
  if ← isWord "from" then
    holdsAhead (do
      advance
      isWord "from")
  else isBindingWord

def importTail (p : Inner) (start : Nat) : Reading Stmt := do
  match ← lexeme with
  | .text _ _ =>
    return .importFrom ⟨start, ← importedModule p, false, none, none, none⟩
  | _ =>
    let word ← optionalBindingName
    let typeOnly ← if (← typed) && word == some "type" then isTypeImport else pure false
    let isSource ← if word == some "source" then isSourceImport else pure false
    let isDeferred ← if word == some "defer" then isMark "*" else pure false
    let defaultName ← if typeOnly || isSource || isDeferred then optionalBindingName else pure word
    match defaultName with
    | some name =>
      if (← isMark ",") || (← isWord "from") then imported typeOnly defaultName
      else
        need (← typed)
        aliasTail p
        return .declared (if typeOnly then .type name else .aliasOf name)
    | none => imported typeOnly none
where
  imported (typeOnly : Bool) (defaultName : Option String) : Reading Stmt := do
    let (wholeName, names) ← importClause p typeOnly defaultName
    takeWord "from"
    return .importFrom ⟨start, ← importedModule p, typeOnly, defaultName, wholeName, names⟩

def isReservedExport (name : String) : Bool := isKeyword name || strictWords.contains name

def exportName (typeOnly : Bool) : Reading ExportName := do
  let start ← place
  let pair ← namePair
  flawIf (typeOnly && pair.typeOnly)
  let exported := pair.second.getD pair.first
  noteExport exported.name
  return ⟨start, pair.first.name, exported.name, pair.typeOnly⟩

/-- Whether each name between the braces could be a local one. -/
def exportNames (p : Inner) (start : Nat) (typeOnly : Bool) : Reading Stmt := do
  takeMark "\x7b"
  let (names, _) ← separated "\x7d" (do
    let isText ← (do
      match ← lexeme with
      | .text _ _ => return true
      | _ => return false)
    return (isText, ← exportName typeOnly)) p.rounds
  takeMark "\x7d"
  let found := names.map Prod.snd
  if ← eatWord "from" then
    return .exportNames ⟨start, typeOnly, found, some (← importedModule p)⟩
  else
    flawIf (names.any fun (isText, name) => isText || isReservedExport name.inner)
    endStatement
    return .exportNames ⟨start, typeOnly, found, none⟩

def exportAll (p : Inner) (start : Nat) (typeOnly : Bool) : Reading Stmt := do
  takeMark "*"
  let exported ← if ← eatWord "as" then pure (some (← outerName).name) else pure none
  takeWord "from"
  match exported with
  | some name => noteExport name
  | none => pure ()
  return .exportAll ⟨start, typeOnly, exported, ← importedModule p⟩

/-- `export default …`. An interface and a function without a body are no values. -/
def exportDefault (p : Inner) (start : Nat) : Reading Stmt := do
  takeWord "default"
  noteExport "default"
  let types ← typed
  let decorated ← decorators p
  let isAbstract ← holdsAhead (do
    takeWord "abstract"
    return types && (← isWord "class") && !(← newLine))
  let isInterface ← holdsAhead (do
    takeWord "interface"
    return types && (← isBindingWord) && !(← newLine))
  if isAbstract then advance
  if (← isWord "class") || decorated then
    return .exportDefault start true (← classTail p)
  else if isInterface then
    return .exportDefault start false (← interfaceDeclaration p)
  else if (← isWord "function") || (← isAsyncFunctionAhead) then
    let value ← functionDeclaration p false
    return .exportDefault start value.hasBody value.name
  else
    let value ← p.expression
    endStatement
    return .exportValue start value

def exportDeclared (p : Inner) (start : Nat) : Reading Stmt := do
  let (ambient, found) ← wordedDeclaration p
  let _ ← found.valueNames.mapM noteExport
  return .exportDeclared start ambient found

def exportTyped (p : Inner) (start : Nat) : Reading (Option Stmt) := do
  if !(← typed) then return none
  if ← eatMark "=" then
    let _ ← p.sequence
    endStatement
    return some .other
  if ← holdsAhead (do takeWord "as"; isWord "namespace") then
    advance
    advance
    let _ ← bindingName
    endStatement
    return some .other
  if ← isWord "import" then
    advance
    match ← importTail p start with
    | .declared found => return some (.exportDeclared start false found)
    | _ => fail
  if ← holdsAhead (do takeWord "type"; isMark "\x7b") then
    advance
    return some (← exportNames p start true)
  if ← holdsAhead (do takeWord "type"; isMark "*") then
    advance
    return some (← exportAll p start true)
  return none

def exportStatement (p : Inner) (decorated : Bool) : Reading Stmt := do
  let start ← place
  takeWord "export"
  match ← exportTyped p start with
  | some found =>
    flawIf decorated
    return found
  | none =>
    if ← isMark "*" then exportAll p start false
    else if ← isMark "\x7b" then exportNames p start false
    else if ← isWord "default" then
      flawIf (decorated && (← holdsAhead (do advance; isMark "@")))
      exportDefault p start
    else
      let inner ← decorators p
      flawIf (decorated && inner)
      let isClass ← holdsAhead (do
        let _ ← repeatWhile leadsDeclaration advance p.rounds
        isWord "class")
      flawIf ((decorated || inner) && !isClass)
      exportDeclared p start

def importStatement (p : Inner) : Reading Stmt := do
  let start ← place
  takeWord "import"
  importTail p start

end Realms.Script.Grammar
