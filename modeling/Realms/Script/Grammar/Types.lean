import Realms.Script.Grammar.Parameters

/-!
Types. They say nothing about what a module does when it runs, so they are read and dropped.
-/
namespace Realms.Script.Grammar

open Reading

def dottedName (p : Inner) : Reading Unit := do
  let _ ← repeatWhile (eatMark ".") anyWord p.rounds
  return ()

/-- Arguments of a named type, on the line of its name. -/
def optionalTypeArguments (p : Inner) : Reading Unit := do
  if (← isOneOf ["<", "<<"]) && !(← newLine) then p.typeArguments

def builtInTypes : List String :=
  ["any", "unknown", "string", "number", "bigint", "symbol", "boolean", "undefined", "never", "object"]

/-- A type by its name. Any word may name one, and one of a built-in type that has a point behind it
is a name like any other. -/
def namedType (p : Inner) : Reading Unit := do
  let isBuiltIn ← holdsAhead (do
    let name ← anyWord
    return builtInTypes.contains name && !(← isMark "."))
  let _ ← anyWord
  if !isBuiltIn then
    dottedName p
    optionalTypeArguments p

/-- `import("…")` as a type, perhaps with attributes and with a member behind it. -/
def importType (p : Inner) : Reading Unit := do
  takeWord "import"
  takeMark "("
  p.type
  if ← eatMark "," then
    if !(← isMark ")") then
      let _ ← p.expression
      let _ ← eatMark ","
  takeMark ")"
  dottedName p
  optionalTypeArguments p

def typeOfValue (p : Inner) : Reading Unit := do
  takeWord "typeof"
  if ← isWord "import" then importType p
  else
    let _ ← anyWord
    let _ ← repeatWhile (eatMark ".") (do
      match ← lexeme with
      | .privateName _ => advance
      | _ => let _ ← anyWord) p.rounds
    optionalTypeArguments p

def templateType (p : Inner) : Reading Unit := do
  let rec pieces : Nat → Reading Unit
    | 0 => fail
    | rounds + 1 => do
      match ← lexeme with
      | .template true _ => advance
      | .template false _ =>
        advance
        p.type
        if ← isMark "\x7d" then
          retake Token.asTemplate
          pieces rounds
        else fail
      | _ => fail
  pieces p.rounds

def endTypeMember : Reading Unit := do
  if ← eatMark "," then return ()
  endStatement

def signature (p : Inner) : Reading Unit := do
  typeParameters p
  let _ ← parameters p false
  let _ ← resultAnnotation p

def indexSignature (p : Inner) : Reading Unit := do
  takeMark "["
  let _ ← bindingName
  takeMark ":"
  p.type
  takeMark "]"
  p.annotation

/-- A word in front of a member goes with it, unless it is the name of the member itself. -/
def leadsTypeMember (word : String) : Reading Bool := ahead do
  if ← isWord word then
    advance
    return !(← newLine) && (← isKeyAhead)
  else return false

def keyedTypeMember (p : Inner) : Reading Unit := do
  let _ ← key p
  let _ ← eatMark "?"
  if ← isOneOf ["(", "<"] then signature p else p.annotation

def typeMember (p : Inner) : Reading Unit := do
  if ← isOneOf ["(", "<"] then signature p
  else if ← holdsAhead (do takeWord "new"; isOneOf ["(", "<"]) then
    advance
    signature p
  else
    if ← leadsTypeMember "readonly" then advance
    if (← leadsTypeMember "get") || (← leadsTypeMember "set") then
      advance
      let _ ← key p
      signature p
    else
      match ← attempt (indexSignature p) with
      | some () => pure ()
      | none => keyedTypeMember p
  endTypeMember

def typeMembers (p : Inner) : Reading Unit := do
  takeMark "\x7b"
  let _ ← repeatWhile (do return !(← isMark "\x7d") && !(← isEnding)) (typeMember p) p.rounds
  takeMark "\x7d"

/-- A sign in front of a word or a mark that a mapped type adds or takes away. -/
def signed (m : Reading Bool) : Reading Unit := do
  if ← isOneOf ["+", "-"] then
    advance
    if ← m then return () else fail
  else
    let _ ← m

def isMappedAhead : Reading Bool := ahead do
  advance
  if ← isOneOf ["+", "-"] then
    advance
    isWord "readonly"
  else
    let _ ← eatWord "readonly"
    if !(← eatMark "[") then return false
    if !(← isAnyWord) then return false
    advance
    isWord "in"

def mappedType (p : Inner) : Reading Unit := do
  takeMark "\x7b"
  signed (eatWord "readonly")
  takeMark "["
  let _ ← anyWord
  takeWord "in"
  p.type
  if ← eatWord "as" then p.type
  takeMark "]"
  signed (eatMark "?")
  p.annotation
  endTypeMember
  takeMark "\x7d"

def tupleMember (p : Inner) : Reading Unit := do
  let spread ← eatMark "..."
  let isNamed ← holdsAhead (do
    let _ ← anyWord
    let _ ← eatMark "?"
    isMark ":")
  if isNamed then
    advance
    let _ ← eatMark "?"
    takeMark ":"
    p.type
  else
    p.type
    if !spread then
      let _ ← eatMark "?"

def functionType (p : Inner) : Reading Unit := do
  typeParameters p
  let _ ← parameters p false
  takeMark "=>"
  resultType p

def plainType (p : Inner) : Reading Unit := do
  match ← lexeme with
  | .text _ _ | .number | .bigNumber => advance
  | .template _ _ => templateType p
  | .mark "-" =>
    advance
    match ← lexeme with
    | .number | .bigNumber => advance
    | _ => fail
  | .mark "(" =>
    advance
    p.type
    takeMark ")"
  | .mark "[" =>
    advance
    let _ ← separated "]" (tupleMember p) p.rounds
    takeMark "]"
  | .mark "\x7b" =>
    if ← isMappedAhead then mappedType p else typeMembers p
  | .mark "?" | .mark "!" =>
    advance
    let _ ← attempt (p.read .typeOperand)
  | .word "this" _ =>
    advance
    if (← isWord "is") && !(← newLine) then
      advance
      p.type
  | .word "typeof" _ => typeOfValue p
  | .word "import" _ => importType p
  | .word "void" _ | .word "null" _ | .word "true" _ | .word "false" _ => advance
  | .word "asserts" _ =>
    let isAssertion ← ahead (do
      advance
      return !(← newLine) && ((← isBindingWord) || (← isWord "this")))
    if isAssertion then
      advance
      advance
      if (← isWord "is") && !(← newLine) then
        advance
        p.type
    else namedType p
  | _ => namedType p

def isTypeAhead (p : Inner) : Reading Bool := fun s r =>
  match plainType p s r with
  | some _ => some (true, r)
  | none => some (false, r)

/-- What stands behind a type on its line: brackets, or a mark of documentation types. A question
mark before another type asks for a choice between two types instead. -/
def typeTail (p : Inner) (_ : Unit) : Reading (Option Unit) := do
  if ← newLine then return none
  match ← lexeme with
  | .mark "[" =>
    advance
    if !(← isMark "]") then p.type
    takeMark "]"
    return some ()
  | .mark "!" =>
    advance
    return some ()
  | .mark "?" =>
    let goesOn ← ahead (do
      advance
      isTypeAhead p)
    if goesOn then return none
    advance
    return some ()
  | _ => return none

/-- The bound of an inferred type. It is none if a question follows, where one may be asked. -/
def inferredBound (p : Inner) : Reading Unit := do
  if ← isWord "extends" then
    let allowed := (← setting).conditionalTypes
    let _ ← attempt (do
      advance
      under (fun s => { s with conditionalTypes := false }) p.type
      if allowed then need !(← isMark "?"))

def operandType (p : Inner) : Reading Unit := do
  if (← isWord "keyof") || (← isWord "unique") || (← isWord "readonly") then
    advance
    p.read .typeOperand
  else if ← isWord "infer" then
    advance
    let _ ← bindingName
    inferredBound p
  else
    under (fun s => { s with conditionalTypes := true }) do
      plainType p
      grow (typeTail p) p.rounds ()

/-- Types joined by a mark, which may also stand in front of the first. -/
def joinedType (p : Inner) (mark : String) (item : Reading Unit) : Reading Unit := do
  let _ ← eatMark mark
  item
  let _ ← repeatWhile (eatMark mark) item p.rounds

def unionType (p : Inner) : Reading Unit :=
  joinedType p "|" (joinedType p "&" (p.read .typeOperand))

def callableType (p : Inner) : Reading Unit := do
  if ← holdsAhead (do takeWord "abstract"; isWord "new") then
    advance
    advance
    functionType p
  else if ← isOneOf ["(", "<"] then functionType p
  else fail

/-- Any type. A question about a type is asked on its line. -/
def anyType (p : Inner) : Reading Unit := do
  if ← isWord "new" then
    advance
    functionType p
  else
    match ← attempt (callableType p) with
    | some () => return ()
    | none =>
      unionType p
      if (← setting).conditionalTypes && (← isWord "extends") && !(← newLine) then
        advance
        under (fun s => { s with conditionalTypes := false }) p.type
        takeMark "?"
        under (fun s => { s with conditionalTypes := true }) p.type
        takeMark ":"
        under (fun s => { s with conditionalTypes := true }) p.type

end Realms.Script.Grammar
