import Realms.Script.Reading

/-!
Keys of members, parameters of functions and of types: the parts that values, types and classes
write alike.
-/
namespace Realms.Script.Grammar

open Reading

def key (p : Inner) : Reading Key := do
  match ← lexeme with
  | .text value _ =>
    advance
    return .text value
  | .number | .bigNumber =>
    advance
    return .number
  | .privateName name =>
    advance
    return .name ("#" ++ name)
  | .mark "[" =>
    advance
    let value ← under (fun s => { s with inOperator := true }) p.expression
    takeMark "]"
    return .computed value
  | _ => return .name (← anyWord)

def isKeyAhead : Reading Bool := do
  match ← lexeme with
  | .text _ _ | .number | .bigNumber | .privateName _ | .mark "[" | .word _ _ => return true
  | _ => return false

def decorators (p : Inner) : Reading Bool := do
  let found ← repeatWhile (eatMark "@")
    (under (fun s => { s with decorator := true }) (p.read .operand)) p.rounds
  return !found.isEmpty

def typeParameter (p : Inner) : Reading Unit := do
  let _ ← repeatWhile (do
    if (← isWord "const") || (← isWord "in") then return true
    if ← isWord "out" then ahead (do advance; isBindingWord) else return false) advance p.rounds
  let _ ← bindingName
  if ← eatWord "extends" then p.type
  if ← eatMark "=" then p.type

def typeParameters (p : Inner) : Reading Unit := do
  if ← typed then
    if ← isMark "<" then
      advance
      let (names, _) ← separated ">" (typeParameter p) p.rounds
      flawIf names.isEmpty
      takeMark ">"

/-- Words that set the reach of a member, also in front of a parameter of a constructor. -/
def reachWords : List String := ["public", "private", "protected", "readonly", "override"]

/-- Whether the word in front belongs to the name behind it: a word or a pattern that starts on
the same line. -/
def leadsParameter : Reading Bool := ahead do
  match ← lexeme with
  | .word name _ =>
    if reachWords.contains name then
      advance
      if ← newLine then return false
      if (← isBindingWord) || (← isWord "this") then return true
      isOneOf ["\x7b", "["]
    else return false
  | _ => return false

def parameter (p : Inner) (ofConstructor : Bool) : Reading Pattern := do
  let _ ← decorators p
  let leading ← repeatWhile leadsParameter languageWord p.rounds
  let types ← typed
  flawIf (!leading.isEmpty && !types)
  flawIf (!ofConstructor && leading.any (· != "readonly"))
  let target ← p.read .pattern
  if types then
    let _ ← eatMark "?"
    p.annotation
  if ← eatMark "=" then
    let value ← under (fun s => { s with inOperator := true }) p.expression
    return .withDefault target value
  else return target

def restParameter (p : Inner) : Reading Pattern := do
  takeMark "..."
  let target ← p.read .pattern
  p.annotation
  return .rest target

/-- Parameters up to the closing parenthesis; nothing may follow the one behind three dots. -/
def parameterList (p : Inner) (ofConstructor : Bool) : Nat → Reading (List Pattern)
  | 0 => fail
  | rounds + 1 => do
    if ← isMark ")" then return []
    if ← isMark "..." then
      let last ← restParameter p
      if ← eatMark "," then flawIf !(← setting).ambient
      return [last]
    else
      let first ← parameter p ofConstructor
      if ← isMark ")" then return [first]
      takeMark ","
      return first :: (← parameterList p ofConstructor rounds)

/-- The type of `this`, which types may name in front of the parameters. -/
def thisParameter (p : Inner) : Reading Unit := do
  if (← typed) && (← isWord "this") then
    advance
    p.annotation
    if !(← isMark ")") then takeMark ","

def parameters (p : Inner) (ofConstructor : Bool) : Reading (List Pattern) := do
  takeMark "("
  thisParameter p
  let found ← parameterList p ofConstructor p.rounds
  takeMark ")"
  return found

/-- Whether a name or `this` is in front, with `is` behind it on the same line. -/
def isPredicateAhead : Reading Bool := ahead do
  if (← isBindingWord) || (← isWord "this") then
    advance
    return (← isWord "is") && !(← newLine)
  else return false

/-- The type of a result: a type, or what a result says about an argument. -/
def resultType (p : Inner) : Reading Unit := do
  if ← isPredicateAhead then
    advance
    takeWord "is"
  p.type

def resultAnnotation (p : Inner) : Reading Bool := do
  if (← typed) && (← isMark ":") then
    advance
    resultType p
    return true
  else return false

end Realms.Script.Grammar
