import Realms.Script.Grammar.Expressions

/-!
Declarations: variables, functions and classes, and those that only types know.
-/
namespace Realms.Script.Grammar

open Reading

/-- One variable. A constant needs a value, and so does a pattern, except where a loop gives it one
or where the declaration only describes something. -/
def variableItem (p : Inner) (kind : VariableKind) (inLoop : Bool) : Reading Variable := do
  let target ← p.read .pattern
  if ← typed then
    if (← isMark "!") && !(← newLine) then advance
    let _ ← eatMark "?"
    p.annotation
  if ← eatMark "=" then return .mk target (some (← p.expression))
  let loopGives := inLoop && ((← isWord "in") || (← isWord "of"))
  if !loopGives && !(← setting).ambient then
    flawIf (kind == .const || kind == .managed)
    match target with
    | .name _ => pure ()
    | _ => flaw
  return .mk target none

def variableItems (p : Inner) (kind : VariableKind) (inLoop : Bool) : Reading Declaration := do
  let first ← variableItem p kind inLoop
  let more ← repeatWhile (eatMark ",") (variableItem p kind inLoop) p.rounds
  return .bindings kind (first :: more)

def variableKind : Reading (Option VariableKind) := do
  match ← lexeme with
  | .word "var" _ => return some .var
  | .word "let" _ => return some .letVar
  | .word "const" _ => return some .const
  | _ => return none

def declarationWords : List String :=
  ["declare", "abstract", "accessor", "private", "protected", "public", "readonly", "static",
    "override"]

def leadsDeclaration : Reading Bool := ahead do
  match ← lexeme with
  | .word name _ =>
    if !declarationWords.contains name then return false
    advance
    if name == "static" || name == "accessor" then canFollowMemberWord
    else return !(← newLine) && (← canFollowMemberWord)
  | _ => return false

/-- Whether a declaration that only types know starts here. Its words are plain names, but a name
cannot stand right before another one on a line. -/
def isDeclarationAhead (p : Inner) : Reading Bool :=
  holdsAhead (worker p.rounds)
where
  worker : Nat → Reading Bool
    | 0 => return false
    | rounds + 1 => do
      match ← lexeme with
      | .word name _ =>
        if ["var", "let", "const", "function", "class", "enum"].contains name then return true
        advance
        if name == "interface" || name == "type" then return (← isBindingWord) && !(← newLine)
        else if name == "module" || name == "namespace" then
          if ← newLine then return false
          match ← lexeme with
          | .text _ _ => return true
          | _ => isBindingWord
        else if name == "global" then
          return (← isMark "\x7b") || (← isWord "export") || (← isBindingWord)
        else if name == "import" then
          match ← lexeme with
          | .text _ _ | .word _ _ => return true
          | _ => isOneOf ["*", "\x7b"]
        else if name == "static" then worker rounds
        else if name == "async" || declarationWords.contains name then
          if ← newLine then return false else worker rounds
        else return false
      | _ => return false

def enumMember (p : Inner) : Reading Unit := do
  match ← key p with
  | .number => flaw
  | _ => pure ()
  if ← eatMark "=" then
    let _ ← defaultValue p

def enumDeclaration (p : Inner) : Reading Declaration := do
  takeWord "enum"
  let name ← bindingName
  takeMark "\x7b"
  let _ ← separated "\x7d" (enumMember p) p.rounds
  takeMark "\x7d"
  return .enum name

/-- An interface, of which the name is kept. -/
def interfaceDeclaration (p : Inner) : Reading String := do
  takeWord "interface"
  let name ← bindingName
  typeParameters p
  if ← eatWord "extends" then
    p.type
    let _ ← repeatWhile (eatMark ",") p.type p.rounds
  typeMembers p
  return name

def typeDeclaration (p : Inner) : Reading Declaration := do
  takeWord "type"
  let name ← bindingName
  typeParameters p
  takeMark "="
  p.type
  endStatement
  return .type name

/-- Namespaces within each other, named with points between them. -/
def nestedNamespace (first : String) : List String → List Stmt → Declaration
  | [], body => .scope first body
  | next :: more, body => .scope first [.exportDeclared 0 false (nestedNamespace next more body)]

/-- A namespace, or the description of a module by its text. Only a description may have no body. -/
def namespaceDeclaration (p : Inner) : Reading Declaration := do
  let _ ← languageWord
  match ← lexeme with
  | .text _ _ =>
    advance
    if ← isMark "\x7b" then
      let _ ← block p
    else endStatement
    return .type none
  | _ =>
    let first ← bindingName
    let more ← repeatWhile (eatMark ".") anyWord p.rounds
    return nestedNamespace first more (← block p)

def globalDeclaration (p : Inner) : Reading Declaration := do
  takeWord "global"
  let _ ← block p
  return .type none

def aliasTail (p : Inner) : Reading Unit := do
  takeMark "="
  let requires ← holdsAhead (do
    takeWord "require"
    isMark "(")
  if requires then
    advance
    takeMark "("
    let _ ← textLiteral
    takeMark ")"
  else
    let _ ← anyWord
    dottedName p
  endStatement

def declaration (p : Inner) : Reading Declaration := do
  let types ← typed
  match ← lexeme with
  | .word "const" _ =>
    if types && (← holdsAhead (do advance; isWord "enum")) then
      advance
      enumDeclaration p
    else declareAll VariableKind.const
  | .word "var" _ => declareAll VariableKind.var
  | .word "let" _ => declareAll VariableKind.letVar
  | .word "class" _ => return .classOf (← classTail p)
  | .word "function" _ => return .function (← functionDeclaration p true)
  | .word "async" _ =>
    need (← isAsyncFunctionAhead)
    return .function (← functionDeclaration p true)
  | .word name _ =>
    need types
    match name with
    | "enum" => enumDeclaration p
    | "interface" => return .type (← interfaceDeclaration p)
    | "type" => typeDeclaration p
    | "module" | "namespace" => namespaceDeclaration p
    | "global" => globalDeclaration p
    | _ => fail
  | _ => fail
where
  declareAll (kind : VariableKind) : Reading Declaration := do
    let _ ← languageWord
    let found ← variableItems p kind false
    endStatement
    return found

/-- A declaration with the words in front of it; says whether it only describes something. Only a
class can be abstract. -/
def wordedDeclaration (p : Inner) : Reading (Bool × Declaration) := do
  let words ← if ← typed then repeatWhile leadsDeclaration languageWord p.rounds else pure []
  let ambient := words.contains "declare"
  let isClass ← isWord "class"
  flawIf (words.any fun word => word != "declare" && !(isClass && word == "abstract"))
  flawIf (words.eraseDups.length < words.length)
  let found ← under (fun s => { s with ambient := s.ambient || ambient }) (declaration p)
  return (ambient, found)

end Realms.Script.Grammar
