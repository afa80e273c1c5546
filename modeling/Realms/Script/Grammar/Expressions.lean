import Realms.Script.Grammar.Classes
import Realms.Script.Grammar.Markup

/-!
Expressions, from single values up to sequences.
-/
namespace Realms.Script.Grammar

open Reading

/-- Inside parentheses, brackets and braces `in` is an operator again. -/
def enclosed {α : Type} (m : Reading α) : Reading α :=
  under (fun s => { s with inOperator := true, decorator := false }) m

/-- A template, its first piece in front. Behind a tag its escapes may be malformed. -/
def template (p : Inner) (tagged : Bool) : Nat → Reading Unit
  | 0 => fail
  | rounds + 1 => do
    match ← lexeme with
    | .template last valid =>
      flawIf (!tagged && !valid)
      advance
      if last then return ()
      let _ ← enclosed p.sequence
      need (← isMark "\x7d")
      retake Token.asTemplate
      template p tagged rounds
    | _ => fail

def parenthesized (p : Inner) : Reading Expr := do
  takeMark "("
  let inner ← enclosed p.sequence
  takeMark ")"
  return .paren inner

def spreadable (p : Inner) : Reading Expr := do
  if ← eatMark "..." then return .spread (← p.expression) else p.expression

def arrayItems (p : Inner) : Nat → Reading (List Expr × Bool)
  | 0 => fail
  | rounds + 1 => do
    if ← eatMark "]" then return ([], false)
    if ← eatMark "," then
      let (more, comma) ← arrayItems p rounds
      return (.hole :: more, comma)
    let first ← spreadable p
    if ← eatMark "]" then return ([first], false)
    takeMark ","
    if ← eatMark "]" then return ([first], true)
    let (more, comma) ← arrayItems p rounds
    return (first :: more, comma)

def arrayLiteral (p : Inner) : Reading Expr := do
  takeMark "["
  let (items, comma) ← enclosed (arrayItems p p.rounds)
  return .array items comma

def objectAccessor (p : Inner) (kind : AccessorKind) : Reading Member := do
  advance
  let _ ← key p
  let value ← functionTail p false false false none
  need value.hasBody
  flawIf (!kind.fits value)
  return .method

def objectKeyed (p : Inner) (isAsync : Bool) : Reading Member := do
  let isGenerator ← eatMark "*"
  let start ← place
  let isBinding ← isBindingWord
  let key ← key p
  if isGenerator || isAsync || (← isOneOf ["(", "<"]) then
    let value ← functionTail p isAsync isGenerator false none
    need value.hasBody
    return .method
  match key with
  | .name name =>
    if isBinding && !(← isMark ":") then
      checkName name
      if ← eatMark "=" then
        noteDefault start
        let _ ← defaultValue p
      return .short name start
  | _ => pure ()
  takeMark ":"
  return .entry key (← p.expression)

def objectMember (p : Inner) : Reading Member := do
  if ← eatMark "..." then return .spread (← p.expression)
  match ← accessorAhead with
  | some kind => objectAccessor p kind
  | none =>
    let isAsync ← holdsAhead (do
      takeWord "async"
      return !(← newLine) && ((← isMark "*") || (← isKeyAhead)))
    if isAsync then advance
    objectKeyed p isAsync

def objectLiteral (p : Inner) : Reading Expr := do
  takeMark "\x7b"
  let (members, comma) ← enclosed (separated "\x7d" (objectMember p) p.rounds)
  takeMark "\x7d"
  return .object members comma

def callArguments (p : Inner) : Reading (List Expr) := do
  takeMark "("
  let (items, _) ← enclosed (separated ")" (spreadable p) p.rounds)
  takeMark ")"
  return items

/-- Whether the argument of an import call in front is a text and nothing else. -/
def importedText : Reading (Option String) := ahead do
  match ← lexeme with
  | .text value _ =>
    advance
    if ← isOneOf [",", ")"] then return some value else return none
  | _ => return none

def importCall (p : Inner) (start : Nat) : Reading Expr := do
  takeMark "("
  match ← importedText with
  | some specifier => noteCall ⟨specifier, start⟩
  | none => pure ()
  let source ← enclosed p.expression
  if ← eatMark "," then
    if !(← isMark ")") then
      let _ ← enclosed p.expression
      let _ ← eatMark ","
  takeMark ")"
  return .importCall source

def importValue (p : Inner) : Reading Expr := do
  let start ← place
  takeWord "import"
  if ← eatMark "." then
    if ← isWord "meta" then
      advance
      return .other
    else if (← isWord "source") || (← isWord "defer") then
      advance
      importCall p start
    else fail
  else importCall p start

/-- `new` with what it makes and its arguments. An import call cannot be made, and what is made has no
optional members. -/
def newValue (p : Inner) : Reading Expr := do
  takeWord "new"
  if ← eatMark "." then
    if ← isWord "target" then
      advance
      return .other
    else fail
  else
    let callee ← p.read .callee
    match callee with
    | .importCall _ => flaw
    | _ => pure ()
    flawIf (← isMark "?.")
    if ← isMark "(" then
      let _ ← callArguments p
    return .other

/-- `super` stands only in front of a member or a call. -/
def superValue : Reading Expr := do
  takeWord "super"
  flawIf !(← isOneOf [".", "[", "("])
  return .other

def wordValue (p : Inner) (name : String) : Reading Expr := do
  match name with
  | "this" | "null" | "true" | "false" =>
    takeWord name
    return .other
  | "function" => functionValue p
  | "class" =>
    let _ ← classTail p
    return .other
  | "new" => newValue p
  | "super" => superValue
  | "import" => importValue p
  | _ =>
    if ← isAsyncFunctionAhead then functionValue p else return .name (← bindingName)

def patternLiteral : Reading Expr := do
  retake Token.asPattern
  match ← lexeme with
  | .pattern =>
    advance
    return .other
  | _ => fail

def primary (p : Inner) : Reading Expr := do
  match ← lexeme with
  | .text value _ =>
    advance
    return .text value
  | .number | .bigNumber =>
    advance
    return .other
  | .template _ _ =>
    template p false p.rounds
    return .other
  | .word name _ => wordValue p name
  | .mark "(" => parenthesized p
  | .mark "[" => arrayLiteral p
  | .mark "\x7b" => objectLiteral p
  | .mark "/" | .mark "/=" => patternLiteral
  | .mark "<" =>
    p.read .element
    advance
    return .other
  | .mark "@" =>
    let _ ← decorators p
    let _ ← classTail p
    return .other
  | _ => fail

/-- Whether a token can start an expression; used to tell a list of types from two comparisons. -/
def startsExpression : Lexeme → Bool
  | .word name _ =>
    !reservedWords.contains name ||
      ["this", "super", "null", "true", "false", "function", "class", "new", "delete", "typeof",
        "void", "import"].contains name
  | .text _ _ | .number | .bigNumber | .template _ _ | .privateName _ | .pattern => true
  | .mark mark =>
    ["(", "[", "\x7b", "/", "/=", "+", "-", "~", "!", "++", "--", "<", "@"].contains mark
  | .ending | .malformed => false

def operatorMarks : List String :=
  ["??", "||", "&&", "|", "^", "&", "==", "!=", "===", "!==", "<", ">", "<=", ">=", "<<", ">>",
    ">>>", "+", "-", "*", "/", "%", "**"]

def canFollowTypeArguments : Reading Bool := do
  match ← lexeme with
  | .mark "(" | .template _ _ => return true
  | .mark "<" | .mark ">" | .mark "+" | .mark "-" => return false
  | .mark mark => return (← newLine) || operatorMarks.contains mark || !startsExpression (.mark mark)
  | .word name escaped =>
    return (← newLine) || ["in", "instanceof", "as", "satisfies"].contains name ||
      !startsExpression (.word name escaped)
  | found => return (← newLine) || !startsExpression found

def typeArgumentsBehind (p : Inner) : Reading Bool := do
  if (← typed) && (← isOneOf ["<", "<<"]) then
    let found ← attempt (do
      p.typeArguments
      need (← canFollowTypeArguments))
    return found.isSome
  else return false

/-- An expression that is looked into further; `chained` once a member was optional. -/
structure Chain where
  value : Expr
  chained : Bool

/-- What is behind a member that may be missing cannot be assigned to. -/
def Chain.grown (chain : Chain) (value : Expr) : Chain :=
  if chain.chained then { chain with value := .other } else { chain with value }

def memberName : Reading String := do
  match ← lexeme with
  | .privateName name =>
    advance
    return "#" ++ name
  | _ => anyWord

def memberKey (p : Inner) : Reading Expr := do
  takeMark "["
  let key ← enclosed p.sequence
  takeMark "]"
  return key

/-- A template behind an expression. None may stand behind an optional member. -/
def taggedTemplate (p : Inner) (chain : Chain) : Reading (Option Chain) := do
  flawIf chain.chained
  template p true p.rounds
  return some (chain.grown .other)

def optionalStep (p : Inner) (chain : Chain) : Reading (Option Chain) := do
  takeMark "?."
  let chain : Chain := ⟨chain.value, true⟩
  match ← lexeme with
  | .mark "[" =>
    let _ ← memberKey p
    return some (chain.grown .other)
  | .template _ _ => taggedTemplate p chain
  | .word _ _ | .privateName _ =>
    let _ ← memberName
    return some (chain.grown .other)
  | _ =>
    if (← typed) && (← isOneOf ["<", "<<"]) then p.typeArguments
    let _ ← callArguments p
    return some (chain.grown .other)

/-- One step behind an expression. Calls and optional members are left where an object is made. -/
def chainStep (p : Inner) (calls : Bool) (chain : Chain) : Reading (Option Chain) := do
  match ← lexeme with
  | .mark "." =>
    advance
    return some (chain.grown (.member chain.value (← memberName)))
  | .mark "[" =>
    if (← setting).decorator then return none
    return some (chain.grown (.index chain.value (← memberKey p)))
  | .template _ _ => taggedTemplate p chain
  | .mark "?." => if calls then optionalStep p chain else return none
  | .mark "(" =>
    if calls then return some (chain.grown (.call chain.value (← callArguments p))) else return none
  | .mark "!" =>
    if (← typed) && !(← newLine) then
      advance
      return some (chain.grown (.typed chain.value))
    else return none
  | .mark "<" | .mark "<<" =>
    if ← typeArgumentsBehind p then return some (chain.grown .other) else return none
  | _ => return none

def chainValue (p : Inner) (calls : Bool) : Reading Expr := do
  let first ← primary p
  let chain ← grow (chainStep p calls) p.rounds ⟨first, false⟩
  return chain.value

def operand (p : Inner) : Reading Expr := chainValue p true

def callee (p : Inner) : Reading Expr := chainValue p false

def isElementAhead : Reading Bool := holdsAhead do
  takeMark "<"
  return (← isAnyWord) || (← isMark ">")

def updatable (p : Inner) : Reading Expr := do
  if ← isOneOf ["++", "--"] then
    advance
    let target ← p.read .unary
    need (isSimpleTarget target)
    return .other
  else if ← isElementAhead then
    p.read .element
    advance
    return .other
  else
    let value ← p.read .operand
    if (← isOneOf ["++", "--"]) && !(← newLine) then
      need (isSimpleTarget value)
      advance
      return .other
    else return value

def unary (p : Inner) : Reading Expr := do
  match ← lexeme with
  | .mark mark =>
    if ["+", "-", "~", "!"].contains mark then
      advance
      return .unary mark (← p.read .unary)
    else updatable p
  | .word name _ =>
    let waits := name == "await" && (← setting).awaits
    if ["typeof", "void", "delete"].contains name || waits then
      takeWord name
      return .unary name (← p.read .unary)
    else updatable p
  | _ => updatable p

def level (operator : String) : Option Nat :=
  if operator == "??" then some 1
  else if operator == "||" then some 2
  else if operator == "&&" then some 3
  else if operator == "|" then some 4
  else if operator == "^" then some 5
  else if operator == "&" then some 6
  else if ["==", "!=", "===", "!=="].contains operator then some 7
  else if ["<", ">", "<=", ">=", "instanceof", "in", "as", "satisfies"].contains operator then some 8
  else if ["<<", ">>", ">>>"].contains operator then some 9
  else if ["+", "-"].contains operator then some 10
  else if ["*", "/", "%"].contains operator then some 11
  else if operator == "**" then some 12
  else none

/-- The operator in front, where one may stand: `in` is not one everywhere, and the operators of
types stand on the line of their value. -/
def operatorAhead : Reading (Option String) := do
  retake Token.joinAngle
  match ← lexeme with
  | .mark mark => return some mark
  | .word name _ =>
    if name == "in" then return if (← setting).inOperator then some name else none
    else if name == "instanceof" then return some name
    else if name == "as" || name == "satisfies" then
      return if (← typed) && !(← newLine) then some name else none
    else return none
  | _ => return none

/-- `??` does not mix with the other two without parentheses. -/
def isAndOr : Expr → Bool
  | .binary operator _ _ => operator == "||" || operator == "&&"
  | _ => false

def isUnary : Expr → Bool
  | .unary _ _ => true
  | _ => false

/-- One more operator behind a value, if it binds tighter than the level. Only powers are taken from
the right. -/
def binaryStep (p : Inner) (above : Nat) (left : Expr) : Reading (Option Expr) := do
  match ← operatorAhead with
  | none => return none
  | some operator =>
    match level operator with
    | none => return none
    | some found =>
      if found < above || (found == above && operator != "**") then return none
      if operator == "as" || operator == "satisfies" then
        advance
        p.type
        return some (.typed left)
      flawIf (operator == "**" && isUnary left)
      match ← lexeme with
      | .word name _ => takeWord name
      | _ => advance
      let right ← p.read (.binary found)
      flawIf (operator == "??" && (isAndOr left || isAndOr right))
      return some (.binary operator left right)

def binary (p : Inner) (above : Nat) : Reading Expr := do
  match ← lexeme with
  | .privateName _ =>
    need (← setting).inOperator
    advance
    takeWord "in"
    let _ ← p.read (.binary 8)
    grow (binaryStep p above) p.rounds .other
  | _ =>
    let first ← unary p
    grow (binaryStep p above) p.rounds first

def assignmentMarks : List String :=
  ["=", "+=", "-=", "*=", "/=", "%=", "**=", "<<=", ">>=", ">>>=", "&=", "|=", "^=", "&&=", "||=",
    "??="]

/-- What a generator gives out. On the next line, or in front of a closing mark, nothing does. -/
def yieldValue (p : Inner) : Reading Expr := do
  takeWord "yield"
  if !(← newLine) then
    if ← eatMark "*" then
      let _ ← p.expression
    else
      let ends ← isOneOf [")", "]", "\x7d", ",", ";", ":"]
      if !ends && !(← isEnding) && !(← isWord "in") then
        let _ ← p.expression
  return .other

def choiceTail (p : Inner) (resultType : Bool) (condition : Expr) : Reading Expr := do
  if ← eatMark "?" then
    let _ ← under (fun s => { s with inOperator := true }) (p.read (.assignment false))
    takeMark ":"
    let _ ← p.read (.assignment resultType)
    return .other
  else return condition

def assignmentTail (p : Inner) (resultType : Bool) (left : Expr) : Reading Expr := do
  match ← lexeme with
  | .mark mark =>
    if mark == "=>" then
      match left with
      | .name _ =>
        flawIf (← newLine)
        advance
        arrowBody p false resultType
        return .other
      | _ => fail
    else if assignmentMarks.contains mark then
      checkTarget mark left
      advance
      return .assign mark left (← p.read (.assignment resultType))
    else choiceTail p resultType left
  | _ => return left

def assignment (p : Inner) (resultType : Bool) : Reading Expr := do
  if (← isWord "yield") && (← setting).yields then yieldValue p
  else
    match ← arrowFunction p resultType with
    | some found => return found
    | none =>
      match ← asyncNameArrow p resultType with
      | some found => return found
      | none => assignmentTail p resultType (← p.read (.binary 0))

end Realms.Script.Grammar
