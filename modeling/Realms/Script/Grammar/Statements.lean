import Realms.Script.Grammar.ModuleItems

/-!
Statements.
-/
namespace Realms.Script.Grammar

open Reading

def body (p : Inner) : Reading Unit := do
  let _ ← p.read (.statement true)

def condition (p : Inner) : Reading Unit := do
  takeMark "("
  let _ ← p.sequence
  takeMark ")"

def ifStatement (p : Inner) : Reading Stmt := do
  takeWord "if"
  condition p
  body p
  if ← eatWord "else" then body p
  return .other

/-- The semicolon behind it may always be left out. -/
def doStatement (p : Inner) : Reading Stmt := do
  takeWord "do"
  body p
  takeWord "while"
  condition p
  let _ ← eatMark ";"
  return .other

def guardedStatement (p : Inner) (word : String) : Reading Stmt := do
  takeWord word
  condition p
  body p
  return .other

def countingTail (p : Inner) (isAwait : Bool) : Reading Stmt := do
  takeMark ";"
  if !(← isMark ";") then
    let _ ← p.sequence
  takeMark ";"
  if !(← isMark ")") then
    let _ ← p.sequence
  takeMark ")"
  flawIf isAwait
  body p
  return .other

def iteratingTail (p : Inner) (isAwait : Bool) : Reading Stmt := do
  let isIn ← isWord "in"
  advance
  if isIn then
    let _ ← p.sequence
  else
    let _ ← p.expression
  takeMark ")"
  flawIf (isAwait && isIn)
  body p
  return .other

def loopTail (p : Inner) (isAwait : Bool) : Reading Stmt := do
  if (← isWord "in") || (← isWord "of") then iteratingTail p isAwait else countingTail p isAwait

def isUsingAhead : Reading Bool := holdsAhead do
  takeWord "using"
  return (← isBindingWord) && !(← newLine)

def isAwaitUsingAhead : Reading Bool := holdsAhead do
  takeWord "await"
  return !(← newLine) && (← isUsingAhead)

def loopVariables : Reading (Option VariableKind) := do
  if ← isWord "let" then
    let declares ← ahead (do
      advance
      match ← lexeme with
      | .word name _ => return name != "in"
      | _ => isOneOf ["\x7b", "["])
    return if declares then some .letVar else none
  else if ← isUsingAhead then
    let isName ← ahead (do
      advance
      return !(← isWord "of"))
    return if isName then some .managed else none
  else if ← isAwaitUsingAhead then
    advance
    return some .managed
  else variableKind

/-- A loop whose first part is an expression: what is looped over may be assigned to it. -/
def expressionLoop (p : Inner) (isAwait : Bool) : Reading Stmt := do
  let isLet ← isWord "let"
  let isAsyncOf ← holdsAhead (do
    takeWord "async"
    isWord "of")
  let first ← under (fun s => { s with inOperator := false }) p.sequence
  if (← isWord "in") || (← isWord "of") then
    checkTarget "=" first
    flawIf ((isLet && (← isWord "of")) || (isAsyncOf && !isAwait))
    iteratingTail p isAwait
  else countingTail p isAwait

def forStatement (p : Inner) : Reading Stmt := do
  takeWord "for"
  let isAwait ← isWord "await"
  if isAwait then
    flawIf !(← setting).awaits
    advance
  takeMark "("
  if ← isMark ";" then countingTail p isAwait
  else
    match ← loopVariables with
    | some kind =>
      advance
      let _ ← under (fun s => { s with inOperator := false }) (variableItems p kind true)
      loopTail p isAwait
    | none => expressionLoop p isAwait

def jumpStatement : Reading Stmt := do
  let _ ← languageWord
  if !(← canEnd) then
    let _ ← bindingName
  endStatement
  return .other

def returnStatement (p : Inner) : Reading Stmt := do
  flawIf !(← setting).returns
  takeWord "return"
  if ← canEnd then
    endStatement
    return .result none
  else
    let value ← p.sequence
    endStatement
    return .result (some value)

def switchCase (p : Inner) : Reading Unit := do
  if ← eatWord "case" then
    let _ ← p.sequence
  else takeWord "default"
  takeMark ":"
  let _ ← repeatWhile (do
    return !(← isMark "\x7d") && !(← isEnding) && !(← isWord "case") && !(← isWord "default"))
    (p.read (.statement false)) p.rounds

def switchStatement (p : Inner) : Reading Stmt := do
  takeWord "switch"
  condition p
  takeMark "\x7b"
  let _ ← repeatWhile (do return !(← isMark "\x7d") && !(← isEnding)) (switchCase p) p.rounds
  takeMark "\x7d"
  return .other

/-- The value stands on the line of the word. -/
def throwStatement (p : Inner) : Reading Stmt := do
  takeWord "throw"
  flawIf (← newLine)
  let _ ← p.sequence
  endStatement
  return .other

def tryStatement (p : Inner) : Reading Stmt := do
  takeWord "try"
  let _ ← block p
  let catches ← eatWord "catch"
  if catches then
    if ← eatMark "(" then
      let _ ← p.read .pattern
      p.annotation
      takeMark ")"
    let _ ← block p
  let finishes ← eatWord "finally"
  if finishes then
    let _ ← block p
  flawIf (!catches && !finishes)
  return .other

/-- Variables as a statement. Only `var` may be the body of another statement. -/
def variableStatement (p : Inner) (kind : VariableKind) (alone : Bool) : Reading Stmt := do
  advance
  let found ← variableItems p kind false
  endStatement
  flawIf (alone && kind != .var)
  return .declared found

def expressionStatement (p : Inner) : Reading Stmt := do
  let value ← p.sequence
  match value with
  | .name _ =>
    if ← eatMark ":" then
      body p
      return .other
  | _ => pure ()
  endStatement
  return .expression value

/-- `let` declares variables unless what follows makes it a name. -/
def letStatement (p : Inner) (alone : Bool) : Reading Stmt := do
  let isName ← ahead (do
    advance
    match ← lexeme with
    | .mark mark =>
      return operatorMarks.contains mark || assignmentMarks.contains mark ||
        [".", "(", ";"].contains mark || (alone && mark != "[")
    | .word name _ => return name == "in" || name == "instanceof" || alone
    | _ => return alone)
  if isName then expressionStatement p else variableStatement p .letVar alone

def classStatement (p : Inner) (alone : Bool) : Reading Stmt := do
  flawIf alone
  return .declared (.classOf (← classTail p))

/-- The body of another statement can be neither async nor a generator. -/
def functionStatement (p : Inner) (alone : Bool) : Reading Stmt := do
  let found ← functionDeclaration p true
  match found with
  | .mk isAsync isGenerator _ _ _ _ => flawIf (alone && (isAsync || isGenerator))
  return .declared (.function found)

/-- What decorators stand in front of: a class, exported or not. -/
def decoratedStatement (p : Inner) (alone : Bool) : Reading Stmt := do
  let _ ← decorators p
  if ← isWord "export" then exportStatement p true
  else
    let words ← if ← typed then repeatWhile leadsDeclaration languageWord p.rounds else pure []
    flawIf (words.any fun word => word != "declare" && word != "abstract")
    classStatement p alone

def typedStatement (p : Inner) : Reading Stmt := do
  let (ambient, found) ← wordedDeclaration p
  return if ambient then .described found else .declared found

def wordStatement (p : Inner) (alone : Bool) (name : String) (escaped : Bool) : Reading Stmt := do
  match name with
  | "if" => ifStatement p
  | "do" => doStatement p
  | "while" | "with" => guardedStatement p name
  | "for" => forStatement p
  | "break" | "continue" => jumpStatement
  | "return" => returnStatement p
  | "switch" => switchStatement p
  | "throw" => throwStatement p
  | "try" => tryStatement p
  | "debugger" =>
    advance
    endStatement
    return .other
  | "class" => classStatement p alone
  | "function" => functionStatement p alone
  | "export" => exportStatement p false
  | "import" =>
    if ← ahead (do advance; isOneOf ["(", "."]) then expressionStatement p else importStatement p
  | "var" => variableStatement p .var alone
  | "const" =>
    if (← typed) && (← ahead (do advance; isWord "enum")) then typedStatement p
    else variableStatement p .const alone
  | "let" => if escaped then expressionStatement p else letStatement p alone
  | _ =>
    if ← isAsyncFunctionAhead then functionStatement p alone
    else if ← isUsingAhead then variableStatement p .managed alone
    else if (← setting).awaits && (← isAwaitUsingAhead) then
      advance
      variableStatement p .managed alone
    else if (← typed) && (← isDeclarationAhead p) then typedStatement p
    else expressionStatement p

def statement (p : Inner) (alone : Bool) : Reading Stmt := do
  match ← lexeme with
  | .mark "\x7b" =>
    let _ ← block p
    return .other
  | .mark ";" =>
    advance
    return .empty
  | .mark "@" => decoratedStatement p alone
  | .word name escaped => wordStatement p alone name escaped
  | _ => expressionStatement p

end Realms.Script.Grammar
