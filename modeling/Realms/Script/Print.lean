import Realms.Script.Tree
import Realms.Text.Identifier

/-!
Printing scripts. This covers the forms that generated modules are made of: imports, exported names,
calls, functions and objects. A script with any other form has no printed text.

Lines are indented by tabs and texts stand in double quotes. An object of more than one member has a
line for each of them.
-/
namespace Realms.Script.Print

/-- The start of the tag that would end a script within a page, in any case. -/
def closesPage (cs : List Char) : Bool :=
  (cs.take 8).map Char.toLower == "</script".toList

def guardPage : List Char → List Char
  | [] => []
  | c :: rest =>
    if closesPage (c :: rest) then c :: '\\' :: guardPage rest else c :: guardPage rest

def startsWithDigit : List Char → Bool
  | c :: _ => c.isDigit
  | [] => false

/-- How a character is written between quotes, given those behind it. -/
def escapeChar (c : Char) (rest : List Char) : List Char :=
  if c == '\x00' then if startsWithDigit rest then "\\x00".toList else "\\0".toList
  else if c == '\x07' then "\\x07".toList
  else if c == '\x08' then "\\b".toList
  else if c == '\x0b' then "\\v".toList
  else if c == '\x0c' then "\\f".toList
  else if c == '\n' then "\\n".toList
  else if c == '\r' then "\\r".toList
  else if c == '\x1b' then "\\x1B".toList
  else if c == '\\' then "\\\\".toList
  else if c == '"' then "\\\"".toList
  else if c == '\u2028' then "\\u2028".toList
  else if c == '\u2029' then "\\u2029".toList
  else if c == '\u00a0' then "\\xA0".toList
  else [c]

def escapeChars : List Char → List Char
  | [] => []
  | c :: rest => escapeChar c rest ++ escapeChars rest

def quoted (value : String) : List Char :=
  '"' :: guardPage (escapeChars value.toList) ++ ['"']

def tabs (level : Nat) : List Char := List.replicate level '\t'

def separated (between : List Char) : List (List Char) → List Char
  | [] => []
  | [text] => text
  | text :: rest => text ++ between ++ separated between rest

/-- A name as it stands, or any other text between quotes. -/
def nameOrText (name : String) : List Char :=
  if Text.isIdentifierName name.toList then name.toList else quoted name

def importName (found : ImportName) : Option (List Char) :=
  if found.typeOnly then none
  else if found.imported == found.bound then some found.bound.toList
  else some (nameOrText found.imported ++ " as ".toList ++ found.bound.toList)

def importClause (found : ImportFrom) : Option (List (List Char)) := do
  let names ← match found.names with
    | none => some []
    | some [] => some [['\x7b', '\x7d']]
    | some names => do
      let texts ← names.mapM importName
      some ["\x7b ".toList ++ separated ", ".toList texts ++ " \x7d".toList]
  return (found.defaultName.map String.toList).toList ++
    (found.wholeName.map fun name => "* as ".toList ++ name.toList).toList ++ names

def importFrom (found : ImportFrom) : Option (List Char) := do
  if found.typeOnly then none
  else
    let clause ← importClause found
    let front := if clause.isEmpty then [] else separated ", ".toList clause ++ " from ".toList
    return "import ".toList ++ front ++ quoted found.specifier ++ [';']

def variableKind : VariableKind → List Char
  | .var => "var".toList
  | .letVar => "let".toList
  | .const => "const".toList
  | .managed => "using".toList

def pattern : Pattern → Option (List Char)
  | .name name => some name.toList
  | .rest (.name name) => some ("...".toList ++ name.toList)
  | _ => none

/-- Whether the text of an expression needs no parentheses wherever it stands. -/
def isPlain : Expr → Bool
  | .name _ => true
  | .text _ => true
  | .member object _ => isPlain object
  | .index object _ => isPlain object
  | .call callee _ => isPlain callee
  | .paren inner => isPlain inner
  | _ => false

mutual

def expr (level : Nat) : Expr → Option (List Char)
  | .name name => some name.toList
  | .text value => some (quoted value)
  | .member object name => do
    if isPlain object then return (← expr level object) ++ '.' :: name.toList else none
  | .index object key => do
    if isPlain object then return (← expr level object) ++ '[' :: (← expr level key) ++ [']'] else none
  | .call callee arguments => do
    if isPlain callee then
      return (← expr level callee) ++ '(' :: separated ", ".toList (← exprs level arguments) ++ [')']
    else none
  | .object [] _ => some ['\x7b', '\x7d']
  | .object [one] _ => do return "\x7b ".toList ++ (← member level one) ++ " \x7d".toList
  | .object several _ => do
    let texts ← members (level + 1) several
    let start := '\n' :: tabs (level + 1)
    return '\x7b' :: start ++ separated (',' :: start) texts ++ '\n' :: tabs level ++ ['\x7d']
  | .function value => function level value
  | .spread value => do return "...".toList ++ (← expr level value)
  | .paren inner => if isPlain inner then expr level inner else none
  | _ => none

def exprs (level : Nat) : List Expr → Option (List (List Char))
  | [] => some []
  | e :: rest => do return (← expr level e) :: (← exprs level rest)

def member (level : Nat) : Member → Option (List Char)
  | .entry keyOf value => do return (← key level keyOf) ++ ": ".toList ++ (← expr level value)
  | .short name _ => some name.toList
  | .spread value => do return "...".toList ++ (← expr level value)
  | .method => none

def members (level : Nat) : List Member → Option (List (List Char))
  | [] => some []
  | m :: rest => do return (← member level m) :: (← members level rest)

def key (level : Nat) : Key → Option (List Char)
  | .name name => some name.toList
  | .text value => some (quoted value)
  | .computed value => do return '[' :: (← expr level value) ++ [']']
  | .number => none

def function (level : Nat) : Function → Option (List Char)
  | .mk isAsync isGenerator name parameters _ body => do
    let front := (if isAsync then "async function".toList else "function".toList) ++
      (if isGenerator then ['*'] else [])
    let title := match name with
      | some name => ' ' :: name.toList
      | none => []
    let inner ← stmts (level + 1) body
    let block := if inner.isEmpty then [] else '\n' :: inner ++ tabs level
    return front ++ title ++ '(' :: separated ", ".toList (← parameters.mapM pattern) ++
      ") \x7b".toList ++ block ++ ['\x7d']

def binding (level : Nat) : Variable → Option (List Char)
  | .mk target none => pattern target
  | .mk target (some value) => do return (← pattern target) ++ " = ".toList ++ (← expr level value)

def bindings (level : Nat) : List Variable → Option (List (List Char))
  | [] => some []
  | v :: rest => do return (← binding level v) :: (← bindings level rest)

def declaration (level : Nat) : Declaration → Option (List Char)
  | .bindings kind items => do
    return variableKind kind ++ ' ' :: separated ", ".toList (← bindings level items) ++ [';']
  | .function value => function level value
  | _ => none

def stmt (level : Nat) : Stmt → Option (List Char)
  | .expression (.text _) => none
  | .expression value => if isPlain value then do return (← expr level value) ++ [';'] else none
  | .result none => some "return;".toList
  | .result (some value) => do return "return ".toList ++ (← expr level value) ++ [';']
  | .declared value => declaration level value
  | .importFrom found => importFrom found
  | .exportDeclared _ false value => do return "export ".toList ++ (← declaration level value)
  | .empty => some [';']
  | _ => none

def stmts (level : Nat) : List Stmt → Option (List Char)
  | [] => some []
  | s :: rest => do return tabs level ++ (← stmt level s) ++ '\n' :: (← stmts level rest)

end

/-- A directive that is written without any escape. -/
def directive (value : String) : Option (List Char) :=
  if value.toList.any fun c => c == '"' || c == '\\' then none
  else some ('"' :: value.toList ++ "\";\n".toList)

def script (comments : List (List Char)) (found : Script) : Option String := do
  let front := comments.flatMap fun comment => guardPage comment ++ ['\n']
  let directives ← found.directives.mapM directive
  let body ← stmts 0 found.body
  return String.ofList (front ++ directives.flatten ++ body)

end Realms.Script.Print
