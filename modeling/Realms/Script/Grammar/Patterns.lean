import Realms.Script.Grammar.Parameters

/-!
Patterns: in declarations, where they bind names, and in assignments, where an expression that was
read as a value turns out to be one.
-/
namespace Realms.Script.Grammar

open Reading

def defaultValue (p : Inner) : Reading Expr :=
  under (fun s => { s with inOperator := true }) p.expression

def patternWithDefault (p : Inner) : Reading Pattern := do
  let target ← p.read .pattern
  if ← eatMark "=" then return .withDefault target (← defaultValue p) else return target

/-- Nothing may follow the rest of a pattern, but a comma leaves it readable. -/
def endOfRest (close : String) : Reading Unit := do
  if ← eatMark "," then flawIf !(← setting).ambient
  takeMark close

def arrayPattern (p : Inner) : Nat → Reading (List Pattern)
  | 0 => fail
  | rounds + 1 => do
    if ← eatMark "]" then return []
    if ← eatMark "," then return .hole :: (← arrayPattern p rounds)
    if ← eatMark "..." then
      let target ← p.read .pattern
      endOfRest "]"
      return [.rest target]
    let first ← patternWithDefault p
    if ← eatMark "]" then return [first]
    takeMark ","
    return first :: (← arrayPattern p rounds)

/-- A member of an object pattern. A key that names a binding may stand for both. -/
def patternMember (p : Inner) : Reading PatternMember := do
  let isBinding ← isBindingWord
  let key ← key p
  match key with
  | .name name =>
    if isBinding && !(← isMark ":") then
      checkName name
      if ← eatMark "=" then return .entry key (.withDefault (.name name) (← defaultValue p))
      else return .entry key (.name name)
  | _ => pure ()
  takeMark ":"
  return .entry key (← patternWithDefault p)

def objectPattern (p : Inner) : Nat → Reading (List PatternMember)
  | 0 => fail
  | rounds + 1 => do
    if ← eatMark "\x7d" then return []
    if ← eatMark "..." then
      let target ← p.read .pattern
      match target with
      | .name _ => pure ()
      | _ => flaw
      endOfRest "\x7d"
      return [.rest target]
    let first ← patternMember p
    if ← eatMark "\x7d" then return [first]
    takeMark ","
    return first :: (← objectPattern p rounds)

def bindingPattern (p : Inner) : Reading Pattern := do
  if ← eatMark "[" then return .array (← arrayPattern p p.rounds)
  else if ← eatMark "\x7b" then return .object (← objectPattern p p.rounds)
  else return .name (← bindingName)

def isSimpleTarget : Expr → Bool
  | .name _ | .member _ _ | .index _ _ => true
  | .paren (.array _ _) | .paren (.object _ _) => false
  | .paren inner => isSimpleTarget inner
  | .typed inner => isSimpleTarget inner
  | _ => false

mutual

/-- The places of the names with a possible default in an expression that is assigned to, or `none`
if it cannot be. -/
def targetNames : Expr → Option (List Nat)
  | .array items trailingComma => itemNames trailingComma items
  | .object members trailingComma => memberNames trailingComma members
  | .assign operator _ _ => if operator == "=" then some [] else none
  | e => if isSimpleTarget e then some [] else none

def itemNames (trailingComma : Bool) : List Expr → Option (List Nat)
  | [] => some []
  | [.spread (.assign _ _ _)] => none
  | [.spread e] => if trailingComma then none else targetNames e
  | .hole :: more => itemNames trailingComma more
  | e :: more => do return (← targetNames e) ++ (← itemNames trailingComma more)

def memberNames (trailingComma : Bool) : List Member → Option (List Nat)
  | [] => some []
  | [.spread e] => if !trailingComma && isSimpleTarget e then some [] else none
  | .entry _ e :: more => do return (← targetNames e) ++ (← memberNames trailingComma more)
  | .short _ start :: more => do return start :: (← memberNames trailingComma more)
  | _ :: _ => none

end

/-- Takes an expression as the target of an assignment. Only a plain assignment takes values apart,
and an assignment is no target of its own. -/
def checkTarget (operator : String) (e : Expr) : Reading Unit := do
  match e with
  | .assign _ _ _ => fail
  | _ =>
    if operator == "=" then
      match targetNames e with
      | some starts => settleDefaults starts
      | none => fail
    else need (isSimpleTarget e)

end Realms.Script.Grammar
