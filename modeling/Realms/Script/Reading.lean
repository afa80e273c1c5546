import Realms.Script.Token.Next
import Realms.Script.Tree

/-!
Reading a script token by token. A `Reading` either fails, which ends the whole script, or gives a
value and a reader that stands further on. A rule that is broken without making the rest unreadable
leaves a flaw in the reader; a script counts only when none is left.

Alternatives are tried on the same reader, since a reader is a value: whatever a failed attempt
noted is forgotten with it.
-/
namespace Realms.Script

structure Setting where
  size : Nat
  types : Bool
  /-- `in` is an operator. -/
  inOperator : Bool
  yields : Bool
  awaits : Bool
  returns : Bool
  /-- A decorator is read, where brackets do not look up a member. -/
  decorator : Bool
  /-- Only descriptions of declarations stand here. -/
  ambient : Bool
  /-- `extends` within a type asks a question. -/
  conditionalTypes : Bool

structure Reader where
  token : Token
  /-- The import calls met so far, the last one first. -/
  calls : List ImportCall
  /-- Starts of names with a default in object literals that are not yet known to be patterns. -/
  defaults : List Nat
  exported : List String
  flawed : Bool

def Reader.start (source : List Char) : Reader :=
  ⟨nextToken source, [], [], [], false⟩

/-- The reader behind its token. A flaw of the token counts from here on: a token that is never
passed may have been element text. -/
def Reader.next (r : Reader) : Reader :=
  { r with token := nextToken r.token.rest, flawed := r.flawed || r.token.flawed }

def Reading (α : Type) : Type := Setting → Reader → Option (α × Reader)

namespace Reading

variable {α β : Type}

instance : Monad Reading where
  pure a := fun _ r => some (a, r)
  bind m f := fun s r =>
    match m s r with
    | some (a, r) => f a s r
    | none => none

def fail : Reading α := fun _ _ => none

instance : Inhabited (Reading α) := ⟨fail⟩

def setting : Reading Setting := fun s r => some (s, r)

def under (change : Setting → Setting) (m : Reading α) : Reading α := fun s r => m (change s) r

def token : Reading Token := fun _ r => some (r.token, r)

def lexeme : Reading Lexeme := fun _ r => some (r.token.lexeme, r)

def newLine : Reading Bool := fun _ r => some (r.token.newLine, r)

def skipName : Reading Unit := fun _ r => some ((), r.next)

/-- Goes on behind a token. A word of the language may not be escaped. -/
def advance : Reading Unit := fun _ r =>
  some ((), { r.next with flawed := r.next.flawed || r.token.isDisguised })

def resume (text : List Char) : Reading Unit := fun _ r =>
  some ((), { r with token := nextToken text })

def retake (change : Token → Token) : Reading Unit := fun _ r =>
  some ((), { r with token := change r.token })

def flawIf (broken : Bool) : Reading Unit := fun _ r =>
  some ((), { r with flawed := r.flawed || broken })

def flaw : Reading Unit := flawIf true

def need (holds : Bool) : Reading Unit := fun _ r => if holds then some ((), r) else none

/-- Reads if possible, and else stays. -/
def attempt (m : Reading α) : Reading (Option α) := fun s r =>
  match m s r with
  | some (a, r) => some (some a, r)
  | none => some (none, r)

/-- What would be read here, without reading it. -/
def ahead (m : Reading α) : Reading α := fun s r => (m s r).map fun (a, _) => (a, r)

def holdsAhead (m : Reading Bool) : Reading Bool := fun s r =>
  match m s r with
  | some (found, _) => some (found, r)
  | none => some (false, r)

def typed : Reading Bool := fun s r => some (s.types, r)

def byteCount : List Char → Nat
  | [] => 0
  | c :: rest => c.utf8Size + byteCount rest

def place : Reading Nat := fun s r => some (s.size - byteCount r.token.start, r)

def isMark (mark : String) : Reading Bool := fun _ r => some (r.token.lexeme == .mark mark, r)

def isWord (word : String) : Reading Bool := fun _ r =>
  match r.token.lexeme with
  | .word name _ => some (name == word, r)
  | _ => some (false, r)

def isEnding : Reading Bool := fun _ r => some (r.token.lexeme == .ending, r)

def isOneOf (marks : List String) : Reading Bool := fun _ r =>
  match r.token.lexeme with
  | .mark mark => some (marks.contains mark, r)
  | _ => some (false, r)

def eatMark (mark : String) : Reading Bool := do
  if ← isMark mark then
    advance
    return true
  else return false

def takeMark (mark : String) : Reading Unit := do
  if ← isMark mark then advance else fail

def takeWord (word : String) : Reading Unit := do
  if ← isWord word then advance else fail

def eatWord (word : String) : Reading Bool := do
  if ← isWord word then
    takeWord word
    return true
  else return false

def anyWord : Reading String := do
  match ← lexeme with
  | .word name _ =>
    skipName
    return name
  | _ => fail

def languageWord : Reading String := do
  match ← lexeme with
  | .word name _ =>
    advance
    return name
  | _ => fail

def isAnyWord : Reading Bool := do
  match ← lexeme with
  | .word _ _ => return true
  | _ => return false

def isBindingWord : Reading Bool := do
  match ← lexeme with
  | .word name _ => return !reservedWords.contains name
  | _ => return false

/-- `await` and `yield` are names only where they are not operators. -/
def checkName (name : String) : Reading Unit := do
  let s ← setting
  flawIf ((s.awaits && name == "await") || (s.yields && name == "yield"))

def bindingName : Reading String := do
  if ← isBindingWord then
    let name ← anyWord
    checkName name
    return name
  else fail

def optionalBindingName : Reading (Option String) := do
  if ← isBindingWord then return some (← bindingName) else return none

def textLiteral : Reading String := do
  match ← lexeme with
  | .text value _ =>
    advance
    return value
  | _ => fail

/-- Whether a statement may end here without a semicolon. -/
def canEnd : Reading Bool := do
  if ← newLine then return true
  match ← lexeme with
  | .ending => return true
  | .mark mark => return mark == ";" || mark == "\x7d"
  | _ => return false

def endStatement : Reading Unit := do
  if ← canEnd then
    let _ ← eatMark ";"
    return ()
  else fail

/-- Items up to a closing mark, with commas between them, and whether a comma stands at the end. The
mark is not taken. -/
def separated (close : String) (item : Reading α) : Nat → Reading (List α × Bool)
  | 0 => fail
  | rounds + 1 => do
    if ← isMark close then return ([], false)
    let first ← item
    if ← isMark close then return ([first], false)
    takeMark ","
    if ← isMark close then return ([first], true)
    let (more, comma) ← separated close item rounds
    return (first :: more, comma)

def repeatWhile (test : Reading Bool) (item : Reading α) : Nat → Reading (List α)
  | 0 => fail
  | rounds + 1 => do
    if ← test then
      let first ← item
      let more ← Reading.repeatWhile test item rounds
      return first :: more
    else return []

/-- Changes a value as often as the step finds something to change. -/
def grow (step : α → Reading (Option α)) : Nat → α → Reading α
  | 0, _ => fail
  | rounds + 1, a => do
    match ← step a with
    | some a => grow step rounds a
    | none => return a

def noteCall (call : ImportCall) : Reading Unit := fun _ r =>
  some ((), { r with calls := call :: r.calls })

def noteDefault (start : Nat) : Reading Unit := fun _ r =>
  some ((), { r with defaults := start :: r.defaults })

/-- The names at these places belong to a pattern after all. -/
def settleDefaults (starts : List Nat) : Reading Unit := fun _ r =>
  some ((), { r with defaults := r.defaults.filter (!starts.contains ·) })

/-- Notes an exported name. No two exports may have one name, except where types allow overloads. -/
def noteExport (name : String) : Reading Unit := fun s r =>
  some ((), { r with
    exported := name :: r.exported
    flawed := r.flawed || (!s.types && r.exported.contains name) })

end Reading

/-- The parts of the grammar that contain each other. -/
inductive Goal where
  /-- An expression without a comma; an arrow function in it may have the type of its result. -/
  | assignment (resultType : Bool)
  | binary (above : Nat)
  | unary
  | operand
  /-- What `new` makes an object of: no call belongs to it. -/
  | callee
  /-- A statement; `alone` where it is the body of another one, without a block. -/
  | statement (alone : Bool)
  | pattern
  /-- An element of markup, up to its last angle bracket, which stays in front. -/
  | element
  | type
  /-- A type without operators between types. -/
  | typeOperand

def Goal.Result : Goal → Type
  | .assignment _ | .binary _ | .unary | .operand | .callee => Expr
  | .statement _ => Stmt
  | .pattern => Pattern
  | .element | .type | .typeOperand => Unit

/-- How the contained parts are read, one level further in. `rounds` bounds the lists at this level;
it is never less than the number of characters left. -/
structure Inner where
  rounds : Nat
  read : (goal : Goal) → Reading goal.Result

namespace Inner

def expression (p : Inner) : Reading Expr := p.read (.assignment true)

def sequence (p : Inner) : Reading Expr := do
  let first ← p.expression
  if ← Reading.isMark "," then
    let more ← Reading.repeatWhile (Reading.eatMark ",") p.expression p.rounds
    return .sequence (first :: more)
  else return first

def type (p : Inner) : Reading Unit := p.read .type

def typeArguments (p : Inner) : Reading Unit := do
  Reading.retake Token.splitAngle
  Reading.takeMark "<"
  let (items, _) ← Reading.separated ">" p.type p.rounds
  Reading.need !items.isEmpty
  Reading.takeMark ">"

def annotation (p : Inner) : Reading Unit := do
  if ← Reading.typed then
    if ← Reading.eatMark ":" then p.type

end Inner

end Realms.Script
