import Realms.Script.Grammar.Functions
import Realms.Script.Grammar.Types

/-!
Classes. Their members are checked; only the name of a class is kept.
-/
namespace Realms.Script.Grammar

open Reading

/-- Words that go with a member only where types may be written. -/
def typedMemberWords : List String :=
  ["public", "private", "protected", "readonly", "abstract", "override", "declare"]

def memberWords : List String := ["static", "async", "accessor"]

def canFollowMemberWord : Reading Bool := do
  if ← isOneOf ["[", "\x7b", "*", "..."] then return true
  isKeyAhead

/-- Whether the word in front goes with the member behind it. `static` may end its line; where it has
been before, it is the name of the member. -/
def leadsMember (before : List String) : Reading Bool := ahead do
  match ← lexeme with
  | .word name _ =>
    if !(memberWords ++ typedMemberWords).contains name then return false
    if name == "static" && before.contains "static" then return false
    advance
    if name == "static" then return (← canFollowMemberWord) && !(← isMark "\x7b")
    return !(← newLine) && (← canFollowMemberWord)
  | _ => return false

/-- The words that a word may not stand behind: itself, one of its kind, or one that it goes before. -/
def misplacedBehind (word : String) : List String :=
  match word with
  | "public" | "private" | "protected" =>
    ["public", "private", "protected", "override", "static", "accessor", "readonly", "async", "abstract"]
  | "static" => ["static", "readonly", "async", "accessor", "override"]
  | "override" => ["override", "readonly", "accessor", "async"]
  | other => [other]

def leadingWords (before : List String) : Nat → Reading (List String)
  | 0 => return before
  | rounds + 1 => do
    if ← leadsMember before then
      let word ← languageWord
      flawIf (before.any (misplacedBehind word).contains)
      flawIf (!(← typed) && typedMemberWords.contains word)
      leadingWords (before ++ [word]) rounds
    else return before

def isPlainKey (key : Key) (name : String) : Bool :=
  match key with
  | .name found | .text found => found == name
  | _ => false

inductive AccessorKind where
  | getter
  | setter
deriving DecidableEq

/-- A getter has no parameters, a setter has one. -/
def AccessorKind.fits (kind : AccessorKind) (value : Function) : Bool :=
  match kind, value with
  | .getter, .mk _ _ _ [] _ _ => true
  | .setter, .mk _ _ _ [.rest _] _ _ => false
  | .setter, .mk _ _ _ [_] _ _ => true
  | _, _ => false

def accessorAhead : Reading (Option AccessorKind) := do
  let isLeading := fun word => holdsAhead (do
    takeWord word
    isKeyAhead)
  if ← isLeading "get" then return some .getter
  else if ← isLeading "set" then return some .setter
  else return none

/-- The body of a member may be missing where types may be written. -/
def endMethod (value : Function) : Reading Unit := do
  if !value.hasBody then endStatement

def classAccessor (p : Inner) (kind : AccessorKind) (isStatic : Bool) : Reading Unit := do
  advance
  let key ← key p
  flawIf (!isStatic && isPlainKey key "constructor")
  flawIf (isStatic && isPlainKey key "prototype")
  let value ← functionTail p false false false none
  flawIf (!kind.fits value)
  endMethod value

def classField (p : Inner) : Reading Unit := do
  p.annotation
  if ← eatMark "=" then
    let _ ← under (fun s => { s with awaits := false, yields := false, inOperator := true })
      p.expression
  endStatement

/-- A method or a field of a class. A constructor takes no decorators, and no field is named like it. -/
def classKeyed (p : Inner) (words : List String) (decorated : Bool) : Reading Unit := do
  let isStatic := words.contains "static"
  let isAsync := words.contains "async"
  let isGenerator ← eatMark "*"
  let key ← key p
  let isConstructor := !isStatic && isPlainKey key "constructor"
  flawIf (isPlainKey key "#constructor")
  flawIf (isStatic && isPlainKey key "prototype")
  if ← typed then
    if !(← eatMark "?") then
      if !(← newLine) then
        let _ ← eatMark "!"
  if isGenerator || isAsync || (← isOneOf ["(", "<"]) then
    flawIf (isConstructor && (isAsync || isGenerator || decorated))
    let value ← functionTail p isAsync isGenerator isConstructor none
    endMethod value
  else
    flawIf (isPlainKey key "constructor")
    classField p

def classMember (p : Inner) : Reading Unit := do
  let decorated ← decorators p
  let opensBlock ← holdsAhead (do
    takeWord "static"
    isMark "\x7b")
  if opensBlock then
    flawIf decorated
    advance
    let _ ← under (fun s => { s with awaits := true, yields := false, returns := false }) (block p)
  else
    let words ← leadingWords [] p.rounds
    match ← accessorAhead with
    | some kind => classAccessor p kind (words.contains "static")
    | none =>
      if (← typed) && (← isMark "[") then
        match ← attempt (do indexSignature p; endTypeMember) with
        | some () => return ()
        | none => classKeyed p words decorated
      else classKeyed p words decorated

def classBody (p : Inner) : Reading Unit := do
  takeMark "\x7b"
  let _ ← repeatWhile (do return !(← isMark "\x7d") && !(← isEnding))
    (do if !(← eatMark ";") then classMember p) p.rounds
  takeMark "\x7d"

def heritage (p : Inner) : Reading Unit := do
  if ← eatWord "extends" then
    let _ ← p.read .operand
    if (← typed) && (← isOneOf ["<", "<<"]) then p.typeArguments
  if (← typed) && (← isWord "implements") then
    advance
    p.type
    let _ ← repeatWhile (eatMark ",") p.type p.rounds

def classTail (p : Inner) : Reading (Option String) := do
  takeWord "class"
  let name ← if ← isWord "implements" then pure none else optionalBindingName
  typeParameters p
  heritage p
  under (fun s => { s with inOperator := true, decorator := false, ambient := s.ambient })
    (classBody p)
  return name

end Realms.Script.Grammar
