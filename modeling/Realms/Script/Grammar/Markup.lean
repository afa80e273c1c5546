import Realms.Script.Reading

/-!
Markup: elements with attributes and children. Text between tags is no sequence of tokens, so it is
taken from the source as it stands.
-/
namespace Realms.Script.Grammar

open Reading
open Realms.Text

/-- A name of an element or an attribute: a word whose parts may be joined by hyphens. -/
def markupWord : Reading String := do
  match (← token).lexeme with
  | .word _ false =>
    let text := (← token).start
    let isPart := fun c => isIdentifierPart c || c == '-'
    resume (text.dropWhile isPart)
    return String.ofList (text.takeWhile isPart)
  | _ => fail

def memberWord : Reading String := do
  let found ← markupWord
  if found.contains '-' then fail else return found

def elementName (p : Inner) : Reading String := do
  let first ← markupWord
  if ← eatMark ":" then return first ++ ":" ++ (← markupWord)
  else
    let more ← repeatWhile (eatMark ".") memberWord p.rounds
    return ".".intercalate (first :: more)

/-- An expression between braces, the opening one in front; the closing one stays in front. A comma
in it leaves it readable. -/
def container (p : Inner) (mayBeEmpty : Bool) : Reading Unit := do
  takeMark "\x7b"
  if mayBeEmpty && (← isMark "\x7d") then return ()
  if mayBeEmpty then
    let _ ← eatMark "..."
  let value ← under (fun s => { s with inOperator := true, decorator := false }) p.sequence
  match value with
  | .sequence _ => flaw
  | _ => pure ()
  need (← isMark "\x7d")

/-- The value of an attribute, the equals sign in front. A text has no escapes and may go over
lines. -/
def attributeValue (p : Inner) : Reading Unit := do
  match (skipSpace .plain false (← token).rest).rest with
  | '"' :: text => close '"' text
  | '\x27' :: text => close '\x27' text
  | '\x7b' :: text =>
    resume ('\x7b' :: text)
    container p false
    advance
  | '<' :: text =>
    resume ('<' :: text)
    p.read .element
    advance
  | _ => fail
where
  close (quote : Char) (text : List Char) : Reading Unit :=
    match text.dropWhile (· != quote) with
    | _ :: rest => resume rest
    | [] => fail

def elementAttribute (p : Inner) : Reading Unit := do
  if ← eatMark "\x7b" then
    takeMark "..."
    let _ ← p.expression
    takeMark "\x7d"
  else
    let _ ← markupWord
    if ← eatMark ":" then
      let _ ← markupWord
    if ← isMark "=" then attributeValue p

/-- Children up to the opening bracket of the closing tag, which is in front afterwards. -/
def children (p : Inner) : Nat → Reading Unit
  | 0 => fail
  | rounds + 1 => do
    let text := (← token).rest
    match text.dropWhile (fun c => !"\x7b\x7d<>".toList.contains c) with
    | '\x7b' :: rest =>
      resume ('\x7b' :: rest)
      container p true
      children p rounds
    | '<' :: rest =>
      resume ('<' :: rest)
      if ← ahead (do advance; isMark "/") then return ()
      p.read .element
      children p rounds
    | _ => fail

/-- The closing tag of an element of this name; its last bracket stays in front. Another name leaves
it readable. -/
def closingTag (p : Inner) (name : Option String) : Reading Unit := do
  takeMark "<"
  takeMark "/"
  if ← isMark ">" then flawIf name.isSome
  else
    let found ← elementName p
    flawIf (some found != name)
  need (← isMark ">")

def element (p : Inner) : Reading Unit := do
  takeMark "<"
  if ← isMark ">" then
    children p p.rounds
    closingTag p none
  else
    let name ← elementName p
    if (← typed) && (← isOneOf ["<", "<<"]) then p.typeArguments
    let _ ← repeatWhile (do return (← isMark "\x7b") || (← isAnyWord)) (elementAttribute p) p.rounds
    if ← eatMark "/" then need (← isMark ">")
    else
      need (← isMark ">")
      children p p.rounds
      closingTag p (some name)

end Realms.Script.Grammar
