import Realms.Exchange.Shape
import Realms.Json.Write
import Realms.Page.Basic

/-!
Rows as lines of text. Each line is one value; its tag may stand anywhere in it, and a row or a node may
also be written as the list of its fields, the tag in front.
-/
namespace Realms

open Realms.Json


def propsMember (props : Props) : List (String × Value) :=
  if props.isEmpty then [] else [("props", .object props)]

namespace Node

mutual

def value : Node → Value
  | .text shown => .object [("type", .text "text"), ("text", .text shown)]
  | .element tag props children =>
    .object ([("type", .text "element"), ("tag", .text tag)] ++ propsMember props ++
      (if children.isEmpty then [] else [("children", .list (values children))]))
  | .clientReference id props =>
    .object ([("type", .text "clientReference"), ("id", .text id)] ++ propsMember props)
  | .lazy row props => .object ([("type", .text "lazy"), ("row", .ofNat row)] ++ propsMember props)

def values : List Node → List Value
  | [] => []
  | node :: rest => node.value :: values rest

end

def tags : List String := ["text", "element", "clientReference", "lazy"]

end Node

namespace Row

def value : Row → Value
  | .reference row id => .object [("kind", .text "reference"), ("row", .ofNat row), ("id", .text id)]
  | .tree row root => .object [("kind", .text "tree"), ("row", .ofNat row), ("tree", root.value)]

def line (row : Row) : String := row.value.compact

def tags : List String := ["reference", "tree"]

end Row

structure Tagged where
  tag : Value
  content : Value

namespace Tagged

/-- The tag of an object is the one member of a certain name, that of a list is its first item. -/
def of? (name : String) : Value → Option Tagged
  | .object members =>
    match members.filter (·.1 == name) with
    | [(_, tag)] => some ⟨tag, .object (members.filter (·.1 != name))⟩
    | _ => none
  | .list (tag :: rest) => some ⟨tag, .list rest⟩
  | _ => none

/-- The place of a tag among all tags. It may be given by its place, where that is allowed. -/
def place? (byPlace : Bool) (tags : List String) : Value → Option Nat
  | .text tag => tags.idxOf? tag
  | .number (.natural n) => if byPlace && n < tags.length then some n else none
  | _ => none

end Tagged

mutual

def levelsOf : Value → Nat
  | .list items => levelsOfItems items + 1
  | .object members => levelsOfMembers members + 1
  | _ => 0

def levelsOfItems : List Value → Nat
  | [] => 0
  | v :: rest => max (levelsOf v) (levelsOfItems rest)

def levelsOfMembers : List (String × Value) → Nat
  | [] => 0
  | (_, v) :: rest => max (levelsOf v) (levelsOfMembers rest)

end

namespace Exchange.Shape

def props : Shape Props
  | .object members => some (sortMembers (sortedMembers members))
  | _ => none

def nodeWithin : Nat → Bool → Shape Node
  | 0, _, _ => none
  | levels + 1, byPlace, v => do
    let found ← Tagged.of? "type" v
    match ← Tagged.place? byPlace Node.tags found.tag with
    | 0 =>
      match ← fields ["text"] found.content with
      | [shown] => return .text (← required text shown)
      | _ => none
    | 1 =>
      match ← fieldsLeaving 2 ["tag", "props", "children"] found.content with
      | [tag, propsOf, children] =>
        return .element (← required text tag) (← withDefault [] props propsOf)
          (← withDefault [] (list (nodeWithin levels true)) children)
      | _ => none
    | 2 =>
      match ← fieldsLeaving 1 ["id", "props"] found.content with
      | [id, propsOf] => return .clientReference (← required text id) (← withDefault [] props propsOf)
      | _ => none
    | _ =>
      match ← fieldsLeaving 1 ["row", "props"] found.content with
      | [row, propsOf] => return .lazy (← required size row) (← withDefault [] props propsOf)
      | _ => none

/-- A node within another value, where tags may be given by their places. -/
def innerNode : Shape Node := fun v => nodeWithin (levelsOf v + 1) true v

def node : Shape Node := fun v => nodeWithin (levelsOf v + 1) false v

def rowContent (place : Nat) : Shape Row := fun content => do
  match place with
  | 0 =>
    match ← fields ["row", "id"] content with
    | [row, id] => return .reference (← required size row) (← required text id)
    | _ => none
  | _ =>
    match ← fields ["row", "tree"] content with
    | [row, tree] => return .tree (← required size row) (← required innerNode tree)
    | _ => none

end Exchange.Shape

namespace Row

/-- The tag of a row, refused where it stands if it is none. -/
def readTag (rounds : Nat) (bytes : List UInt8) : Result (Read Nat) :=
  match skipSpace bytes with
  | [] => .error .ended
  | b :: rest =>
    if b == 0x5B || b == 0x7B then .error .unexpected
    else do
      let found ← readScalar true rounds b rest
      match Tagged.place? false tags found.value with
      | some place => .ok ⟨place, found.rest⟩
      | none => .error .unexpected

structure Members where
  tag : Option Nat
  content : List (String × Value)

def readMembers (read : List UInt8 → Result (Read Value)) :
    Nat → Members → List UInt8 → Result (Read Members)
  | 0, _, _ => .error .ended
  | rounds + 1, found, bytes => do
    let key ← readKeyText true (rounds + 1) bytes
    let (found, rest) ←
      if key.value == "kind" then do
        if found.tag.isSome then .error .unexpected
        else
          let tag ← readTag (rounds + 1) (← readColon key.rest)
          pure ({ found with tag := some tag.value }, tag.rest)
      else do
        let value ← read (← readColon key.rest)
        pure ({ found with content := found.content ++ [(key.value, value.value)] }, value.rest)
    match ← readAfter 0x7D rest with
    | .closed rest => return ⟨found, rest⟩
    | .more rest => readMembers read rounds found rest

def ofContent (tag : Option Nat) (content : Value) (rest : List UInt8) : Result (Read Row) :=
  match tag >>= fun place => Exchange.Shape.rowContent place content with
  | some row => .ok ⟨row, rest⟩
  | none => .error .unexpected

def readList (rounds levels : Nat) (bytes : List UInt8) : Result (Read Row) :=
  match skipSpace bytes with
  | [] => .error .ended
  | c :: more =>
    if c == 0x5D then .error .unexpected
    else do
      let tag ← readTag rounds (c :: more)
      match ← readAfter 0x5D tag.rest with
      | .closed rest => ofContent (some tag.value) (.list []) rest
      | .more rest =>
        let items ← readItems (readValue true rounds levels) rounds rest
        ofContent (some tag.value) (.list items.value) items.rest

def readObject (rounds levels : Nat) (bytes : List UInt8) : Result (Read Row) :=
  match skipSpace bytes with
  | [] => .error .ended
  | c :: more =>
    if c == 0x7D then .error .unexpected
    else do
      let found ← readMembers (readValue true rounds levels) rounds ⟨none, []⟩ (c :: more)
      ofContent found.value.tag (.object found.value.content) found.rest

def ofLine (bytes : List UInt8) : Result Row := do
  let rounds := bytes.length + 1
  match skipSpace bytes with
  | [] => .error .ended
  | b :: rest =>
    if b == 0x5B then readList rounds (deepest - 1) rest >>= endOfText
    else if b == 0x7B then readObject rounds (deepest - 1) rest >>= endOfText
    else
      let _ ← readScalar true rounds b rest
      .error .unexpected

end Row
end Realms
