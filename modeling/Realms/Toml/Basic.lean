/-!
Configuration texts: named items, grouped in tables. An item is a text, a list of items or a table; the
numbers, truth values and dates of the format have no use here and are not read.
-/
namespace Realms.Toml

/-- How a table came to be, which decides who may add to it. -/
inductive Origin where
  /-- Named on the way to a table of its own heading. -/
  | implied
  /-- Named in front of a dot in a key. -/
  | dotted
  | headed
  | closed
deriving DecidableEq, Repr, Inhabited

inductive Item where
  | text (value : String)
  | list (items : List Item)
  | table (origin : Origin) (members : List (String × Item))
deriving Inhabited

/-- The members of a table, in the order in which they are named. -/
abbrev Members := List (String × Item)

namespace Members

def find? (members : Members) (key : String) : Option Item :=
  (List.find? (·.1 == key) members).map Prod.snd

def replace (members : Members) (key : String) (item : Item) : Members :=
  if List.any members (·.1 == key) then
    List.map (fun (k, old) => if k == key then (k, item) else (k, old)) members
  else members ++ [(key, item)]

/-- Adds an item under a key with dots. Nothing is named twice, and tables with a heading or braces of
their own take no more members in this way. -/
def add : List String → Item → Members → Option Members
  | [], _, _ => none
  | [key], item, members =>
    if (members.find? key).isSome then none else some (members.replace key item)
  | key :: rest, item, members =>
    match members.find? key with
    | none => do return members.replace key (.table .dotted (← add rest item []))
    | some (.table .dotted inner) => do
      return members.replace key (.table .dotted (← add rest item inner))
    | some _ => none

/-- Opens the table of a heading. A table has one heading, and none if it came from a key. -/
def openTable : List String → Members → Option Members
  | [], _ => none
  | [key], members =>
    match members.find? key with
    | none => some (members.replace key (.table .headed []))
    | some (.table .implied inner) => some (members.replace key (.table .headed inner))
    | some _ => none
  | key :: rest, members =>
    match members.find? key with
    | none => do return members.replace key (.table .implied (← openTable rest []))
    | some (.table .closed _) => none
    | some (.table origin inner) => do return members.replace key (.table origin (← openTable rest inner))
    | some _ => none

def addAt : List String → List String → Item → Members → Option Members
  | [], keys, item, members => members.add keys item
  | key :: path, keys, item, members =>
    match members.find? key with
    | some (.table origin inner) => do return members.replace key (.table origin (← addAt path keys item inner))
    | _ => none

end Members
end Realms.Toml
