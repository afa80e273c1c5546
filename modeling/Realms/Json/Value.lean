import Realms.Number.Double

/-!
Values of the data format. An object keeps its members in the order they were written, repeated keys
included; `sorted` gives the form in which free data is kept and written.
-/
namespace Realms.Json

open Realms.Number

/-- A number: whole if it fits 64 bits with its sign, else a double. -/
inductive Number where
  | natural (n : Nat)
  /-- The number below zero with this size. -/
  | negative (n : Nat)
  | double (x : Double)
deriving DecidableEq, Repr, Inhabited

inductive Value where
  | null
  | bool (b : Bool)
  | number (n : Number)
  | text (s : String)
  | list (items : List Value)
  | object (members : List (String × Value))
deriving Repr, Inhabited

/-- The order of texts by their characters, which is the order of their bytes. -/
def keyLe (a b : String) : Bool := a ≤ b

/-- Puts a member into members sorted by key; one of the same key is replaced. -/
def insertMember {α : Type} (key : String) (value : α) : List (String × α) → List (String × α)
  | [] => [(key, value)]
  | (k, v) :: rest =>
    if key < k then (key, value) :: (k, v) :: rest
    else if key == k then (key, value) :: rest
    else (k, v) :: insertMember key value rest

/-- Members sorted by key; the last of several with one key stays. -/
def sortMembers {α : Type} (members : List (String × α)) : List (String × α) :=
  members.foldl (fun sorted (k, v) => insertMember k v sorted) []

mutual

def Value.sorted : Value → Value
  | .list items => .list (sortedItems items)
  | .object members => .object (sortMembers (sortedMembers members))
  | v => v

def sortedItems : List Value → List Value
  | [] => []
  | v :: rest => v.sorted :: sortedItems rest

def sortedMembers : List (String × Value) → List (String × Value)
  | [] => []
  | (k, v) :: rest => (k, v.sorted) :: sortedMembers rest

end

namespace Value

def ofNat (n : Nat) : Value := .number (.natural n)

/-- The value of a member, the last of its key. -/
def get? (v : Value) (key : String) : Option Value :=
  match v with
  | .object members => (members.reverse.find? (·.1 == key)).map Prod.snd
  | _ => none

def text? : Value → Option String
  | .text s => some s
  | _ => none

def optional {α : Type} (f : α → Value) : Option α → Value
  | some a => f a
  | none => .null

def texts (items : List String) : Value := .list (items.map .text)

end Value

end Realms.Json
