import Realms.Json.Value
import Realms.ModulePath
import Realms.Sorted

/-!
Shapes of values: what a value must look like to be taken as a record, a list, a name out of a table or
a number. A record is an object, whose other members are ignored, or a list of its fields in order.
-/
namespace Realms.Exchange

open Realms.Json

/-- Reads a value as something, or finds that it has another shape. -/
abbrev Shape (α : Type) := Value → Option α

namespace Shape

def text : Shape String := Value.text?

/-- A whole number of 32 bits. -/
def size : Shape Nat
  | .number (.natural n) => if n < 0x100000000 then some n else none
  | _ => none

def list {α : Type} (item : Shape α) : Shape (List α)
  | .list items => items.mapM item
  | _ => none

/-- If each item has its shape back, so has the list of them. -/
theorem list_map {α : Type} {item : Shape α} {value : α → Value} {found : List α}
    (each : ∀ a ∈ found, item (value a) = some a) : list item (.list (found.map value)) = some found := by
  rw [list]
  induction found with
  | nil => rfl
  | cons a rest ih =>
      have later := ih fun b member => each b (List.mem_cons_of_mem a member)
      rw [List.map_cons, List.mapM_cons, each a List.mem_cons_self, later]
      rfl

def optional {α : Type} (item : Shape α) : Shape (Option α)
  | .null => some none
  | v => (item v).map some

/-- A name out of a table; it may stand as the only key of an object, without a value. -/
def named {α : Type} (ofName? : String → Option α) : Shape α
  | .text name => ofName? name
  | .object [(name, .null)] => ofName? name
  | _ => none

def map {α : Type} (item : Shape α) : Shape (List (String × α))
  | .object members => members.mapM fun (key, v) => (item v).map fun a => (key, a)
  | _ => none

def isRepeated (members : List (String × Value)) (name : String) : Bool :=
  1 < (members.filter (·.1 == name)).length

/-- The fields of a record, none of them written twice; the last `left` may be missing when it is a
list. -/
def fieldsLeaving (left : Nat) (names : List String) : Shape (List (Option Value))
  | .object members =>
    if names.any (isRepeated members) then none else some (names.map (Value.object members).get?)
  | .list items =>
    if items.length ≤ names.length ∧ names.length ≤ items.length + left then
      some (items.map some ++ List.replicate (names.length - items.length) none)
    else none
  | _ => none

def fields (names : List String) : Shape (List (Option Value)) := fieldsLeaving 0 names

def required {α : Type} (item : Shape α) (field : Option Value) : Option α := field >>= item

def withDefault {α : Type} (missing : α) (item : Shape α) : Option Value → Option α
  | none => some missing
  | some v => item v

def optionalField {α : Type} (item : Shape α) : Option Value → Option (Option α) :=
  withDefault none (optional item)

def path : Shape ModulePath := fun v => (text v).map ModulePath.mk

/-- A set of paths, in any order and with repeats. -/
def pathSet : Shape PathSet := fun v => (list path v).map (Sorted.ofList (·.text))

end Shape
end Realms.Exchange
