import Realms.Json.Value

/-!
The store of an application: values by key, and counts among them.
-/
namespace Realms

open Realms.Json

structure Store where
  members : List (String × Value)
deriving Inhabited

namespace Store

def empty : Store := ⟨[]⟩

def get? (store : Store) (key : String) : Option Value :=
  (store.members.find? (·.1 == key)).map Prod.snd

def set (store : Store) (key : String) (value : Value) : Store :=
  ⟨insertMember key value store.members⟩

def size (store : Store) : Nat := store.members.length

def countBound : Nat := 0x8000000000000000

def countOf : Value → Option Int
  | .number (.natural n) => if n < countBound then some n else none
  | .number (.negative n) => some (-n)
  | _ => none

/-- The count at a key. What is missing or is no such number counts as zero. -/
def count (store : Store) (key : String) : Int := ((store.get? key) >>= countOf).getD 0

def countValue (count : Int) : Value :=
  if 0 ≤ count then .number (.natural count.toNat) else .number (.negative count.natAbs)

/-- The count after another one. Counts have 64 bits, so the largest is followed by the smallest. -/
def nextCount (count : Int) : Int := if count + 1 = (countBound : Int) then -(countBound : Int) else count + 1

end Store
end Realms
