/-!
Places in a source as line and column. Only a line feed ends a line, and a column counts characters.
-/
namespace Realms

/-- A line and a column, both from one; zero for both where no place is known. -/
structure Location where
  line : Nat
  column : Nat
deriving DecidableEq, Repr, Inhabited

namespace Location

def none : Location := ⟨0, 0⟩

def first : Location := ⟨1, 1⟩

def step (place : Location) (c : Char) : Location :=
  if c == '\n' then ⟨place.line + 1, 1⟩ else ⟨place.line, place.column + 1⟩

/-- The place behind so many bytes of a text; at most its end. -/
def walk (place : Location) (bytes : Nat) : List Char → Location
  | [] => place
  | c :: rest => if bytes < c.utf8Size then place else walk (place.step c) (bytes - c.utf8Size) rest

/-- The place of a byte offset in a source. An offset beyond the end means the end. -/
def ofOffset (source : String) (offset : Nat) : Location := walk first offset source.toList

def splits (bytes : Nat) : List Char → Bool
  | [] => false
  | c :: rest => if bytes < c.utf8Size then bytes != 0 else splits (bytes - c.utf8Size) rest

end Location
end Realms
