/-!
Lists kept sorted by a text key, each key once. They stand for sets and maps wherever their order
shows in an answer. The order of texts by characters is also their order by bytes.
-/
namespace Realms.Sorted

variable {α : Type} (key : α → String)

/-- Puts an element into a sorted list, unless one of its key is there. -/
def insert (a : α) : List α → List α
  | [] => [a]
  | b :: rest =>
    if key a < key b then a :: b :: rest
    else if key a == key b then b :: rest
    else b :: insert a rest

/-- Puts an element into a sorted list, in the place of one of its key. -/
def put (a : α) : List α → List α
  | [] => [a]
  | b :: rest =>
    if key a < key b then a :: b :: rest
    else if key a == key b then a :: rest
    else b :: put a rest

def insertAll (more : List α) (sorted : List α) : List α :=
  more.foldl (fun sorted a => insert key a sorted) sorted

def ofList (items : List α) : List α := insertAll key items []

def find? (k : String) (items : List α) : Option α := items.find? (key · == k)

def union (xs ys : List α) : List α := insertAll key ys xs

end Realms.Sorted
