import Realms.Page.Basic

/-!
Taking a tree apart into rows, and putting it together again. References are numbered from one in the
order of their first use in the tree; the tree itself comes last.
-/
namespace Realms

namespace Node

/-- The number of an id among those used so far, and the ids used after it. -/
def numberOf (ids : List String) (id : String) : Nat × List String :=
  match ids.idxOf? id with
  | some index => (index + 1, ids)
  | none => (ids.length + 1, ids ++ [id])

mutual

/-- The tree with row numbers in the place of ids, and the ids used after it. -/
def lower (ids : List String) : Node → Node × List String
  | .clientReference id props =>
    let (row, ids) := numberOf ids id
    (.lazy row props, ids)
  | .element tag props children =>
    let (children, ids) := lowerAll ids children
    (.element tag props children, ids)
  | .text shown => (.text shown, ids)
  | .lazy row props => (.lazy row props, ids)

def lowerAll (ids : List String) : List Node → List Node × List String
  | [] => ([], ids)
  | node :: rest =>
    let (node, ids) := lower ids node
    let (rest, ids) := lowerAll ids rest
    (node :: rest, ids)

end

def referenceRows : Nat → List String → List Row
  | _, [] => []
  | first, id :: rest => .reference first id :: referenceRows (first + 1) rest

def rows (root : Node) : List Row :=
  let (tree, ids) := root.lower []
  referenceRows 1 ids ++ [.tree 0 tree]

end Node

structure ReceivedPage where
  /-- The ids by row, sorted; the last one sent for a row counts. -/
  references : List (Nat × String)
  root : Option Node
deriving Inhabited

namespace ReceivedPage

def empty : ReceivedPage := ⟨[], none⟩

def putReference (row : Nat) (id : String) : List (Nat × String) → List (Nat × String)
  | [] => [(row, id)]
  | (r, i) :: rest =>
    if row < r then (row, id) :: (r, i) :: rest
    else if row == r then (row, id) :: rest
    else (r, i) :: putReference row id rest

def apply (page : ReceivedPage) : Row → ReceivedPage
  | .reference row id => { page with references := putReference row id page.references }
  | .tree _ tree => { page with root := some tree }

def applyAll (page : ReceivedPage) (rows : List Row) : ReceivedPage := rows.foldl apply page

def reference? (page : ReceivedPage) (row : Nat) : Option String :=
  (page.references.find? (·.1 == row)).map Prod.snd

mutual

def resolveNode (page : ReceivedPage) : Node → Except PageError Node
  | .lazy row props =>
    match page.reference? row with
    | some id => .ok (.clientReference id props)
    | none => .error (.unknownRow row)
  | .element tag props children => do return .element tag props (← resolveNodes page children)
  | .text text => .ok (.text text)
  | .clientReference id props => .ok (.clientReference id props)

def resolveNodes (page : ReceivedPage) : List Node → Except PageError (List Node)
  | [] => .ok []
  | node :: rest => do return (← resolveNode page node) :: (← resolveNodes page rest)

end

/-- The page with all its references, if a tree has come. -/
def resolve (page : ReceivedPage) : Except PageError (Option Node) :=
  match page.root with
  | none => .ok none
  | some root => do return some (← page.resolveNode root)

end ReceivedPage
end Realms
