import Realms.Proofs.Script.Gives

/-!
The places that are kept of a script. Imports and exports keep where they start, and so does each name between the
braces of an export; every such place is within the text.
-/
namespace Realms.Script

open Grammar Reading

variable {p : Inner} {n : Nat} {s : Setting}

/-- The places that a statement keeps. -/
def Stmt.places : Stmt → List Nat
  | .importFrom found => [found.start]
  | .exportNames found => found.start :: found.names.map ExportName.start
  | .exportAll found => [found.start]
  | .exportDeclared start _ _ | .exportDefault start _ _ | .exportValue start _ => [start]
  | _ => []

/-- No place of the statement is behind the end of a text of this size. -/
def Stmt.Within (size : Nat) (stmt : Stmt) : Prop := ∀ place ∈ stmt.places, place ≤ size

namespace Stmt.Within

variable {size start : Nat}

theorem other : Within size .other := nofun

theorem declared (found : Declaration) : Within size (.declared found) := nofun

theorem described (found : Declaration) : Within size (.described found) := nofun

theorem expression (value : Expr) : Within size (.expression value) := nofun

theorem result (value : Option Expr) : Within size (.result value) := nofun

theorem empty : Within size .empty := nofun

theorem starting {stmt : Stmt} (places : stmt.places = [start]) (within : start ≤ size) : stmt.Within size := by
  intro place member
  rw [places] at member
  obtain rfl := List.mem_singleton.mp member
  exact within

end Stmt.Within

section Items

variable {start : Nat}

theorem exportName_gives (typeOnly : Bool) : (exportName typeOnly).Gives s fun name => name.start ≤ s.size := by
  unfold exportName
  refine .bind place_gives fun start within => ?_
  exact .after fun pair => .after fun _ => .after fun _ => .pure within

theorem exportNames_gives (within : start ≤ s.size) (typeOnly : Bool) :
    (exportNames p start typeOnly).Gives s (Stmt.Within s.size) := by
  have names (found : List (Bool × ExportName)) (each : ∀ name ∈ found, name.2.start ≤ s.size)
      (specifier : Option String) :
      Stmt.Within s.size (.exportNames ⟨start, typeOnly, found.map Prod.snd, specifier⟩) := by
    intro place member
    rcases List.mem_cons.mp member with rfl | named
    · exact within
    · simp only [List.map_map, List.mem_map] at named
      obtain ⟨name, listed, rfl⟩ := named
      exact each name listed
  unfold exportNames
  refine .after fun _ => .bind (separated_gives (P := fun name => name.2.start ≤ s.size) ?_ _) fun found each => ?_
  · exact .after fun isText => .bind (exportName_gives typeOnly) fun name within => .pure within
  · refine .after fun _ => .after fun isFrom => ?_
    split
    · exact .after fun specifier => .pure (names _ each _)
    · exact .after fun _ => .after fun _ => .pure (names _ each _)

theorem imported_gives (within : start ≤ s.size) (typeOnly : Bool) (defaultName : Option String) :
    (importTail.imported p start typeOnly defaultName).Gives s (Stmt.Within s.size) := by
  unfold importTail.imported
  exact .after fun _ => .after fun _ => .after fun _ => .pure (.starting rfl within)

theorem importTail_gives (within : start ≤ s.size) : (importTail p start).Gives s (Stmt.Within s.size) :=
  ImportForms.importTail_gives {
    bare := fun _ => .starting rfl within
    imported := fun typeOnly defaultName _ => imported_gives within typeOnly defaultName
    renamed := fun _ _ _ => .declared _ }

theorem Stmt.Within.exportForms (within : start ≤ s.size) : ExportForms p s (Stmt.Within s.size) start where
  other := .other
  names := exportNames_gives within
  all := fun typeOnly => exportAll_always typeOnly fun _ _ => .starting rfl within
  default := exportDefault_always (fun _ _ => .starting rfl within) fun _ => .starting rfl within
  declared := exportDeclared_always fun _ _ => .starting rfl within
  renamed := fun _ _ _ _ _ _ _ => .starting rfl within

end Items

theorem Stmt.Within.forms (r : Reader) : Forms p s r (Stmt.Within s.size) where
  other := .other
  empty := .empty
  result := .result
  bindings := fun _ => .always .declared
  classOf := fun _ => .declared _
  function := .always fun _ => .declared _
  value := expressionStatement_gives .other .expression r
  typed := fun _ => typedStatement_gives .described .declared
  imported := .bind place_gives fun _ within => .after fun _ => importTail_gives within
  exported := exportStatement_gives fun _ => Stmt.Within.exportForms

/-- Every place that is kept of the statements of a text is within it. -/
theorem Passes.within {r last : Reader} {stmts : List Stmt} (passes : Passes n s r stmts last) :
    ∀ stmt ∈ stmts, stmt.Within s.size :=
  passes.all fun _ => Stmt.Within.forms

end Realms.Script
