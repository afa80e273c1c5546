import Realms.Proofs.Script.Lines
import Realms.Script.Names

/-!
Scopes: the names that the statements of a script declare for all of it, and the names that they use and leave to others
to declare. A form that the tree does not keep uses nothing here, so what is free in a statement is all that it uses if
the statement has no such form; generated lines have none.
-/
namespace Realms.Script

/-- The names that a declaration binds around it. Types are not values, nor is a function that is only described. -/
def Declaration.boundNames : Declaration → List String
  | .bindings _ items => items.flatMap Variable.names
  | .function value => if value.hasBody then value.name.toList else []
  | .classOf name => name.toList
  | .enum name | .scope name _ | .aliasOf name => [name]
  | .type _ => []

def ImportFrom.boundNames (found : ImportFrom) : List String :=
  if found.typeOnly then []
  else
    found.defaultName.toList ++ found.wholeName.toList ++
      ((found.names.getD []).filter (!·.typeOnly)).map ImportName.bound

/-- The names that a statement declares itself, not those that it imports. -/
def Stmt.ownNames : Stmt → List String
  | .declared value => value.boundNames
  | .exportDeclared _ ambient value => if ambient then [] else value.boundNames
  | .exportDefault _ runs name => if runs then name.toList else []
  | _ => []

/-- The names that a statement declares for the script that it stands in. Blocks are not looked into. -/
def Stmt.boundNames : Stmt → List String
  | .importFrom found => found.boundNames
  | statement => statement.ownNames

mutual

/-- The names that an expression uses and that nothing within it declares. -/
def Expr.freeNames : Expr → List String
  | .name name => [name]
  | .member object _ => object.freeNames
  | .index object key => object.freeNames ++ key.freeNames
  | .call callee arguments => callee.freeNames ++ exprsFreeNames arguments
  | .array items _ | .sequence items => exprsFreeNames items
  | .object members _ => membersFreeNames members
  | .function value => value.freeNames
  | .binary _ left right => left.freeNames ++ right.freeNames
  | .assign _ target value => target.freeNames ++ value.freeNames
  | .unary _ inner | .spread inner | .paren inner | .importCall inner | .typed inner => inner.freeNames
  | .text _ | .hole | .other => []

def exprsFreeNames : List Expr → List String
  | [] => []
  | e :: more => e.freeNames ++ exprsFreeNames more

def Member.freeNames : Member → List String
  | .entry key value => key.freeNames ++ value.freeNames
  | .short name _ => [name]
  | .spread value => value.freeNames
  | .method => []

def membersFreeNames : List Member → List String
  | [] => []
  | member :: more => member.freeNames ++ membersFreeNames more

def Key.freeNames : Key → List String
  | .computed value => value.freeNames
  | .name _ | .text _ | .number => []

/-- The names that the keys and defaults of a pattern use. -/
def Pattern.freeNames : Pattern → List String
  | .object members => patternMembersFreeNames members
  | .array items => patternsFreeNames items
  | .withDefault target value => target.freeNames ++ value.freeNames
  | .rest target => target.freeNames
  | .name _ | .hole => []

def patternsFreeNames : List Pattern → List String
  | [] => []
  | pattern :: more => pattern.freeNames ++ patternsFreeNames more

def PatternMember.freeNames : PatternMember → List String
  | .entry key target => key.freeNames ++ target.freeNames
  | .rest target => target.freeNames

def patternMembersFreeNames : List PatternMember → List String
  | [] => []
  | member :: more => member.freeNames ++ patternMembersFreeNames more

/-- A function declares its name, its parameters and what its body declares, within it. -/
def Function.freeNames : Function → List String
  | .mk _ _ name parameters _ body =>
    (patternsFreeNames parameters ++ stmtsFreeNames body).filter fun used =>
      !(name.toList ++ itemPatternNames parameters ++ body.flatMap Stmt.boundNames).contains used

def Variable.freeNames : Variable → List String
  | .mk target none => target.freeNames
  | .mk target (some value) => target.freeNames ++ value.freeNames

def variablesFreeNames : List Variable → List String
  | [] => []
  | item :: more => item.freeNames ++ variablesFreeNames more

def Declaration.freeNames : Declaration → List String
  | .bindings _ items => variablesFreeNames items
  | .function value => value.freeNames
  | .scope _ body => (stmtsFreeNames body).filter fun used => !(body.flatMap Stmt.boundNames).contains used
  | .classOf _ | .enum _ | .type _ | .aliasOf _ => []

/-- The names that a statement uses. Those that it declares itself may be among them. -/
def Stmt.freeNames : Stmt → List String
  | .expression value | .result (some value) | .exportValue _ value => value.freeNames
  | .declared value => value.freeNames
  | .exportDeclared _ ambient value => if ambient then [] else value.freeNames
  | .exportNames found => if found.specifier.isNone then found.names.map ExportName.inner else []
  | .described _ | .result none | .importFrom _ | .exportAll _ | .exportDefault _ _ _ | .empty | .other => []

def stmtsFreeNames : List Stmt → List String
  | [] => []
  | stmt :: more => stmt.freeNames ++ stmtsFreeNames more

end

/-- Generated statements behind a script's own ones keep apart from them and from one another: no name is declared
twice, and a name that the generated ones use is declared by none of the others, so that it means what they import
under it, or else what is there in every script. -/
structure Hygienic (own generated : List Stmt) : Prop where
  distinct : ((own ++ generated).flatMap Stmt.boundNames).Nodup
  meant : ∀ name ∈ generated.flatMap Stmt.freeNames,
    name ∉ own.flatMap Stmt.boundNames ++ generated.flatMap Stmt.ownNames

namespace Line

/-- The names that a line declares, the imported ones among them. -/
def bound : Line → List String
  | taken _ bound _ _ | whole bound _ _ => [bound]
  | constant name _ _ => [name]
  | alone _ _ => []

def free : Line → List String
  | constant _ _ value | alone _ value => value.freeNames
  | taken _ _ _ _ | whole _ _ _ => []

end Line

variable {lines : List Line} {stmts : List Stmt}

/-- What the statements of lines give is what the lines give, wherever each of them starts. -/
theorem flatMap_lines {α : Type} {ofStmt : Stmt → List α} {ofLine : Line → List α}
    (same : ∀ line start, ofStmt (line.stmt start) = ofLine line) (are : List.Forall₂ Line.Is lines stmts) :
    stmts.flatMap ofStmt = lines.flatMap ofLine := by
  induction are with
  | nil => rfl
  | @cons line _ _ _ is _ ih =>
      obtain ⟨start, rfl⟩ := is
      rw [List.flatMap_cons, List.flatMap_cons, same, ih]

namespace Line

theorem stmt_boundNames (line : Line) (start : Nat) : (line.stmt start).boundNames = line.bound := by
  cases line
  all_goals rfl

theorem stmt_ownNames (line : Line) (start : Nat) : (line.stmt start).ownNames = line.names := by
  cases line
  all_goals rfl

theorem stmt_freeNames (line : Line) (start : Nat) : (line.stmt start).freeNames = line.free := by
  cases line with
  | constant name _ value =>
      simp [stmt, Script.constant, Stmt.freeNames, Declaration.freeNames, variablesFreeNames, Variable.freeNames,
        Pattern.freeNames, free]
  | taken => rfl
  | whole => rfl
  | alone => rfl

end Line

/-- What keeps lines apart from the statements in front of them. -/
theorem hygienic_lines (own : List Stmt) (are : List.Forall₂ Line.Is lines stmts) :
    Hygienic own stmts ↔ (own.flatMap Stmt.boundNames ++ lines.flatMap Line.bound).Nodup ∧
      ∀ name ∈ lines.flatMap Line.free, name ∉ own.flatMap Stmt.boundNames ++ lines.flatMap Line.names := by
  rw [← flatMap_lines Line.stmt_boundNames are, ← flatMap_lines Line.stmt_ownNames are,
    ← flatMap_lines Line.stmt_freeNames are, ← List.flatMap_append]
  exact ⟨fun hygienic => ⟨hygienic.distinct, hygienic.meant⟩, fun ⟨distinct, meant⟩ => ⟨distinct, meant⟩⟩

end Realms.Script
