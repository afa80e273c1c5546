import Realms.Proofs.Script.Scopes

/-!
How a script uses a name: the arguments of each call of it, and every other place where it stands. A form that the tree
does not keep may use any name, so it counts as such a place. Scopes are not told apart here: a name that something
within the script declares is found as well.
-/
namespace Realms.Script

/-- What is called is a name, in parentheses or not. -/
def Expr.isName (name : String) : Expr → Bool
  | .name own => own == name
  | .paren inner => inner.isName name
  | _ => false

mutual

/-- The uses of a name in an expression: the arguments where it is called, and `none` anywhere else. -/
def Expr.usesOf (name : String) : Expr → List (Option (List Expr))
  | .name own => if own == name then [none] else []
  | .member object _ => object.usesOf name
  | .index object key => object.usesOf name ++ key.usesOf name
  | .call callee arguments =>
    (if callee.isName name then [some arguments] else callee.usesOf name) ++ exprsUsesOf name arguments
  | .array items _ | .sequence items => exprsUsesOf name items
  | .object members _ => membersUsesOf name members
  | .function value => value.usesOf name
  | .binary _ left right => left.usesOf name ++ right.usesOf name
  | .assign _ target value => target.usesOf name ++ value.usesOf name
  | .unary _ inner | .spread inner | .paren inner | .importCall inner | .typed inner => inner.usesOf name
  | .text _ | .hole => []
  | .other => [none]

def exprsUsesOf (name : String) : List Expr → List (Option (List Expr))
  | [] => []
  | e :: more => e.usesOf name ++ exprsUsesOf name more

def Member.usesOf (name : String) : Member → List (Option (List Expr))
  | .entry key value => key.usesOf name ++ value.usesOf name
  | .short own _ => if own == name then [none] else []
  | .spread value => value.usesOf name
  | .method => [none]

def membersUsesOf (name : String) : List Member → List (Option (List Expr))
  | [] => []
  | member :: more => member.usesOf name ++ membersUsesOf name more

def Key.usesOf (name : String) : Key → List (Option (List Expr))
  | .computed value => value.usesOf name
  | .name _ | .text _ | .number => []

def Pattern.usesOf (name : String) : Pattern → List (Option (List Expr))
  | .object members => patternMembersUsesOf name members
  | .array items => patternsUsesOf name items
  | .withDefault target value => target.usesOf name ++ value.usesOf name
  | .rest target => target.usesOf name
  | .name _ | .hole => []

def patternsUsesOf (name : String) : List Pattern → List (Option (List Expr))
  | [] => []
  | pattern :: more => pattern.usesOf name ++ patternsUsesOf name more

def PatternMember.usesOf (name : String) : PatternMember → List (Option (List Expr))
  | .entry key target => key.usesOf name ++ target.usesOf name
  | .rest target => target.usesOf name

def patternMembersUsesOf (name : String) : List PatternMember → List (Option (List Expr))
  | [] => []
  | member :: more => member.usesOf name ++ patternMembersUsesOf name more

def Function.usesOf (name : String) : Function → List (Option (List Expr))
  | .mk _ _ _ parameters _ body => patternsUsesOf name parameters ++ stmtsUsesOf name body

def Variable.usesOf (name : String) : Variable → List (Option (List Expr))
  | .mk target none => target.usesOf name
  | .mk target (some value) => target.usesOf name ++ value.usesOf name

def variablesUsesOf (name : String) : List Variable → List (Option (List Expr))
  | [] => []
  | item :: more => item.usesOf name ++ variablesUsesOf name more

def Declaration.usesOf (name : String) : Declaration → List (Option (List Expr))
  | .bindings _ items => variablesUsesOf name items
  | .function value => value.usesOf name
  | .scope _ body => stmtsUsesOf name body
  | .classOf _ | .enum _ | .aliasOf _ => [none]
  | .type _ => []

/-- What a module imports and what it only describes is no use of a name within it. -/
def Stmt.usesOf (name : String) : Stmt → List (Option (List Expr))
  | .expression value | .result (some value) | .exportValue _ value => value.usesOf name
  | .declared value => value.usesOf name
  | .exportDeclared _ ambient value => if ambient then [] else value.usesOf name
  | .exportNames found =>
    if found.specifier.isNone then (found.names.filter (·.inner == name)).map fun _ => none else []
  | .described _ | .result none | .importFrom _ | .exportAll _ | .empty => []
  | .exportDefault _ _ _ | .other => [none]

def stmtsUsesOf (name : String) : List Stmt → List (Option (List Expr))
  | [] => []
  | stmt :: more => stmt.usesOf name ++ stmtsUsesOf name more

end

namespace Line

def usesOf (name : String) : Line → List (Option (List Expr))
  | constant _ _ value | alone _ value => value.usesOf name
  | taken _ _ _ _ | whole _ _ _ => []

theorem stmt_usesOf (name : String) (line : Line) (start : Nat) : (line.stmt start).usesOf name = line.usesOf name := by
  cases line with
  | constant bound _ value =>
      simp [stmt, Script.constant, Stmt.usesOf, Declaration.usesOf, variablesUsesOf, Variable.usesOf, Pattern.usesOf,
        usesOf]
  | taken => rfl
  | whole => rfl
  | alone => rfl

end Line

end Realms.Script
