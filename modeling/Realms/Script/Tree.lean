/-!
Syntax trees of scripts. A tree keeps what the rest of the library asks for: the directives, the
imports and exports with the places where they start, the names that patterns bind, and the
expressions that generated modules are made of. Types are read and dropped, and a form that nothing
asks about is `other`.

Places are byte offsets into the source.
-/
namespace Realms
namespace Script

structure ImportName where
  imported : String
  bound : String
  typeOnly : Bool
deriving DecidableEq, Repr, Inhabited

/-- `import … from "specifier"`; `names` is absent when there are no braces. -/
structure ImportFrom where
  start : Nat
  specifier : String
  typeOnly : Bool
  defaultName : Option String
  wholeName : Option String
  names : Option (List ImportName)
deriving DecidableEq, Repr, Inhabited

structure ExportName where
  start : Nat
  inner : String
  exported : String
  typeOnly : Bool
deriving DecidableEq, Repr, Inhabited

/-- `export { … }`, from another module or not. -/
structure ExportNames where
  start : Nat
  typeOnly : Bool
  names : List ExportName
  specifier : Option String
deriving DecidableEq, Repr, Inhabited

structure ExportAll where
  start : Nat
  typeOnly : Bool
  exported : Option String
  specifier : String
deriving DecidableEq, Repr, Inhabited

inductive VariableKind where
  | var
  | letVar
  | const
  | managed
deriving DecidableEq, Repr, Inhabited

mutual

inductive Expr where
  | name (name : String)
  | text (value : String)
  | member (object : Expr) (name : String)
  | index (object : Expr) (key : Expr)
  | call (callee : Expr) (arguments : List Expr)
  | array (items : List Expr) (trailingComma : Bool)
  | hole
  | object (members : List Member) (trailingComma : Bool)
  | function (value : Function)
  | unary (operator : String) (operand : Expr)
  | binary (operator : String) (left : Expr) (right : Expr)
  | assign (operator : String) (target : Expr) (value : Expr)
  | spread (value : Expr)
  | paren (inner : Expr)
  | sequence (items : List Expr)
  /-- `import(…)`; `source` is its first argument. -/
  | importCall (source : Expr)
  /-- An expression with a type assertion behind it. -/
  | typed (inner : Expr)
  | other

inductive Member where
  | entry (key : Key) (value : Expr)
  /-- A name that is its own value; in a pattern it may have a default. -/
  | short (name : String) (start : Nat)
  | spread (value : Expr)
  | method

inductive Key where
  | name (name : String)
  | text (value : String)
  | computed (value : Expr)
  | number

inductive Pattern where
  | name (name : String)
  | object (members : List PatternMember)
  | array (items : List Pattern)
  | hole
  | withDefault (target : Pattern) (value : Expr)
  | rest (target : Pattern)

inductive PatternMember where
  | entry (key : Key) (target : Pattern)
  | rest (target : Pattern)

inductive Function where
  | mk (isAsync : Bool) (isGenerator : Bool) (name : Option String) (parameters : List Pattern)
      (hasBody : Bool) (body : List Stmt)

inductive Variable where
  | mk (target : Pattern) (value : Option Expr)

inductive Declaration where
  | bindings (kind : VariableKind) (items : List Variable)
  | function (value : Function)
  | classOf (name : Option String)
  | enum (name : String)
  | scope (name : String) (body : List Stmt)
  /-- What only types know: an interface or another type, or else the description of a module. -/
  | type (name : Option String)
  | aliasOf (name : String)

inductive Stmt where
  | expression (value : Expr)
  | result (value : Option Expr)
  | declared (value : Declaration)
  /-- A declaration that only describes something. -/
  | described (value : Declaration)
  | importFrom (value : ImportFrom)
  | exportNames (value : ExportNames)
  | exportAll (value : ExportAll)
  /-- `ambient` marks a declaration that only describes something. -/
  | exportDeclared (start : Nat) (ambient : Bool) (value : Declaration)
  /-- `name` is that of what is declared with it; an interface and a function without a body do not
  run. -/
  | exportDefault (start : Nat) (runs : Bool) (name : Option String)
  /-- The default export is the value of an expression. -/
  | exportValue (start : Nat) (value : Expr)
  | empty
  | other

end

instance : Inhabited Expr := ⟨.other⟩
instance : Inhabited Member := ⟨.method⟩
instance : Inhabited Key := ⟨.number⟩
instance : Inhabited Pattern := ⟨.hole⟩
instance : Inhabited Function := ⟨.mk false false none [] false []⟩
instance : Inhabited Stmt := ⟨.other⟩
instance : Inhabited Declaration := ⟨.type none⟩

/-- An `import(…)` call of a text: the text and where the call starts. -/
structure ImportCall where
  specifier : String
  start : Nat
deriving DecidableEq, Repr, Inhabited

namespace Function

def isAsync : Function → Bool
  | .mk isAsync _ _ _ _ _ => isAsync

def name : Function → Option String
  | .mk _ _ name _ _ _ => name

def hasBody : Function → Bool
  | .mk _ _ _ _ hasBody _ => hasBody

end Function
end Script

/-- A whole script. `importCalls` lists the calls anywhere in it, in the order of the source. -/
structure Script where
  directives : List String
  body : List Script.Stmt
  importCalls : List Script.ImportCall
deriving Inhabited

end Realms
