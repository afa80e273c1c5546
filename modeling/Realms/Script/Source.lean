import Realms.Script.Grammar.Statements

/-!
Whole scripts. The grammar ties its parts together here: each part reads the ones it contains one
level further in, and the number of levels is bounded by the length of the source.
-/
namespace Realms.Script

open Grammar

/-- The parts of the grammar, with a bound on how deep they may contain each other. -/
def readAt : Nat → (goal : Goal) → Reading goal.Result
  | 0, _ => Reading.fail
  | rounds + 1, goal =>
    let p : Inner := ⟨rounds, readAt rounds⟩
    match goal with
    | .assignment resultType => assignment p resultType
    | .binary above => binary p above
    | .unary => unary p
    | .operand => operand p
    | .callee => callee p
    | .statement alone => statement p alone
    | .pattern => bindingPattern p
    | .element => element p
    | .type => anyType p
    | .typeOperand => operandType p

/-- More levels than a source of this length can use: no part needs more than a few of them to take
a character. -/
def depthFor (length : Nat) : Nat := 16 * length + 64

def moduleSetting (types : Bool) (size : Nat) : Setting where
  size
  types
  inOperator := true
  yields := false
  awaits := true
  returns := false
  decorator := false
  ambient := false
  conditionalTypes := true

def sourceStatements (p : Inner) : Reading (List Stmt) :=
  Reading.repeatWhile (do return !(← Reading.isEnding)) (p.read (.statement false)) p.rounds

def skipInterpreter (source : List Char) : List Char :=
  match source with
  | '#' :: '!' :: rest => rest.dropWhile (!isLineEnd ·)
  | rest => rest

structure SourceRead where
  script : Script
  flawed : Bool

def leadingTexts : List Stmt → List String
  | .expression (.text value) :: more => value :: leadingTexts more
  | _ => []

/-- Reads the text of a module. `none` stands for one that cannot be read to its end. -/
def readText (types : Bool) (text : List Char) : Option SourceRead := do
  let depth := depthFor text.length
  let setting := moduleSetting types (Reading.byteCount text)
  let (items, reader) ←
    sourceStatements ⟨depth, readAt depth⟩ setting (Reader.start (skipInterpreter text))
  let directives := leadingTexts items
  return {
    script := ⟨directives, items.drop directives.length, reader.calls.reverse⟩
    flawed := reader.flawed || !reader.defaults.isEmpty }

def readSource (types : Bool) (source : String) : Option SourceRead := readText types source.toList

end Realms.Script
