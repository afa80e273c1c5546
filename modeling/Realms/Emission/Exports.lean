import Realms.Emission.Basic
import Realms.ModuleRecord
import Realms.Text.Identifier

/-!
The exports of a module that can cross a boundary. Each of them needs a name that stands for itself in
generated code, so a default export, an `export *` and a name that is no plain identifier are problems.
-/
namespace Realms.Emission

/-- The words that no binding of a module can have as its name. -/
def reservedWords : List String :=
  ["await", "break", "case", "catch", "class", "const", "continue", "debugger", "default", "delete",
    "do", "else", "enum", "export", "extends", "false", "finally", "for", "function", "if",
    "implements", "import", "in", "instanceof", "interface", "let", "new", "null", "package",
    "private", "protected", "public", "return", "static", "super", "switch", "this", "throw", "true",
    "try", "typeof", "var", "void", "while", "with", "yield"]

def nameFault? (name : String) : Option NameFault :=
  if !Text.isIdentifierName name.toList then some .notIdentifier
  else if reservedWords.contains name then some .reserved
  else none

def problemAt (found : ModuleRecord) (cause : Cause) (place : Location) : BuildError :=
  ⟨cause, found.path.text, place, none⟩

def exportProblem? (found : ModuleRecord) (item : ExportRecord) : Option BuildError :=
  (nameFault? item.name).map fun fault =>
    problemAt found (.exportName item.name fault) item.location

/-- The problems of the exports of a module: the default export, then each `export *`, then the names. -/
def exportProblems (found : ModuleRecord) : List BuildError :=
  (found.defaultExport.map (problemAt found (.defaultExport found.realm))).toList ++
    found.starExports.map (problemAt found (.starExport found.realm)) ++
    found.exports.filterMap (exportProblem? found)

def crossingNames (found : ModuleRecord) : List String :=
  let names := (found.exports.map (·.name)).filter fun name => (nameFault? name).isNone
  names.foldl (fun seen name => if seen.contains name then seen else seen ++ [name]) []

/-- The references to the exports of a module that cross into a realm. -/
def referencesInto (found : ModuleRecord) (realm : Realm) : List Reference :=
  (crossingNames found).map fun name => .ofExport found.path name realm

structure Crossed where
  references : List Reference
  warnings : List BuildError
deriving DecidableEq, Repr, Inhabited

/-- The exports of a module that cross into a realm, by what is done about its problems. -/
def crossedExports (policy : ExportPolicy) (found : ModuleRecord) (realm : Realm) :
    Except BuildError Crossed :=
  let crossed : Crossed := ⟨referencesInto found realm, exportProblems found⟩
  match policy, crossed.warnings with
  | .error, problem :: _ => .error problem
  | _, _ => .ok crossed

end Realms.Emission
