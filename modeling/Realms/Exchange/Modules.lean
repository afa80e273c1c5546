import Realms.BuildError
import Realms.Json.Value
import Realms.ModuleRecord

/-!
Modules and errors as values of the data format.
-/
namespace Realms.Exchange

open Realms.Json

def location (place : Location) : Value :=
  .object [("line", .ofNat place.line), ("column", .ofNat place.column)]

def path (p : ModulePath) : Value := .text p.text

def paths (ps : List ModulePath) : Value := .list (ps.map path)

def realm (r : Realm) : Value := .text r.name

namespace ImportKind

def names : List (ImportKind × String) :=
  [(.static, "static"), (.reExport, "reExport"), (.dynamic, "dynamic")]

end ImportKind

namespace ExportKind

def names : List (ExportKind × String) :=
  [(.binding, "variable"), (.function, "function"), (.asyncFunction, "asyncFunction"),
    (.classBinding, "class"), (.specifier, "specifier"), (.wholeModule, "namespace")]

end ExportKind

def nameIn {α : Type} [DecidableEq α] (names : List (α × String)) (a : α) : Value :=
  .text ((names.find? (·.1 = a)).elim "" Prod.snd)

def importRecord (found : ImportRecord) : Value :=
  .object [("specifier", .text found.specifier), ("kind", nameIn ImportKind.names found.kind),
    ("location", location found.location)]

def exportRecord (found : ExportRecord) : Value :=
  .object [("name", .text found.name), ("kind", nameIn ExportKind.names found.kind),
    ("location", location found.location)]

def moduleRecord (found : ModuleRecord) : Value :=
  .object [("path", path found.path), ("realm", realm found.realm),
    ("imports", .list (found.imports.map importRecord)),
    ("exports", .list (found.exports.map exportRecord)),
    ("defaultExport", .optional location found.defaultExport),
    ("starExports", .list (found.starExports.map location))]

/-- A report, its code under the key that is given. -/
def report (codeKey : String) (e : ErrorReport) : Value :=
  .object [(codeKey, .text e.code), ("errorType", .text ErrorReport.errorType),
    ("message", .text e.message), ("guarantee", .text e.guarantee), ("file", .text e.file),
    ("line", .ofNat e.location.line), ("column", .ofNat e.location.column),
    ("context", .optional .text e.context), ("hints", .texts e.hints)]

def buildError (e : BuildError) : Value := report "error" e.report

end Realms.Exchange
