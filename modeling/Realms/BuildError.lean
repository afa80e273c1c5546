import Realms.FilePath
import Realms.Linkage
import Realms.Location
import Realms.ModulePath

/-!
Errors of a build: what went wrong, where, and which guarantee would have been broken. The wording of
all messages is in this module.
-/
namespace Realms

inductive Guarantee where
  | parse
  | read
  | resolve
  | outsideRoot
  | defaultExport
  | starExport
  | exportName
  | duplicateId
  | externalDivergence
  | generatedCode
  | write
deriving DecidableEq, Repr, Inhabited

namespace Guarantee

def all : List Guarantee :=
  [.parse, .read, .resolve, .outsideRoot, .defaultExport, .starExport, .exportName, .duplicateId,
    .externalDivergence, .generatedCode, .write]

def code : Guarantee → String
  | .parse => "RB-ERR-PARSE"
  | .read => "RB-ERR-READ"
  | .resolve => "RB-ERR-RESOLVE"
  | .outsideRoot => "RB-ERR-OUTSIDE-ROOT"
  | .defaultExport => "RB-ERR-DEFAULT-EXPORT"
  | .starExport => "RB-ERR-STAR-EXPORT"
  | .exportName => "RB-ERR-EXPORT-NAME"
  | .duplicateId => "RB-ERR-DUPLICATE-ID"
  | .externalDivergence => "RB-ERR-EXTERNAL-DIVERGENCE"
  | .generatedCode => "RB-ERR-GENERATED-CODE"
  | .write => "RB-ERR-WRITE"

def statement : Guarantee → String
  | .parse => "Every module in the build graph is syntactically valid."
  | .read => "Every module in the build graph has readable source."
  | .resolve => "Every relative import resolves to a file inside the project."
  | .outsideRoot => "Reference ids are derived from paths inside the project root."
  | .defaultExport =>
    "Default exports never cross a realm boundary; every crossing export has a named id."
  | .starExport => "Every export crossing a realm boundary is statically enumerable."
  | .exportName => "Every crossing export name is a valid identifier."
  | .duplicateId => "Reference ids are unique within a build."
  | .externalDivergence =>
    "Shared modules resolve to one instance across every server-side build."
  | .generatedCode => "Generated stubs and references are valid modules."
  | .write => "Artifacts are written completely or not at all."

def statementOf (code : String) : String :=
  match all.find? (·.code == code) with
  | some found => found.statement
  | none => "Unknown invariant."

end Guarantee

inductive NameFault where
  | notIdentifier
  | reserved
deriving DecidableEq, Repr, Inhabited

structure LinkedIn where
  linkage : Linkage
  graph : GraphKind
deriving DecidableEq, Repr, Inhabited

inductive Cause where
  | unparsable
  | unreadable (reason : String)
  | unresolved (specifier : String)
  | escapesRoot (raw : String)
  | namesNoFile (raw : String)
  | outsideRoot (path root : String)
  | defaultExport (realm : Realm)
  | starExport (realm : Realm)
  | exportName (name : String) (fault : NameFault)
  | duplicateId (id : String)
  | inlined (graph : GraphKind) (path : ModulePath) (realm : Realm)
  | mixedLinkage (target : ModulePath) (first second : LinkedIn)
  | generatedCode
  | unwritten (reason : String)
  | manifestUnreadable (reason : String)
  | manifestMalformed
deriving DecidableEq, Repr, Inhabited

namespace Cause

def guarantee : Cause → Guarantee
  | .unparsable => .parse
  | .unreadable _ => .read
  | .unresolved _ => .resolve
  | .escapesRoot _ | .namesNoFile _ | .outsideRoot _ _ => .outsideRoot
  | .defaultExport _ => .defaultExport
  | .starExport _ => .starExport
  | .exportName _ _ => .exportName
  | .duplicateId _ => .duplicateId
  | .inlined _ _ _ | .mixedLinkage _ _ _ => .externalDivergence
  | .generatedCode => .generatedCode
  | .unwritten _ | .manifestUnreadable _ | .manifestMalformed => .write

def message : Cause → String
  | .unparsable => "Failed to parse module"
  | .unreadable reason => "Failed to read module: " ++ reason
  | .unresolved specifier => "Cannot resolve import `" ++ specifier ++ "`"
  | .escapesRoot raw => "Path `" ++ raw ++ "` escapes the project root"
  | .namesNoFile raw => "Path `" ++ raw ++ "` does not name a file"
  | .outsideRoot path root => "`" ++ path ++ "` is outside the project root `" ++ root ++ "`"
  | .defaultExport realm =>
    "Default export of a " ++ realm.name ++ " module cannot cross the realm boundary"
  | .starExport realm =>
    "`export *` in a " ++ realm.name ++ " module hides which names cross the realm boundary"
  | .exportName name .notIdentifier => "Export name `" ++ name ++ "` is not an identifier"
  | .exportName name .reserved => "Export name `" ++ name ++ "` is a reserved word"
  | .duplicateId id => "Reference id `" ++ id ++ "` is produced twice"
  | .inlined graph path realm =>
    graph.title ++ " graph inlines `" ++ path.text ++ "` (" ++ realm.name ++
      "), which must stay external"
  | .mixedLinkage target first second =>
    "`" ++ target.text ++ "` is " ++ first.linkage.title ++ " in the " ++ first.graph.title ++
      " graph but " ++ second.linkage.title ++ " in the " ++ second.graph.title ++ " graph"
  | .generatedCode => "Generated module does not parse"
  | .unwritten reason => "Failed to write build output: " ++ reason
  | .manifestUnreadable reason => "Failed to read manifest: " ++ reason
  | .manifestMalformed => "Malformed manifest"

def hints : Cause → List String
  | .unresolved _ => ["Relative imports must name a file inside the project root."]
  | .duplicateId _ => ["Rename one of the exports or move one of the modules."]
  | _ => []

end Cause

structure BuildError where
  cause : Cause
  file : String
  location : Location
  context : Option String
deriving DecidableEq, Repr, Inhabited

/-- An error with all its wording, as it is shown and sent. -/
structure ErrorReport where
  code : String
  message : String
  guarantee : String
  file : String
  location : Location
  context : Option String
  hints : List String
deriving DecidableEq, Repr, Inhabited

namespace ErrorReport

def errorType : String := "BOUNDARY_INVARIANT_VIOLATION"

def plain (code message file : String) (location : Location) : ErrorReport :=
  ⟨code, message, Guarantee.statementOf code, file, location, none, []⟩

def display (e : ErrorReport) : String :=
  "[" ++ e.code ++ "] " ++ e.message ++ " (" ++ e.file ++ ":" ++ toString e.location.line ++ ":" ++
    toString e.location.column ++ ")"

end ErrorReport

namespace BuildError

def atFile (cause : Cause) (file : String) : BuildError := ⟨cause, file, Location.none, none⟩

def report (e : BuildError) : ErrorReport :=
  ⟨e.cause.guarantee.code, e.cause.message, e.cause.guarantee.statement, e.file, e.location, e.context,
    e.cause.hints⟩

def display (e : BuildError) : String := e.report.display

end BuildError

namespace ModulePath

def ofText (raw : String) : Except BuildError ModulePath :=
  match normalize raw with
  | .ok path => .ok path
  | .error .escapes => .error (.atFile (.escapesRoot raw) raw)
  | .error .namesNothing => .error (.atFile (.namesNoFile raw) raw)

/-- The module path of a file. A relative path is taken from the root. -/
def ofFile (root file : String) : Except BuildError ModulePath :=
  if !FilePath.isAbsolute file then ofText file
  else
    let root := FilePath.clean root
    let file := FilePath.clean file
    match FilePath.below? root file with
    | some below => ofText below.text
    | none => .error (.atFile (.outsideRoot file.text root.text) file.text)

def resolveAt (importer : ModulePath) (specifier : String) : Except BuildError ModulePath :=
  match ofText (importer.joinedText specifier) with
  | .ok path => .ok path
  | .error e =>
    .error { e with file := importer.text, context := some ("import `" ++ specifier ++ "`") }

end ModulePath
end Realms
