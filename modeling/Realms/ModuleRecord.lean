import Realms.Location
import Realms.ModulePath
import Realms.Realm
import Realms.Script.Names
import Realms.Sorted

/-!
Module records: what a build knows about one module. The imports come in the order of the source, those
of statements before the calls; the exports are those that a plain script has when it runs.
-/
namespace Realms

open Script

inductive ImportKind where
  | static
  | reExport
  | dynamic
deriving DecidableEq, Repr, Inhabited

structure ImportRecord where
  specifier : String
  kind : ImportKind
  location : Location
deriving DecidableEq, Repr, Inhabited

inductive ExportKind where
  | binding
  | function
  | asyncFunction
  | classBinding
  | specifier
  /-- All of another module under one name. -/
  | wholeModule
deriving DecidableEq, Repr, Inhabited

structure ExportRecord where
  name : String
  kind : ExportKind
  location : Location
deriving DecidableEq, Repr, Inhabited

structure ModuleRecord where
  path : ModulePath
  realm : Realm
  source : String
  imports : List ImportRecord
  exports : List ExportRecord
  defaultExport : Option Location
  starExports : List Location
deriving DecidableEq, Repr, Inhabited

structure Surface where
  imports : List ImportRecord
  exports : List ExportRecord
  /-- The last default export counts. -/
  defaultExport : Option Location
  starExports : List Location
deriving DecidableEq, Repr, Inhabited

namespace Surface

def empty : Surface := ⟨[], [], none, []⟩

def append (a b : Surface) : Surface where
  imports := a.imports ++ b.imports
  exports := a.exports ++ b.exports
  defaultExport := b.defaultExport <|> a.defaultExport
  starExports := a.starExports ++ b.starExports

def ofImport (found : ImportRecord) : Surface := { empty with imports := [found] }

def ofName (locate : Nat → Location) (found : ExportName) : Surface :=
  if found.typeOnly then empty
  else if found.exported == "default" then { empty with defaultExport := some (locate found.start) }
  else { empty with exports := [⟨found.exported, .specifier, locate found.start⟩] }

end Surface

def exportKindOf : Declaration → ExportKind
  | .function value => if value.isAsync then .asyncFunction else .function
  | .classOf _ => .classBinding
  | _ => .binding

/-- What a statement imports and exports. Imports and exports of types are left out. -/
def Surface.ofStatement (locate : Nat → Location) : Stmt → Surface
  | .importFrom found =>
    if found.typeOnly then empty else ofImport ⟨found.specifier, .static, locate found.start⟩
  | .exportNames found =>
    if found.typeOnly then empty
    else
      let source := match found.specifier with
        | some specifier => ofImport ⟨specifier, .reExport, locate found.start⟩
        | none => empty
      found.names.foldl (fun surface name => surface.append (ofName locate name)) source
  | .exportAll found =>
    if found.typeOnly then empty
    else
      let location := locate found.start
      let source := ofImport ⟨found.specifier, .reExport, location⟩
      match found.exported with
      | some name => { source with exports := [⟨name, .wholeModule, location⟩] }
      | none => { source with starExports := [location] }
  | .exportDeclared start ambient found =>
    if ambient then empty
    else
      { empty with
        exports := found.valueNames.map fun name => ⟨name, exportKindOf found, locate start⟩ }
  | .exportDefault start _ _ | .exportValue start _ =>
    { empty with defaultExport := some (locate start) }
  | _ => empty

def Surface.ofStatements (locate : Nat → Location) (body : List Stmt) : Surface :=
  body.foldl (fun surface statement => surface.append (ofStatement locate statement)) empty

abbrev SharedSet := PathSet

/-- A declaration in the configuration goes before a directive. -/
def realmFor (shared : SharedSet) (path : ModulePath) (named : Realm) : Realm :=
  if shared.contains path then .shared else named

def classifyModule (shared : SharedSet) (path : ModulePath) (source : String) : Realm :=
  realmFor shared path (Realm.classify source)

namespace ModuleRecord

def ofScript (shared : SharedSet) (path : ModulePath) (source : String) (script : Script) :
    ModuleRecord :=
  let locate := Location.ofOffset source
  let surface := Surface.ofStatements locate script.body
  let calls := script.importCalls.map fun call =>
    (⟨call.specifier, .dynamic, locate call.start⟩ : ImportRecord)
  { path, source
    realm := realmFor shared path (Realm.ofDirectives script.directives)
    imports := surface.imports ++ calls
    exports := surface.exports
    defaultExport := surface.defaultExport
    starExports := surface.starExports }

/-- The script in a text, if it keeps all rules of modules with its path. -/
def scriptIn? (path : ModulePath) (text : List Char) : Option Script :=
  match readText path.allowsTypes text with
  | some found => if found.flawed then none else some found.script
  | none => none

def script? (path : ModulePath) (source : String) : Option Script := scriptIn? path source.toList

def parse? (shared : SharedSet) (path : ModulePath) (source : String) : Option ModuleRecord :=
  (script? path source).map (ofScript shared path source)

end ModuleRecord
end Realms
