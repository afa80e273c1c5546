import Realms.Build
import Realms.Disk
import Realms.Toml.Read

/-!
The configuration of a project: where its modules are, which of them are entries or shared, and where
the output goes. Paths in it are relative to the folder of its file.
-/
namespace Realms

structure Config where
  root : String
  entries : List String
  shared : List String
  outDir : String
  endpoint : String
  registryModule : Option String
  transportModule : Option String
  policy : ExportPolicy
deriving DecidableEq, Repr, Inhabited

inductive ConfigError where
  | unreadable (file reason : String)
  | malformed (file : String)
  | noEntries
  | relativeEndpoint (endpoint : String)
  /-- The output would replace the project. -/
  | outputHoldsRoot (outDir root : String)
deriving DecidableEq, Repr, Inhabited

namespace ConfigError

def message : ConfigError → String
  | .unreadable file reason => "Failed to read config " ++ file ++ ": " ++ reason
  | .malformed file => "Invalid config " ++ file ++ ": TOML parse error"
  | .noEntries => "Invalid config: \x60entries\x60 must not be empty"
  | .relativeEndpoint endpoint =>
    "Invalid config: \x60endpoint\x60 must be an absolute path, got \x60" ++ endpoint ++ "\x60"
  | .outputHoldsRoot outDir root =>
    "Invalid config: \x60out_dir\x60 " ++ outDir ++ " must not be or contain the project root " ++ root

end ConfigError

namespace Config

def fileName : String := "realm.toml"

def standardEndpoint : String := "/__realm"

open Toml

def fields : List String :=
  ["root", "entries", "shared", "out_dir", "endpoint", "registry_module", "transport_module",
    "default_export_policy"]

def asText : Item → Option String
  | .text s => some s
  | _ => none

def asTexts : Item → Option (List String)
  | .list items => items.mapM asText
  | _ => none

def isEmptyItem : Item → Bool
  | .list [] => true
  | .table _ [] => true
  | _ => false

/-- A policy by its name, which may also be the only key of a table that holds nothing. -/
def asPolicy : Item → Option ExportPolicy
  | .text name => ExportPolicy.ofName? name
  | .table _ [(name, item)] => if isEmptyItem item then ExportPolicy.ofName? name else none
  | _ => none

def field {α : Type} (members : Members) (key : String) (missing : α) (read : Item → Option α) :
    Option α :=
  match members.find? key with
  | some item => read item
  | none => some missing

def ofMembers (members : Members) : Option Config := do
  if members.any fun (key, _) => !fields.contains key then none
  else
    let entries ← (members.find? "entries") >>= asTexts
    return {
      root := ← field members "root" "." asText
      entries
      shared := ← field members "shared" [] asTexts
      outDir := ← field members "out_dir" "dist" asText
      endpoint := ← field members "endpoint" standardEndpoint asText
      registryModule := ← field members "registry_module" none fun item => (asText item).map some
      transportModule := ← field members "transport_module" none fun item => (asText item).map some
      policy := ← field members "default_export_policy" .error asPolicy }

/-- Checks what the shape alone does not. The output folder is replaced as a whole, so it must not hold
the project. -/
def check (config : Config) : Except ConfigError Unit :=
  if config.entries.isEmpty then .error .noEntries
  else if !FilePath.isAbsolute config.endpoint then .error (.relativeEndpoint config.endpoint)
  else if (FilePath.clean config.root).startsWith (FilePath.clean config.outDir) then
    .error (.outputHoldsRoot config.outDir config.root)
  else .ok ()

def under (base : String) (config : Config) : Config :=
  { config with root := FilePath.join base config.root, outDir := FilePath.join base config.outDir }

/-- The configuration in a text, next to a folder. `file` is named if the text is none. -/
def ofText (file base source : String) : Except ConfigError Config :=
  match (Toml.read? source).bind ofMembers with
  | none => .error (.malformed file)
  | some config => do
    let config := config.under base
    config.check
    return config

def ofSource (base source : String) : Except ConfigError Config :=
  ofText (FilePath.join base fileName) base source

def load (disk : Disk) (file : String) : Except ConfigError Config :=
  match disk.read file with
  | .error fault => .error (.unreadable file fault.message)
  | .ok source => ofText file ((FilePath.parent? file).getD ".") source

def emissionOptions (config : Config) : EmissionOptions where
  registryModule := config.registryModule.getD EmissionOptions.standard.registryModule
  transportModule := config.transportModule.getD EmissionOptions.standard.transportModule
  policy := config.policy

def buildOptions (config : Config) : BuildOptions :=
  ⟨config.root, config.entries, config.shared, config.emissionOptions⟩

end Config
end Realms
