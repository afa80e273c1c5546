import Realms.Album
import Realms.Command.Arguments
import Realms.Discovery
import Realms.Output
import Realms.Sources.OfDisk

/-!
Running commands: what each shows, how it ends, and what it changes on the disk.
-/
namespace Realms

structure CommandResult where
  exitCode : Nat
  output : List String
  errors : List String
  steps : List DiskStep
deriving DecidableEq, Repr, Inhabited

namespace Command

structure Failure where
  message : String
  causes : List String
deriving DecidableEq, Repr, Inhabited

namespace Failure

def ofBuild (e : BuildError) : Failure := ⟨e.display, []⟩

def ofConfig (e : ConfigError) : Failure :=
  match e with
  | .unreadable _ reason => ⟨e.message, [reason]⟩
  | _ => ⟨e.message, []⟩

def lines (failure : Failure) : List String :=
  ("Error: " ++ failure.message) ::
    (if failure.causes.isEmpty then []
    else ["", "Caused by:"] ++ failure.causes.map fun cause => "    " ++ cause)

end Failure

def failed (failure : Failure) (shown : List String) (steps : List DiskStep) : CommandResult :=
  ⟨1, [], shown ++ failure.lines, steps⟩

def padded (width : Nat) (text : String) : String :=
  text ++ String.ofList (List.replicate (width - text.length) ' ')

def moduleLine (found : DiscoveredModule) : String :=
  padded 16 found.realm.name ++ " " ++ found.path.text ++ "  [" ++ ", ".intercalate found.exports ++ "]"

def scanSummary (found : Discovery) : String :=
  toString found.modules.length ++ " modules, " ++ toString found.boundary.length ++
    " boundary modules, " ++ toString found.errors.length ++ " errors"

/-- Lists the modules of a folder that are not plain ones of the server. -/
def scanFolder (disk : Disk) (root : String) (shared : List String) : CommandResult :=
  match shared.mapM ModulePath.ofText with
  | .error e => failed (.ofBuild e) [] []
  | .ok shared =>
    let found := Discovery.discover disk (PathSet.ofList shared) root
    let listed := found.modules.filter (·.realm != .server)
    ⟨0, listed.map moduleLine ++ [scanSummary found], found.errors.map BuildError.display, []⟩

def orphanLine (found : DiscoveredModule) : String :=
  "warning: " ++ found.realm.name ++ " module " ++ found.path.text ++ " is not reachable from any entry"

def buildSummary (manifest : Manifest) (file : String) : String :=
  "Built " ++ toString manifest.artifacts.length ++ " artifacts (" ++
    toString manifest.clientReferences.length ++ " client references, " ++
    toString manifest.serverFunctions.length ++ " server functions) → " ++ file

def compileProject (disk : Disk) (config : Config) : Except BuildError Build :=
  Build.compile config.buildOptions (.ofDisk disk config.root)

def discoverProject (disk : Disk) (config : Config) (made : Build) : Discovery :=
  Discovery.discover disk made.partition.shared config.root

/-- What is shown besides the outcome: forms that were left out, and modules that nothing reaches. -/
def warningLines (disk : Disk) (config : Config) (made : Build) : List String :=
  (made.emission.warnings.map fun e => "warning: " ++ e.display) ++
    ((discoverProject disk config made).orphans made.partition).map orphanLine

def buildProject (disk : Disk) (file : String) : Disk × CommandResult :=
  match Config.load disk file with
  | .error e => (disk, failed (.ofConfig e) [] [])
  | .ok config =>
    match compileProject disk config with
    | .error e => (disk, failed (.ofBuild e) [] [])
    | .ok made =>
      let warnings := warningLines disk config made
      let progress := made.write config.outDir disk
      match Build.written config.outDir progress with
      | .error e => (progress.disk, failed (.ofBuild e) warnings progress.made)
      | .ok manifest =>
        (progress.disk, ⟨0, [buildSummary made.manifest manifest], warnings, progress.made⟩)

def appOfProject (disk : Disk) (file : String) : Except Failure Service.App :=
  match Config.load disk file with
  | .error e => .error (.ofConfig e)
  | .ok config =>
    match compileProject disk config with
    | .error e => .error ⟨"building " ++ config.root, [e.display]⟩
    | .ok made =>
      match Album.appOfManifest config.endpoint Album.standardAlbums made.manifest with
      | .ok app => .ok app
      | .error (.registry e) => .error ⟨"refusing to serve: " ++ e.message, []⟩
      | .error e => .error ⟨e.message, []⟩

/-- Prepares the service of a project. It ends there: no connection can be opened. -/
def serveProject (disk : Disk) (file : String) (port : Nat) : CommandResult :=
  match appOfProject disk file with
  | .ok _ => failed ⟨"binding port " ++ toString port, ["Connections are not supported"]⟩ [] []
  | .error failure => failed failure [] []

def run (disk : Disk) : Command → Disk × CommandResult
  | .scan root shared => (disk, scanFolder disk root shared)
  | .build config => buildProject disk config
  | .serve config port => (disk, serveProject disk config port)
  | .help topic => (disk, ⟨0, topic.lines, [], []⟩)

/-- Runs what arguments mean. Arguments that mean nothing have an exit code of their own. -/
def runArguments (disk : Disk) (arguments : List String) : Disk × CommandResult :=
  match ofArguments arguments with
  | some command => command.run disk
  | none => (disk, ⟨2, [], HelpTopic.all.lines, []⟩)

end Command
end Realms
