import Realms.Command.Run

/-!
The program. It reads the part of the disk that a command is about, runs the command on that, makes the
steps that the command has made, and shows its lines. A link counts as what it leads to.
-/
namespace Realms
namespace Program

def absolute (place : Place) : String := "/" ++ "/".intercalate place

def onward (place : Place) (part : String) : Place :=
  if part == "" || part == "." then place
  else if part == ".." then place.dropLast
  else place ++ [part]

/-- The places on the way of a written path, its own one last. -/
def way (here : Place) (text : String) : List Place :=
  let start := if FilePath.isAbsolute text then [] else here
  (FilePath.splitParts text).foldl (fun places part =>
    places ++ [onward (places.getLast?.getD start) part]) [start]

def readNode (place : Place) : IO (Option FileNode) := do
  let path := (← IO.currentDir) / absolute place
  if ← path.isDir then return some .folder
  else
    try
      if (← path.metadata).type == .file then
        return some (.file (← IO.FS.readBinFile path).toList)
      else return none
    catch _ => return none

/-- What stands at a place and below, except below a folder that leads back to an outer one. -/
partial def readTree (outer : List String) (place : Place) : IO (List (Place × FileNode)) := do
  match ← readNode place with
  | none => return []
  | some (.file content) => return [(place, .file content)]
  | some .folder =>
    let path := (← IO.currentDir) / absolute place
    let found := (← IO.FS.realPath path).toString
    if outer.contains found then return []
    try
      let names := (← path.readDir).toList.map (·.fileName)
      let below ← names.mapM fun name => readTree (found :: outer) (place ++ [name])
      return (place, .folder) :: below.flatten
    catch _ => return [(place, .folder)]

/-- Adds what stands on the way of a written path, at its end, and below. -/
def readPath (disk : Disk) (text : String) : IO Disk := do
  let mut disk := disk
  for place in way disk.here text do
    if (disk.node? place).isNone then
      if let some node ← readNode place then disk := disk.put place node
  let place := ((way disk.here text).getLast?).getD disk.here
  let known := disk
  let found := (← readTree [] place).filter fun (place, _) => (known.node? place).isNone
  return { known with nodes := known.nodes ++ found }

def configOf : Command → Option String
  | .build config => some config
  | .serve config _ => some config
  | _ => none

def pathsOf (disk : Disk) (command : Command) : List String :=
  match command, configOf command with
  | .scan root _, _ => [root]
  | _, some file =>
    match Config.load disk file with
    | .ok config => [config.root, config.outDir, Build.stagingOf config.outDir]
    | .error _ => []
  | _, none => []

def readDisk (command : Option Command) : IO Disk := do
  let here := ((← IO.currentDir).toString.splitOn "/").filter (· != "")
  let disk ← ((command.bind configOf).toList).foldlM readPath ⟨[], here⟩
  ((command.map (pathsOf disk)).getD []).foldlM readPath disk

def perform : DiskStep → IO Unit
  | .clear folder => do
    let path := (← IO.currentDir) / folder
    if ← path.pathExists then IO.FS.removeDirAll path
  | .createFolders folder => do
    IO.FS.createDirAll ((← IO.currentDir) / folder)
  | .write file text => IO.FS.writeFile file text
  | .rename source target => IO.FS.rename source target

end Program
end Realms

def main (arguments : List String) : IO UInt32 := do
  let disk ← Realms.Program.readDisk (Realms.Command.ofArguments arguments)
  let (_, result) := Realms.Command.runArguments disk arguments
  result.steps.forM Realms.Program.perform
  let output ← IO.getStdout
  let errors ← IO.getStderr
  result.output.forM output.putStrLn
  result.errors.forM errors.putStrLn
  return result.exitCode.toUInt32
