import Realms.FilePath
import Realms.Text.Utf8

/-!
Disks: files and folders by their place, without links. Written paths are followed name by name from
the root or from the working folder, and two dots lead back to the folder that holds the current one.
-/
namespace Realms

inductive FileNode where
  | file (content : List UInt8)
  | folder
deriving DecidableEq, Repr, Inhabited

inductive FileFault where
  | notFound
  | isFolder
  | notFolder
  | taken
  | badText
  | badName
deriving DecidableEq, Repr, Inhabited

namespace FileFault

def message : FileFault → String
  | .notFound => "No such file or directory (os error 2)"
  | .isFolder => "Is a directory (os error 21)"
  | .notFolder => "Not a directory (os error 20)"
  | .taken => "File exists (os error 17)"
  | .badText => "stream did not contain valid UTF-8"
  | .badName => "file name contained an unexpected NUL byte"

end FileFault

/-- A place on a disk: the names from the root down. -/
abbrev Place := List String

structure Disk where
  /-- What stands at each place, the root apart. -/
  nodes : List (Place × FileNode)
  here : Place
deriving Repr, Inhabited

namespace Disk

/-- What stands at a place. The root is always a folder. -/
def node? (disk : Disk) (place : Place) : Option FileNode :=
  if place.isEmpty then some .folder else (disk.nodes.find? (·.1 == place)).map Prod.snd

def put (disk : Disk) (place : Place) (node : FileNode) : Disk :=
  { disk with nodes := disk.nodes.filter (·.1 != place) ++ [(place, node)] }

def needFolder (disk : Disk) (place : Place) : Except FileFault Unit :=
  match disk.node? place with
  | some .folder => .ok ()
  | some (.file _) => .error .notFolder
  | none => .error .notFound

/-- Follows parts of a path from a place. Only the last place need not be there. -/
def follow (disk : Disk) : Place → List String → Except FileFault Place
  | place, [] => .ok place
  | place, part :: rest => do
    disk.needFolder place
    if part == "" || part == "." then disk.follow place rest
    else if part == ".." then disk.follow place.dropLast rest
    else if part.toList.contains '\x00' then .error .badName
    else disk.follow (place ++ [part]) rest

def locate (disk : Disk) (text : String) : Except FileFault Place :=
  if text == "" then .error .notFound
  else disk.follow (if FilePath.isAbsolute text then [] else disk.here) (FilePath.splitParts text)

def find? (disk : Disk) (text : String) : Option FileNode :=
  match disk.locate text with
  | .ok place => disk.node? place
  | .error _ => none

def exists? (disk : Disk) (text : String) : Bool := (disk.find? text).isSome

def isFile (disk : Disk) (text : String) : Bool :=
  match disk.find? text with
  | some (.file _) => true
  | _ => false

def isFolder (disk : Disk) (text : String) : Bool := disk.find? text == some .folder

def read (disk : Disk) (text : String) : Except FileFault String := do
  match disk.node? (← disk.locate text) with
  | none => .error .notFound
  | some .folder => .error .isFolder
  | some (.file content) =>
    match Text.decode? content with
    | some found => .ok found
    | none => .error .badText

/-- Creates a folder in one that is there. Slashes behind its name do not count. -/
def createFolder (disk : Disk) (text : String) : Except FileFault Disk := do
  let place ← disk.locate (FilePath.withoutSlashes text)
  if (disk.node? place).isSome then .error .taken else .ok (disk.put place .folder)

def ensureFolder (disk : Disk) (text : String) : Except FileFault Disk :=
  match disk.createFolder text with
  | .ok disk => .ok disk
  | .error fault => if disk.isFolder text then .ok disk else .error fault

/-- Creates a folder and what must hold it, over so many levels at most. -/
def createFoldersWithin : Nat → Disk → String → Except FileFault Disk
  | 0, _, _ => .error .notFound
  | levels + 1, disk, text =>
    if text == "" then .ok disk
    else
      match disk.createFolder text with
      | .ok disk => .ok disk
      | .error .notFound =>
        match FilePath.parent? text with
        | none => .error .notFound
        | some parent => do (← createFoldersWithin levels disk parent).ensureFolder text
      | .error fault => if disk.isFolder text then .ok disk else .error fault

def createFolders (disk : Disk) (text : String) : Except FileFault Disk :=
  createFoldersWithin (text.length + 1) disk text

def write (disk : Disk) (text : String) (content : List UInt8) : Except FileFault Disk := do
  let place ← disk.locate text
  match disk.node? place with
  | some .folder => .error .isFolder
  | _ => .ok (disk.put place (.file content))

def removeFolder (disk : Disk) (text : String) : Except FileFault Disk := do
  let place ← disk.locate text
  disk.needFolder place
  .ok { disk with nodes := disk.nodes.filter fun (found, _) => !place.isPrefixOf found }

/-- The new place of what stands at or below a place that moves. -/
def moved (source target place : Place) : Place :=
  if source.isPrefixOf place then target ++ place.drop source.length else place

/-- Moves a folder to a place that is free. Slashes behind the name of that do not count. -/
def rename (disk : Disk) (source target : String) : Except FileFault Disk := do
  let start ← disk.locate source
  disk.needFolder start
  let goal ← disk.locate (FilePath.withoutSlashes target)
  match disk.node? goal with
  | some (.file _) => .error .notFolder
  | some .folder => .error .taken
  | none =>
    .ok { disk with nodes := disk.nodes.map fun (place, node) => (moved start goal place, node) }

/-- The files at or below a place, each by the names below that place. -/
def filesBelow (disk : Disk) (place : Place) : List (Place × List UInt8) :=
  disk.nodes.filterMap fun (found, node) =>
    match node with
    | .file content =>
      if place.isPrefixOf found then some (found.drop place.length, content) else none
    | .folder => none

end Disk
end Realms
