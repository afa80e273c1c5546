import Realms.Disk

/-!
Changes of a disk as data. A list of steps says what is to be done before anything is done, and is
followed until one step fails.
-/
namespace Realms

inductive DiskStep where
  /-- Removes a folder with all that is in it, if something is there. -/
  | clear (folder : String)
  | createFolders (folder : String)
  | write (file text : String)
  | rename (source target : String)
deriving DecidableEq, Repr, Inhabited

structure DiskProgress where
  disk : Disk
  made : List DiskStep
  /-- The step that failed, and why. No step behind it was tried. -/
  failed : Option (DiskStep × FileFault)
deriving Repr, Inhabited

namespace DiskStep

def subject : DiskStep → String
  | .clear folder => folder
  | .createFolders folder => folder
  | .write file _ => file
  | .rename _ target => target

def make (disk : Disk) : DiskStep → Except FileFault Disk
  | .clear folder => if disk.exists? folder then disk.removeFolder folder else .ok disk
  | .createFolders folder => disk.createFolders folder
  | .write file text => disk.write file (Text.bytesOf text)
  | .rename source target => disk.rename source target

def makeAll : List DiskStep → Disk → DiskProgress
  | [], disk => ⟨disk, [], none⟩
  | step :: rest, disk =>
    match step.make disk with
    | .error fault => ⟨disk, [], some (step, fault)⟩
    | .ok next =>
      let progress := makeAll rest next
      { progress with made := step :: progress.made }

end DiskStep
end Realms
