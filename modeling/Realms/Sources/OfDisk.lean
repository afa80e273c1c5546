import Realms.Disk
import Realms.Sources

/-!
Sources on a disk: the files below the root of a project.
-/
namespace Realms

namespace Sources

def contentOf (content : List UInt8) : Content :=
  match Text.decode? content with
  | some text => .ok text
  | none => .error FileFault.badText.message

def pathOf (names : Place) : ModulePath := ⟨"/".intercalate names⟩

/-- The folder of a project, whose files are named from the working folder where no root is written. -/
def rootFolder (root : String) : String := if root == "" then "." else root

/-- The files below a root. A path that is no file is refused for the reason that the disk gives. -/
def ofDisk (disk : Disk) (root : String) : Sources where
  files :=
    match disk.locate (rootFolder root) with
    | .ok place => (disk.filesBelow place).map fun (names, content) => (pathOf names, contentOf content)
    | .error _ => []
  absent path :=
    match disk.read (FilePath.ofModule root path) with
    | .error fault => fault.message
    | .ok _ => FileFault.notFound.message

end Sources
end Realms
