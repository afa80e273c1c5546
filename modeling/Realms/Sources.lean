import Realms.ModulePath
import Realms.Sorted

/-!
Where the sources of modules come from: finitely many files, each with its text or the reason why it
has none.
-/
namespace Realms

/-- The text of a file, or why it cannot be read. -/
abbrev Content := Except String String

structure Sources where
  /-- The files, each path once. -/
  files : List (ModulePath × Content)
  /-- Why a path that is no file cannot be read. -/
  absent : ModulePath → String

namespace Sources

def find? (sources : Sources) (path : ModulePath) : Option Content :=
  (sources.files.find? (·.1 == path)).map Prod.snd

def contains (sources : Sources) (path : ModulePath) : Bool := (sources.find? path).isSome

def read (sources : Sources) (path : ModulePath) : Content :=
  match sources.find? path with
  | some content => content
  | none => .error (sources.absent path)

/-- Sources from texts. Of several with one path the last one counts. -/
def ofTexts (texts : List (ModulePath × String)) : Sources where
  files := texts.foldl (fun files (path, text) => Sorted.put (·.1.text) (path, .ok text) files) []
  absent path := "no such module: " ++ path.text

end Sources
end Realms
