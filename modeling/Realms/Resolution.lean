import Realms.BuildError
import Realms.Sources

/-!
Resolving the specifiers of imports. A relative one names a file of the project, its ending left out
perhaps, or a folder with an index file; every other one is the name of a package.
-/
namespace Realms

inductive Resolution where
  | module (path : ModulePath)
  | package (name : String)
  | unresolved
deriving DecidableEq, Repr, Inhabited

/-- Whether a specifier is taken relative to a module or to the root. -/
def isRelative (specifier : String) : Bool :=
  ["./", "../", "/"].any fun start => start.toList.isPrefixOf specifier.toList

namespace Resolution

/-- The endings that may be left out, the first one preferred. -/
def endings : List String := [".js", ".jsx", ".mjs", ".ts", ".tsx"]

/-- What a specifier may mean, the first one preferred: the file itself, the file with an ending, the
index file of a folder. -/
def candidates (base : ModulePath) : List String :=
  base.text :: endings.map (base.text ++ ·) ++ endings.map (base.text ++ "/index" ++ ·)

def firstOf (isFile : ModulePath → Bool) : List String → Except BuildError Resolution
  | [] => .ok .unresolved
  | candidate :: rest => do
    let path ← ModulePath.ofText candidate
    if isFile path then .ok (.module path) else firstOf isFile rest

end Resolution

def resolve (isFile : ModulePath → Bool) (importer : ModulePath) (specifier : String) :
    Except BuildError Resolution := do
  if !isRelative specifier then .ok (.package specifier)
  else
    let base ← importer.resolveAt specifier
    Resolution.firstOf isFile (Resolution.candidates base)

end Realms
