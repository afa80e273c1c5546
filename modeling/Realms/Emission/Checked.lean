import Realms.Emission.Basic
import Realms.ModuleRecord
import Realms.Script.Print

/-!
Checking generated code: it is read again before it is emitted, and what replaces a module is printed
from what was read.
-/
namespace Realms.Emission

open Realms.Script

def codeError (path : ModulePath) (code : List Char) : BuildError :=
  ⟨.generatedCode, path.text, .none, some (String.ofList code)⟩

def leadingComments : Nat → List Char → List (List Char)
  | 0, _ => []
  | rounds + 1, source =>
    match source.dropWhile (·.isWhitespace) with
    | '/' :: '/' :: rest =>
      ('/' :: '/' :: rest.takeWhile (!isLineEnd ·)) ::
        leadingComments rounds (rest.dropWhile (!isLineEnd ·))
    | _ => []

/-- The printed form of code. Code with a form that is never generated stays as it is. -/
def reprint (code : List Char) (found : Script) : String :=
  (Print.script (leadingComments code.length code) found).getD (String.ofList code)

def checkText (path : ModulePath) (code : List Char) : Except BuildError String :=
  match ModuleRecord.scriptIn? path code with
  | some _ => .ok (String.ofList code)
  | none => .error (codeError path code)

/-- Code that is a script, in its printed form. -/
def printText (path : ModulePath) (code : List Char) : Except BuildError String :=
  match ModuleRecord.scriptIn? path code with
  | some found => .ok (reprint code found)
  | none => .error (codeError path code)

def checkCode (path : ModulePath) (code : String) : Except BuildError String :=
  checkText path code.toList

def printCode (path : ModulePath) (code : String) : Except BuildError String :=
  printText path code.toList

end Realms.Emission
