import Realms.Emission.Exports
import Realms.Json.Write

/-!
The code of generated modules. Paths, ids and specifiers stand in it as quoted texts, names as they
are; the first line of a module that replaces another one says which.
-/
namespace Realms.Emission

open Realms.Json (quoted)

def callName : String := "__realmCallServer"

def registerName : String := "__realmRegisterServerFunction"

def selfName : String := "__realmSelf"

def charsOf (texts : List String) : List Char := texts.flatMap String.toList

def clientReferenceLine (r : Reference) : List Char :=
  charsOf ["export const ", r.exportName, " = Object.freeze(\x7b $$typeof: Symbol.for(",
    quoted Reference.clientMark, "), $$id: ", quoted r.id, ", $$realm: \"client\" \x7d);\n"]

/-- The text of the module that stands for a client module on the server. -/
def clientReferenceText (found : ModuleRecord) (references : List Reference) : List Char :=
  charsOf ["// client references for ", found.path.text, "\n"] ++ references.flatMap clientReferenceLine

def stubLine (r : Reference) : List Char :=
  charsOf ["export const ", r.exportName, " = Object.defineProperties(async function ", r.exportName,
    "(...args) \x7b return ", callName, "(", quoted r.id, ", args); \x7d, \x7b ",
    "$$typeof: \x7b value: Symbol.for(", quoted Reference.serverMark, ") \x7d, ",
    "$$id: \x7b value: ", quoted r.id, " \x7d, ",
    "$$realm: \x7b value: \"serverFunction\" \x7d \x7d);\n"]

/-- The text of the module that stands for a module of functions on the client. -/
def stubText (options : EmissionOptions) (found : ModuleRecord) (references : List Reference) :
    List Char :=
  charsOf ["// server function stubs for ", found.path.text, "\n",
    "import \x7b callServer as ", callName, " \x7d from ", quoted options.transportModule, ";\n"] ++
    references.flatMap stubLine

def registration (r : Reference) : List Char :=
  charsOf [registerName, "(", quoted r.id, ", ", selfName, ".", r.exportName, ");\n"]

def endedSource (source : List Char) : List Char :=
  if source.getLast? == some '\n' then source else source ++ ['\n']

/-- The text of a module of functions with the calls that register them behind its source. It imports
itself, so that what is registered is what callers see under each name. -/
def serverFunctionText (options : EmissionOptions) (found : ModuleRecord)
    (references : List Reference) : List Char :=
  let source := endedSource found.source.toList
  if references.isEmpty then source
  else
    source ++ charsOf ["import \x7b registerServerFunction as ", registerName, " \x7d from ",
      quoted options.registryModule, ";\nimport * as ", selfName, " from ",
      quoted ("./" ++ found.path.fileName), ";\n"] ++ references.flatMap registration

def clientReferenceModule (found : ModuleRecord) (references : List Reference) : String :=
  String.ofList (clientReferenceText found references)

def stubModule (options : EmissionOptions) (found : ModuleRecord) (references : List Reference) :
    String := String.ofList (stubText options found references)

def serverFunctionModule (options : EmissionOptions) (found : ModuleRecord)
    (references : List Reference) : String := String.ofList (serverFunctionText options found references)

end Realms.Emission
