import Realms.Command.Basic

/-!
What arguments mean. They are read from left to right, so help is shown if it is asked for before
anything that means nothing.
-/
namespace Realms

/-- Arguments taken apart: values of options by name, and the other ones. -/
structure Arguments where
  options : List (String × String)
  others : List String
deriving DecidableEq, Repr, Inhabited

namespace Arguments

def empty : Arguments := ⟨[], []⟩

def addOption (found : Arguments) (name value : String) : Arguments :=
  { found with options := found.options ++ [(name, value)] }

def addOther (found : Arguments) (value : String) : Arguments :=
  { found with others := found.others ++ [value] }

def valuesOf (found : Arguments) (name : String) : List String :=
  (found.options.filter (·.1 == name)).map Prod.snd

def single? (found : Arguments) (name missing : String) : Option String :=
  match found.valuesOf name with
  | [] => some missing
  | [value] => some value
  | _ => none

/-- A written path is never empty. -/
def path? (text : String) : Option String := if text == "" then none else some text

/-- A whole number in digits, perhaps behind a plus sign. -/
def number? (text : String) : Option Nat :=
  let digits := match text.toList with
    | '+' :: rest => rest
    | cs => cs
  if digits.isEmpty || !digits.all Char.isDigit then none
  else some (digits.foldl (fun n c => n * 10 + (c.toNat - 48)) 0)

/-- The number of a port, which has sixteen bits. -/
def port? (text : String) : Option Nat :=
  match number? text with
  | some n => if n < 65536 then some n else none
  | none => none

end Arguments

namespace Command

/-- Whether an argument looks like an option. A single dash does not. -/
def looksLikeOption (argument : String) : Bool := argument.startsWith "-" && argument != "-"

/-- Whether an argument asks for help. The short form may have more letters behind it. -/
def asksForHelp (argument : String) : Bool := argument == "--help" || argument.startsWith "-h"

def cutAtEquals (argument : String) : Option (String × String) :=
  match argument.toList.dropWhile (· != '=') with
  | _ :: value => some (String.ofList (argument.toList.takeWhile (· != '=')), String.ofList value)
  | [] => none

structure Form where
  topic : HelpTopic
  options : List String
  /-- What arguments mean. The first ones of a list that means something mean something as well. -/
  meaning : Arguments → Option Command

/-- Reads arguments behind those that are found. Behind two dashes there are no options. -/
def Form.read (form : Form) : List String → Arguments → Option Command
  | [], found => form.meaning found
  | argument :: rest, found =>
    if (form.meaning found).isNone then none
    else if argument == "--" then form.meaning (rest.foldl Arguments.addOther found)
    else if asksForHelp argument then some (.help form.topic)
    else if !looksLikeOption argument then form.read rest (found.addOther argument)
    else
      match cutAtEquals argument with
      | some (name, value) =>
        if form.options.contains name then form.read rest (found.addOption name value) else none
      | none =>
        if !form.options.contains argument then none
        else
          match rest with
          | value :: rest =>
            if looksLikeOption value then none else form.read rest (found.addOption argument value)
          | [] => none

def scanForm : Form where
  topic := .scan
  options := ["--shared"]
  meaning found :=
    let shared := found.valuesOf "--shared"
    match found.others with
    | [] => some (.scan "." shared)
    | [root] => (Arguments.path? root).map fun root => .scan root shared
    | _ => none

/-- The configuration that arguments name, if they name nothing else. -/
def configOf (found : Arguments) : Option String :=
  if found.others.isEmpty then (found.single? "--config" Config.fileName).bind Arguments.path? else none

def buildForm : Form where
  topic := .build
  options := ["--config"]
  meaning found := (configOf found).map .build

def serveForm : Form where
  topic := .serve
  options := ["--config", "--port"]
  meaning found := do
    return .serve (← configOf found) (← (← found.single? "--port" "3000") |> Arguments.port?)

/-- The topic that names lead to. No command has commands of its own. -/
def helpTopic? : List String → Option HelpTopic
  | [] => some .all
  | [name] => HelpTopic.ofName? name
  | _ => none

def ofArguments : List String → Option Command
  | "scan" :: rest => scanForm.read rest .empty
  | "build" :: rest => buildForm.read rest .empty
  | "serve" :: rest => serveForm.read rest .empty
  | "help" :: rest => (helpTopic? rest).map .help
  | first :: _ => if asksForHelp first then some (.help .all) else none
  | [] => none

end Command
end Realms
