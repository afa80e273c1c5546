import Realms.Config

/-!
The commands: listing the modules below a folder, building a project, serving the album application,
and showing how they are written.
-/
namespace Realms

inductive HelpTopic where
  | all
  | scan
  | build
  | serve
  | help
deriving DecidableEq, Repr, Inhabited

inductive Command where
  | scan (root : String) (shared : List String)
  | build (config : String)
  | serve (config : String) (port : Nat)
  | help (topic : HelpTopic)
deriving DecidableEq, Repr, Inhabited

namespace HelpTopic

def ofName? : String → Option HelpTopic
  | "scan" => some .scan
  | "build" => some .build
  | "serve" => some .serve
  | "help" => some .help
  | _ => none

def lines : HelpTopic → List String
  | .all =>
    ["Split a JS module graph into server and client builds",
      "",
      "Usage: realm <COMMAND>",
      "",
      "Commands:",
      "  scan   List every directive-bearing module under a directory",
      "  build  Build server and client artifacts plus the manifest",
      "  serve  Build the album demo and serve it",
      "  help   Print this message or the help of the given subcommand(s)",
      "",
      "Options:",
      "  -h, --help  Print help"]
  | .scan =>
    ["List every directive-bearing module under a directory",
      "",
      "Usage: realm scan [OPTIONS] [ROOT]",
      "",
      "Arguments:",
      "  [ROOT]  Project root to scan [default: .]",
      "",
      "Options:",
      "      --shared <SHARED>  Module paths to treat as shared",
      "  -h, --help             Print help"]
  | .build =>
    ["Build server and client artifacts plus the manifest",
      "",
      "Usage: realm build [OPTIONS]",
      "",
      "Options:",
      "      --config <CONFIG>  [default: " ++ Config.fileName ++ "]",
      "  -h, --help             Print help"]
  | .serve =>
    ["Build the album demo and serve it",
      "",
      "Usage: realm serve [OPTIONS]",
      "",
      "Options:",
      "      --config <CONFIG>  [default: " ++ Config.fileName ++ "]",
      "      --port <PORT>      [default: 3000]",
      "  -h, --help             Print help"]
  | .help =>
    ["Print this message or the help of the given subcommand(s)",
      "",
      "Usage: realm help [COMMAND]...",
      "",
      "Arguments:",
      "  [COMMAND]...  Print help for the subcommand(s)"]

end HelpTopic
end Realms
