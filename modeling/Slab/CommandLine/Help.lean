import Slab.CommandLine.Request
import Slab.CommandLine.Reader

/-!
# Help

What the program tells about itself, and what it says when arguments are no request.
-/

namespace Slab.CommandLine

/-- A word between angle brackets. -/
def placeholder (s : String) : String := "<" ++ s ++ ">"

/-- The text on the version. -/
def versionText : String := "hotpool-cli 0.1.0\n"

/-- The text on the option for the file of settings. -/
def configHelp : String :=
  "Configuration file; defaults to config/hotpool.yaml plus HOTPOOL_* overrides"

/-- The text on a topic. -/
def helpText : Topic → String
  | .program =>
    "Usage: hotpool [OPTIONS] <COMMAND>\n\nCommands:\n" ++
      "  run       Build the arena and pool, then run the acquire/fill/release loop\n" ++
      "  topology  Print CPU to locality-domain mapping\n" ++
      "  check     Validate configuration without reserving memory\n" ++
      "  help      Print this message or the help of the given subcommand(s)\n\nOptions:\n" ++
      "  -c, --config <CONFIG>  " ++ configHelp ++ "\n" ++
      "  -h, --help             Print help\n" ++
      "  -V, --version          Print version\n"
  | .run =>
    "Build the arena and pool, then run the acquire/fill/release loop\n\n" ++
      "Usage: hotpool run [OPTIONS]\n\nOptions:\n" ++
      "  -c, --config <CONFIG>          " ++ configHelp ++ "\n" ++
      "  -t, --threads <THREADS>        Override the number of worker threads\n" ++
      "  -i, --iterations <ITERATIONS>  Override iterations per worker\n" ++
      "  -h, --help                     Print help\n"
  | .topology =>
    "Print CPU to locality-domain mapping\n\nUsage: hotpool topology [OPTIONS]\n\nOptions:\n" ++
      "  -c, --config <CONFIG>  " ++ configHelp ++ "\n" ++
      "  -h, --help             Print help\n"
  | .check =>
    "Validate configuration without reserving memory\n\n" ++
      "Usage: hotpool check [OPTIONS]\n\nOptions:\n" ++
      "  -c, --config <CONFIG>  " ++ configHelp ++ "\n" ++
      "  -h, --help             Print help\n"
  | .help =>
    "Print this message or the help of the given subcommand(s)\n\n" ++
      "Usage: hotpool help [COMMAND]...\n\nArguments:\n" ++
      "  [COMMAND]...  Print help for the subcommand(s)\n"

/-- An option with the name of its value. -/
def Opt.usage (o : Opt) : String := "--" ++ o.long ++ " " ++ placeholder o.long.toUpper

/-- What the program writes for arguments that are no request: help in full, and of an error only
what is wrong. -/
def UsageError.message : UsageError → String
  | invalidValue o => "error: a value is required for '" ++ o.usage ++ "' but none was supplied\n"
  | valueValidation o value => "error: invalid value '" ++ value ++ "' for '" ++ o.usage ++ "'\n"
  | argumentConflict o =>
    "error: the argument '" ++ o.usage ++ "' cannot be used multiple times\n"
  | tooManyValues arg =>
    "error: unexpected value for '" ++ arg ++ "' found; no more were expected\n"
  | unknownArgument arg => "error: unexpected argument '" ++ arg ++ "' found\n"
  | invalidSubcommand arg => "error: unrecognized subcommand '" ++ arg ++ "'\n"
  | missingSubcommand => "error: 'hotpool' requires a subcommand but one was not provided\n"
  | missingEverything => helpText .program
  | help topic => helpText topic
  | version => versionText

end Slab.CommandLine
