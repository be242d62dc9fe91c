import Slab.Run.Basic

/-!
# Requests

What a user asks the program to do.

* `Command`, `Request`: the commands, and a command with the file of settings it is to use;
* `UsageError`: why arguments are no request; asking for help or for the version is one of them;
* `UsageError.exitCode`: how the program ends then.
-/

namespace Slab

/-- What the program can do. -/
inductive Command
  /-- Let workers use a pool. -/
  | run (overrides : Overrides)
  /-- Show which processors belong to which domains. -/
  | topology
  /-- Check the settings. -/
  | check
  deriving DecidableEq, Repr

/-- A command and the file of settings that the user names. -/
structure Request where
  config : Option String
  command : Command
  deriving DecidableEq, Repr

namespace CommandLine

/-- The options that take a value. -/
inductive Opt
  | config
  | threads
  | iterations
  deriving DecidableEq, Repr

/-- What there is help on. -/
inductive Topic
  | program
  | run
  | topology
  | check
  | help
  deriving DecidableEq, Repr

/-- Why arguments are no request. -/
inductive UsageError
  /-- An option has no value. -/
  | invalidValue (o : Opt)
  /-- A value of an option is not what it should be. -/
  | valueValidation (o : Opt) (value : String)
  /-- An option stands twice. -/
  | argumentConflict (o : Opt)
  /-- A flag has a value. -/
  | tooManyValues (arg : String)
  | unknownArgument (arg : String)
  | invalidSubcommand (arg : String)
  /-- There are arguments but no command among them. -/
  | missingSubcommand
  /-- There is nothing at all. -/
  | missingEverything
  | help (topic : Topic)
  | version
  deriving DecidableEq, Repr

/-- How the program ends: asking for help or the version is no failure. -/
def UsageError.exitCode : UsageError → Nat
  | help _ | version => 0
  | _ => 2

end CommandLine
end Slab
