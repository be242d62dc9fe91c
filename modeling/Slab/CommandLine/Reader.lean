import Slab.CommandLine.Request
import Slab.Number.Numeral
import Slab.Text.Cut

/-!
# Reading arguments

Arguments are read from left to right, first those of the program and, from the name of a command
on, those of the command. The option for the file of settings may stand in both places; the
command's wins.

* `Level`: which options and flags are known at a place;
* `Progress`: the values so far, and the option that waits for its value or has just been given one;
* `Progress.settle`: checks the value of that option, which happens only when the next option comes
  or all arguments have been read;
* `readCommand`, `read`: the arguments of a command, and all of them.

An option takes its value from the same argument or from the next one, if that does not look like an
option.
-/

namespace Slab.CommandLine

/-- The options and flags that are known at a place. -/
structure Level where
  topic : Topic
  options : List Opt
  hasVersion : Bool
  deriving Repr

/-- The commands by name. -/
def commandNames : List (String × Topic) :=
  [("run", .run), ("topology", .topology), ("check", .check), ("help", .help)]

/-- The command of a name. -/
def topic? (name : String) : Option Topic :=
  (commandNames.find? fun p => p.1 == name).map Prod.snd

/-- What is known before a command. -/
def programLevel : Level := ⟨.program, [.config], true⟩

/-- What is known after a command. -/
def commandLevel : Topic → Level
  | .run => ⟨.run, [.config, .threads, .iterations], false⟩
  | topic => ⟨topic, [.config], false⟩

/-- The name of an option. -/
def Opt.long : Opt → String
  | config => "config"
  | threads => "threads"
  | iterations => "iterations"

/-- The letter of an option. -/
def Opt.letter : Opt → Char
  | config => 'c'
  | threads => 't'
  | iterations => 'i'

/-- The values so far. -/
structure Progress where
  config : Option String := none
  threads : Option UInt64 := none
  iterations : Option UInt64 := none
  /-- The option whose value has not been checked, with its value if it has one. -/
  pending : Option (Opt × Option String) := none
  deriving DecidableEq, Repr

namespace Progress

/-- Whether an option waits for its value. -/
def isWaiting (p : Progress) : Bool :=
  match p.pending with
  | some (_, none) => true
  | _ => false

/-- Whether an option has a value. -/
def has (p : Progress) : Opt → Bool
  | .config => p.config.isSome
  | .threads => p.threads.isSome
  | .iterations => p.iterations.isSome

/-- Whether any option has a value. -/
def isEmpty (p : Progress) : Bool := !(p.has .config || p.has .threads || p.has .iterations)

/-- A number as the value of an option. -/
def number (o : Opt) (value : String) : Except UsageError UInt64 :=
  match Numeral.unsigned? UInt64.size value.toList with
  | some n => .ok (UInt64.ofNat n)
  | none => .error (.valueValidation o value)

/-- Gives an option its value, once. -/
def assign (p : Progress) (o : Opt) (value : String) : Except UsageError Progress :=
  if p.has o then .error (.argumentConflict o)
  else
    match o with
    | .config =>
      if value = "" then .error (.invalidValue o) else .ok { p with config := some value }
    | .threads => (number o value).map fun n => { p with threads := some n }
    | .iterations => (number o value).map fun n => { p with iterations := some n }

/-- Checks the value of the pending option. -/
def settle (p : Progress) : Except UsageError Progress :=
  match p.pending with
  | none => .ok p
  | some (o, none) => .error (.invalidValue o)
  | some (o, some value) => assign { p with pending := none } o value

/-- The progress after an option with its value in the same argument, or without. -/
def option (p : Progress) (o : Opt) (attached : Option String) : Except UsageError Progress :=
  match p.settle with
  | .error e => .error e
  | .ok p =>
    match attached with
    | some value => p.assign o value
    | none => .ok { p with pending := some (o, none) }

/-- The end of the reading, where a flag asks for help or the version: what waits is checked first.
-/
def flag (p : Progress) (e : UsageError) : Except UsageError Progress :=
  match p.settle with
  | .error e => .error e
  | .ok _ => .error e

end Progress

/-- An argument after two dashes: a name, and a value after an equals sign. -/
def readLong (l : Level) (p : Progress) (s : List Char) : Except UsageError Progress :=
  let (name, attached) := match Text.cutFirst '=' s with
    | some (a, b) => (String.ofList a, some (String.ofList b))
    | none => (String.ofList s, none)
  match l.options.find? fun o => o.long == name with
  | some o => p.option o attached
  | none =>
    let flag (e : UsageError) : Except UsageError Progress :=
      if attached.isSome then .error (.tooManyValues ("--" ++ name)) else p.flag e
    if name = "help" then flag (.help l.topic)
    else if name = "version" ∧ l.hasVersion then flag .version
    else .error (.unknownArgument ("--" ++ name))

/-- An argument after one dash: a letter, and the value of an option, perhaps after an equals sign.
-/
def readShort (l : Level) (p : Progress) (c : Char) (s : List Char) : Except UsageError Progress :=
  match l.options.find? fun o => o.letter == c with
  | some o =>
    p.option o <| match s with
      | [] => none
      | '=' :: v => some (String.ofList v)
      | v => some (String.ofList v)
  | none =>
    if c = 'h' then p.flag (.help l.topic)
    else if c = 'V' ∧ l.hasVersion then p.flag .version
    else .error (.unknownArgument (String.ofList ['-', c]))

/-- An argument that is an option, a flag or the value of an option; `none` for any other. -/
def readWord (l : Level) (p : Progress) (arg : String) : Except UsageError (Option Progress) :=
  match arg.toList with
  | '-' :: '-' :: s => (readLong l p s).map some
  | '-' :: c :: s => (readShort l p c s).map some
  | _ =>
    match p.pending with
    | some (o, none) => .ok (some { p with pending := some (o, some arg) })
    | _ => .ok none

/-- The argument after which no other one is an option. -/
def endOfOptions : String := "--"

/-- The arguments of a command. -/
def readCommand (l : Level) : Progress → List String → Except UsageError Progress
  | p, [] => p.settle
  | p, arg :: rest =>
    if arg = endOfOptions then
      match rest with
      | [] => p.settle
      | next :: _ => .error (.unknownArgument next)
    else
      match readWord l p arg with
      | .error e => .error e
      | .ok none => .error (.unknownArgument arg)
      | .ok (some p) => readCommand l p rest

/-- The topic that names of commands lead to, one inside the other: only the program itself has
commands. -/
def helpTopic : List String → UsageError
  | [] => .help .program
  | [name] =>
    match topic? name with
    | some topic => .help topic
    | none => .invalidSubcommand name
  | name :: next :: _ =>
    match topic? name with
    | some _ => .invalidSubcommand next
    | none => .invalidSubcommand name

/-- The request that the values for the program and those for the command make. -/
def request (program command : Progress) : Topic → Except UsageError Request
  | .run =>
    .ok ⟨command.config.or program.config, .run ⟨command.threads, command.iterations⟩⟩
  | .topology => .ok ⟨command.config.or program.config, .topology⟩
  | .check => .ok ⟨command.config.or program.config, .check⟩
  | topic => .error (.help topic)

/-- A command with its arguments, after the values for the program. What waits there is checked
after the command's own arguments. -/
def readFrom (p : Progress) (topic : Topic) (rest : List String) : Except UsageError Request :=
  if topic = .help then .error (helpTopic rest)
  else
    match readCommand (commandLevel topic) {} rest with
    | .error e => .error e
    | .ok command =>
      match p.settle with
      | .error e => .error e
      | .ok program => request program command topic

/-- The end of the arguments where no command has come. -/
def finish (p : Progress) : Except UsageError Request :=
  match p.settle with
  | .error e => .error e
  | .ok p => .error (if p.isEmpty then .missingEverything else .missingSubcommand)

/-- The arguments from some point on. -/
def readProgram : Progress → List String → Except UsageError Request
  | p, [] => finish p
  | p, arg :: rest =>
    match (if p.isWaiting then none else topic? arg) with
    | some topic => readFrom p topic rest
    | none =>
      if arg = endOfOptions then
        match rest with
        | [] => finish p
        | next :: _ =>
          .error (if (topic? next).isSome then .unknownArgument next else .invalidSubcommand next)
      else
        match readWord programLevel p arg with
        | .error e => .error e
        | .ok none => .error (.invalidSubcommand arg)
        | .ok (some p) => readProgram p rest

/-- The request that arguments make. -/
def read (args : List String) : Except UsageError Request := readProgram {} args

end Slab.CommandLine
