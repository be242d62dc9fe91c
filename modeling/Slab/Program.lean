import Slab.Affinity.Placement
import Slab.CommandLine.Help
import Slab.Metrics.Exposition
import Slab.Run.Basic
import Slab.Settings.Footprint
import Slab.Settings.Load

/-!
# The program

From arguments and a world to what is printed and how the program ends.

* `ProgramError`, `ProgramError.render`: why a command fails, and the report with its causes;
* `Program.settings`: the settings of a request, which have to fit the arena;
* `Program.checkText`, `Program.topologyText`: what the two commands print that run nothing;
* `Program.execute`: a request;
* `Program.paths`: which files a program looks at;
* `Program.outcome`: what becomes of arguments.
-/

namespace Slab

/-- Why a command fails. -/
inductive ProgramError
  | load (e : LoadError)
  | footprint (e : FootprintError)
  | run (e : RunError)
  deriving DecidableEq, Repr

namespace ProgramError

/-- What the user reads. -/
def message (t : Wording) (seed : UInt64) : ProgramError → String
  | load e => e.message t seed
  | footprint e => e.message
  | run e => e.message

/-- What lies behind the error, the nearest cause first. -/
def causes (t : Wording) (seed : UInt64) : ProgramError → List String
  | load (.fileNotFound _) => []
  | load (.parsing errors) => [t.parsing errors]
  | load (.validation e) => [t.validation seed e.findings]
  | footprint _ => []
  | run (.arena e) => e.message :: (e.fault?.map Fault.text).toList
  | run (.pool e) => [e.message]

/-- The report: the message and a line for each cause. -/
def render (t : Wording) (seed : UInt64) (e : ProgramError) : String :=
  "error: " ++ e.message t seed ++
    String.join ((e.causes t seed).map fun c => "\n  caused by: " ++ c)

end ProgramError

/-- How a program ends. -/
structure Outcome where
  exitCode : Nat
  output : String
  errors : String
  deriving DecidableEq, Repr

namespace Program

/-- The settings to work with, from the named file or the usual ones. They have to fit the arena
with an order in each slot. -/
def settings (w : World) (path : Option String) : Except ProgramError Settings :=
  let loaded := match path with
    | some path => Settings.loadFile w path
    | none => Settings.load w
  match loaded with
  | .error e => .error (.load e)
  | .ok s =>
    match s.checkFootprint Order.size with
    | .error e => .error (.footprint e)
    | .ok _ => .ok s

/-- A list of numbers as text. -/
def listText (l : List Nat) : String := "[" ++ ", ".intercalate (l.map Numeral.decimal) ++ "]"

/-- A number as text. -/
def wordText (n : UInt64) : String := Numeral.decimal n.toNat

/-- What settings mean for memory and workers. -/
def checkText (s : Settings) : String :=
  let slot := s.pool.slotBytes Order.size
  "arena: " ++ wordText s.arena.sizeBytes ++ " bytes on domain " ++
      Numeral.decimal s.arena.domain.toNat ++ " (" ++ s.arena.locality.title ++ " locality, " ++
      s.arena.lock.title ++ " lock, huge pages: " ++ Text.flag s.arena.hugePages ++ ")\n" ++
    "pool: " ++ wordText s.pool.capacity ++ " slots x " ++ Numeral.decimal slot ++ " bytes = " ++
      Numeral.decimal (s.pool.capacity.toNat * slot) ++ " bytes\n" ++
    "workers: " ++ wordText s.workers.threads ++ " threads, " ++ wordText s.workers.iterations ++
      " iterations, cpus " ++ listText (s.workers.cpus.map UInt64.toNat) ++ "\n"

/-- A number in at least four columns. -/
def column (n : Nat) : String :=
  let s := Numeral.decimal n
  String.ofList (List.replicate (4 - s.length) ' ') ++ s

/-- The processors of a machine and their domains. -/
def topologyText (host : Host) : String :=
  let line (cpu : Nat) : String :=
    "cpu " ++ column cpu ++ " -> " ++
      (match Affinity.domainOf host cpu with
        | .ok d => "domain " ++ Numeral.decimal d.toNat
        | .error e => "unknown (" ++ e.message ++ ")") ++ "\n"
  "cpus: " ++ Numeral.decimal host.cpuCount ++ "\n" ++
    "domains: " ++ listText (host.domains.map UInt32.toNat) ++ "\n" ++
    String.join ((List.range host.cpuCount).map line) ++
    (match host.currentCpu with
      | some cpu => "current cpu: " ++ Numeral.decimal cpu ++ "\n"
      | none => "")

/-- What a request prints, or why it fails. -/
def execute (w : World) (r : Request) : Except ProgramError String :=
  match r.command with
  | .topology => .ok (topologyText w.host)
  | .check => (settings w r.config).map checkText
  | .run overrides =>
    match settings w r.config with
    | .error e => .error e
    | .ok s =>
      match Slab.run w.host s overrides {} with
      | (_, .error e) => .error (.run e)
      | (recorder, .ok _) => .ok (if s.telemetry.metrics then recorder.exposition else "")

/-- The paths of the files that a program with such variables and arguments looks at. -/
def paths (environment : List (String × String)) (args : List String) : List String :=
  match CommandLine.read args with
  | .error _ => []
  | .ok r =>
    match r.config with
    | some path => [path]
    | none => Settings.usualPaths environment

/-- What becomes of arguments, in a process that has drawn `seed`. -/
def outcome (t : Wording) (seed : UInt64) (w : World) (args : List String) : Outcome :=
  match CommandLine.read args with
  | .error e =>
    if e.exitCode = 0 then ⟨0, e.message, ""⟩ else ⟨e.exitCode, "", e.message⟩
  | .ok r =>
    match execute w r with
    | .ok output => ⟨0, output, ""⟩
    | .error e => ⟨1, "", e.render t seed ++ "\n"⟩

end Program
end Slab
