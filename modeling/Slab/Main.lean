import Slab.Program
import Slab.Settings.Environment

/-!
# The command

What the program sees when it starts, and the end of the program.
-/

namespace Slab.Process

/-- The text of a file, if it can be read as text. -/
def text (path : String) : IO (Option String) := do
  try
    return some (← IO.FS.readFile path)
  catch _ => return none

/-- What a path names. Only files are opened. -/
def entry (path : String) : IO (Option Entry) := do
  try
    match (← (← IO.FS.realPath path).metadata).type with
    | .file => return some (.file (← text path))
    | .dir => return some .directory
    | _ => return some .special
  catch _ => return none

/-- What the first file among paths holds. -/
def firstContent : List String → IO (Option (Option String))
  | [] => return none
  | path :: rest => do
    match ← entry path with
    | some (.file content) => return some content
    | _ => firstContent rest

/-- The paths with what they name. -/
def files (paths : List String) : IO Files := do
  let here := (← IO.currentDir).toString
  let depth := ((Text.pieces '/' here.toList).filter fun p => !p.isEmpty).length
  return .listed (← paths.mapM fun path =>
    return (path, ← entry path, ← firstContent (Files.outward depth path)))

/-- The variables of the environment. -/
def environment : IO (List (String × String)) := do
  return Environment.ofBlock (← IO.FS.readBinFile "/proc/self/environ").toList

/-- The numbers of a list that the system keeps, `none` where it keeps no such list. -/
def ids (path : String) : IO (Option (List Nat)) := do
  match ← entry path with
  | some (.file (some text)) => return (Affinity.parseIdList text).toOption
  | _ => return none

/-- The settings of the run that is timed. -/
def sample : Settings :=
  { arena := { sizeBytes := 4096, locality := .preferred, lock := .none }
    pool := { capacity := 1 }
    workers := { iterations := 4096 } }

/-- The nanoseconds that a cycle takes. -/
def cycleTime : IO UInt64 := do
  let before ← IO.monoNanosNow
  match (run .reference sample {} {}).2 with
  | .ok [r] => return UInt64.ofNat (((← IO.monoNanosNow) - before) / max r.cycles 1)
  | _ => return 0

/-- The machine. -/
def host : IO Host := do
  let cpus := (← ids "/sys/devices/system/cpu/online").getD [0]
  let domains := (← ids "/sys/devices/system/node/online").getD [0]
  let members ← domains.mapM fun domain => do
    let path := "/sys/devices/system/node/node" ++ Numeral.decimal domain ++ "/cpulist"
    return (UInt32.ofNat domain, (← ids path).getD [])
  let time ← cycleTime
  return { Host.reference with
    cpuCount := max cpus.length 1
    domains := domains.map UInt32.ofNat
    cpuDomain := fun cpu =>
      if cpus.contains cpu then
        some (((members.find? fun m => m.2.contains cpu).map Prod.fst).getD 0)
      else none
    canPin := cpus.contains
    currentCpu := none
    cycleTime := fun _ _ => time }

end Slab.Process

/-- Does what the arguments ask for. -/
def main (args : List String) : IO UInt32 := do
  let environment ← Slab.Process.environment
  let files ← Slab.Process.files (Slab.Program.paths environment args)
  let seed := UInt64.ofNat (← IO.rand 0 Slab.Size.largest)
  let world : Slab.World := ⟨files, environment, ← Slab.Process.host⟩
  let outcome := Slab.Program.outcome .plain seed world args
  IO.print outcome.output
  IO.eprint outcome.errors
  return UInt32.ofNat outcome.exitCode
