import Slab.Number.Numeral
import Slab.Settings.Basic
import Slab.Settings.Findings
import Slab.Text.Pattern

/-!
# Rules that settings obey

Eight rules bound the settings one by one. A report of broken rules has a line for each.

* `Rule`, `Rule.holds`: the rules and when settings obey them;
* `Settings.findings`: what is found wrong with settings, part by part, on a machine with so many
  processors;
* `Settings.validate`, `ValidationError.report`: the check and its report.
-/

namespace Slab

/-- A bound on one setting. -/
inductive Rule
  | arenaDomain
  | arenaSize
  | poolCapacity
  | poolSlotSize
  | logLevel
  | workerCpus
  | workerIterations
  | workerThreads
  deriving DecidableEq, Repr

namespace Rule

/-- All rules, in the order in which they are checked. -/
def every : List Rule :=
  [arenaSize, arenaDomain, poolCapacity, poolSlotSize, workerThreads, workerCpus, workerIterations,
    logLevel]

/-- The words for how much is logged. -/
def levels : List String := ["trace", "debug", "info", "warn", "error"]

/-- One of these words from the beginning of a text to its end. -/
def levelPattern : Text.Pattern :=
  .both .start (.both (.oneOf (levels.map fun level => .word level.toList)) .stop)

/-- Whether settings obey a rule on a machine with `cpuCount` processors. -/
def holds (cpuCount : Nat) (s : Settings) : Rule → Bool
  | arenaDomain => s.arena.domain.toNat ≤ 1023
  | arenaSize => 4096 ≤ s.arena.sizeBytes.toNat
  | poolCapacity => 1 ≤ s.pool.capacity.toNat && s.pool.capacity.toNat < UInt32.size - 1
  | poolSlotSize =>
    match s.pool.slotSize with
    | none => true
    | some n => 1 ≤ n.toNat && n.toNat ≤ 1048576
  | logLevel => levelPattern.found s.telemetry.logLevel.toList
  | workerCpus => s.workers.cpus.all fun cpu => cpu.toNat < cpuCount
  | workerIterations => 1 ≤ s.workers.iterations.toNat
  | workerThreads => 1 ≤ s.workers.threads.toNat && s.workers.threads.toNat ≤ 1024

/-- The part of the settings that a rule is about. -/
def part : Rule → String
  | arenaDomain | arenaSize => "arena"
  | poolCapacity | poolSlotSize => "pool"
  | logLevel => "telemetry"
  | workerCpus | workerIterations | workerThreads => "workers"

/-- The field of this part that the rule bounds. -/
def field : Rule → String
  | arenaDomain => "domain"
  | arenaSize => "size_bytes"
  | poolCapacity => "capacity"
  | poolSlotSize => "slot_size"
  | logLevel => "log_level"
  | workerCpus => "cpus"
  | workerIterations => "iterations"
  | workerThreads => "threads"

/-- The word for what is wrong. -/
def code : Rule → String
  | poolCapacity => "capacity_out_of_range"
  | logLevel => "invalid_log_level"
  | workerCpus => "unknown_cpu"
  | _ => "range"

end Rule

namespace Settings

/-- The parts, in the order in which they are checked. -/
def parts : List String := ["arena", "pool", "workers", "telemetry"]

/-- Checks one rule, and adds to what was found. -/
def check (cpuCount : Nat) (s : Settings) (d : Findings) (r : Rule) : Findings :=
  if r.holds cpuCount s then d else d.complain r.field { code := r.code }

/-- Checks the rules of one part, and adds to what was found. -/
def checkPart (cpuCount : Nat) (s : Settings) (d : Findings) (part : String) : Findings :=
  d.lookInto part ((Rule.every.filter fun r => r.part = part).foldl (s.check cpuCount) [])

/-- What is found wrong with settings. -/
def findings (cpuCount : Nat) (s : Settings) : Findings := parts.foldl (s.checkPart cpuCount) []

end Settings

/-- Settings that break rules. -/
structure ValidationError where
  findings : Findings
  deriving DecidableEq, Repr

namespace ValidationError

/-- The first line of a report on broken rules. -/
def heading : String := "Invalid configuration:"

/-- The line of a report that makes a remark. -/
def line (r : Remark) : String := "  - " ++ r.path ++ ": " ++ r.word

/-- The report on broken rules, one line for each remark. -/
def report (order : Listing) (e : ValidationError) : String :=
  "\n".intercalate (heading :: (e.findings.remarks order).map line)

end ValidationError

/-- Accepts settings that obey all rules. -/
def Settings.validate (cpuCount : Nat) (s : Settings) : Except ValidationError Unit :=
  let findings := s.findings cpuCount
  if findings.isEmpty then .ok () else .error ⟨findings⟩

end Slab
