import Slab.Arena.Policy

/-!
# Settings

The twelve settings of the program in their four sections, with their defaults. Numbers are as wide
as the words that hold them.

* `Settings`, with `Settings.Arena`, `Settings.Pool`, `Settings.Workers`, `Settings.Telemetry`;
* `Settings.Workers.cpuFor`: the processor of one worker.
-/

namespace Slab

/-- The reservation. -/
structure Settings.Arena where
  /-- Bytes to reserve. -/
  sizeBytes : UInt64 := 33554432
  /-- The locality domain that backs the reservation. -/
  domain : UInt32 := 0
  /-- Whether huge pages are advised. -/
  hugePages : Bool := true
  locality : LocalityPolicy := .required
  lock : LockPolicy := .all
  deriving DecidableEq, Repr, Inhabited

/-- The pool. -/
structure Settings.Pool where
  /-- Number of slots. -/
  capacity : UInt64 := 262144
  /-- Bytes of a slot, where they are not left to the element. -/
  slotSize : Option UInt64 := none
  deriving DecidableEq, Repr, Inhabited

/-- The workers that share the pool. -/
structure Settings.Workers where
  /-- Number of workers. -/
  threads : UInt64 := 1
  /-- Processors that the workers are bound to in turn. -/
  cpus : List UInt64 := []
  /-- Cycles of each worker. -/
  iterations : UInt64 := 1000000
  deriving DecidableEq, Repr, Inhabited

/-- What the program reports. -/
structure Settings.Telemetry where
  logLevel : String := "info"
  /-- Whether the metrics are printed after a run. -/
  metrics : Bool := true
  deriving DecidableEq, Repr, Inhabited

/-- All settings. -/
structure Settings where
  arena : Settings.Arena := {}
  pool : Settings.Pool := {}
  workers : Settings.Workers := {}
  telemetry : Settings.Telemetry := {}
  deriving DecidableEq, Repr, Inhabited

/-- The processor of worker `index`: the list is gone through again and again, and an empty one
binds nobody. -/
def Settings.Workers.cpuFor (w : Settings.Workers) (index : Nat) : Option UInt64 :=
  w.cpus[index % w.cpus.length]?

end Slab
