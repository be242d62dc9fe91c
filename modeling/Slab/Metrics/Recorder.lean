import Slab.Number.Binary64

/-!
# Recorded metrics

What is measured while the program runs: three gauges that are set, four totals that only grow, and
the times of cycles, counted by bounds.

* `Total`, `Gauge`, `Recorder`: the four totals, the three gauges, and the recorded values;
* `setArenaBytes`, `observePool`, `observeCycle`: what can be recorded;
* `gauge`: the number that a gauge shows, its word read as a signed one.
-/

namespace Slab.Metrics

/-- What only grows. -/
inductive Total
  | acquired
  | released
  | exhausted
  | contended
  deriving DecidableEq, Repr

/-- What is set. -/
inductive Gauge
  | arenaBytes
  | capacity
  | inUse
  deriving DecidableEq, Repr

/-- A pool as seen at one moment. -/
structure Observation where
  capacity : UInt64 := 0
  inUse : UInt64 := 0
  acquired : UInt64 := 0
  released : UInt64 := 0
  exhausted : UInt64 := 0
  contended : UInt64 := 0
  deriving DecidableEq, Repr, Inhabited

/-- Samples counted by bounds. -/
structure Histogram where
  /-- For every bound, in ascending order, how many samples it covers. -/
  covered : List (Nat × UInt64)
  /-- How many samples there are. -/
  count : UInt64
  /-- Their sum. -/
  sum : Binary64
  deriving DecidableEq, Repr

namespace Histogram

/-- A histogram without samples. -/
def empty (bounds : List Nat) : Histogram :=
  { covered := bounds.map fun b => (b, 0), count := 0, sum := Binary64.ofNat 0 }

/-- Adds a sample, which every bound at or above it covers. -/
def observe (h : Histogram) (x : Binary64) : Histogram :=
  { covered := h.covered.map fun p =>
      if x.le (Binary64.ofNat p.1) then (p.1, p.2 + 1) else p
    count := h.count + 1
    sum := h.sum.add x }

end Histogram

/-- The bounds on the times of cycles, in nanoseconds. -/
def cycleBounds : List Nat := [25, 50, 100, 250, 1000, 10000]

/-- The recorded values. -/
structure Recorder where
  capacity : UInt64 := 0
  inUse : UInt64 := 0
  arenaBytes : UInt64 := 0
  acquired : UInt64 := 0
  released : UInt64 := 0
  exhausted : UInt64 := 0
  contended : UInt64 := 0
  /-- Times of cycles in nanoseconds. -/
  cycles : Histogram := .empty cycleBounds
  deriving DecidableEq, Repr

/-- The present total. -/
def Recorder.total (r : Recorder) : Total → UInt64
  | .acquired => r.acquired
  | .released => r.released
  | .exhausted => r.exhausted
  | .contended => r.contended

/-- The word of a gauge. -/
def Recorder.word (r : Recorder) : Gauge → UInt64
  | .arenaBytes => r.arenaBytes
  | .capacity => r.capacity
  | .inUse => r.inUse

/-- The number that a gauge shows. -/
def gauge (word : UInt64) : Int := word.toInt64.toInt

/-- A total after a newly seen one: it never falls. -/
def catchUp (total seen : UInt64) : UInt64 := if total < seen then total + (seen - total) else total

namespace Recorder

/-- Records the size of the arena. -/
def setArenaBytes (r : Recorder) (bytes : UInt64) : Recorder := { r with arenaBytes := bytes }

/-- Records the state of a pool. -/
def observePool (r : Recorder) (o : Observation) : Recorder :=
  { r with
    capacity := o.capacity
    inUse := o.inUse
    acquired := catchUp r.acquired o.acquired
    released := catchUp r.released o.released
    exhausted := catchUp r.exhausted o.exhausted
    contended := catchUp r.contended o.contended }

/-- Records the time of one cycle. -/
def observeCycle (r : Recorder) (ns : UInt64) : Recorder :=
  { r with cycles := r.cycles.observe (Binary64.ofNat ns.toNat) }

end Recorder
end Slab.Metrics
