import Slab.Arena.Construction
import Slab.Pool.Basic
import Slab.Run.Worker
import Slab.Settings.Reservation

/-!
# Runs

A run builds the arena and the pool that the settings ask for, lets the workers go through their
cycles and records what happened.

* `Overrides`: what a user asks for in place of the settings;
* `RunError`: why a run does not start;
* `Run.processors`: the processors that the workers are bound to;
* `Run.setUp`: the arena and the pool, with what is recorded even if the pool fails;
* `run`: the whole run, in which one worker goes after another.
-/

namespace Slab

/-- What is asked for in place of the settings. -/
structure Overrides where
  threads : Option UInt64 := none
  iterations : Option UInt64 := none
  deriving DecidableEq, Repr, Inhabited

/-- Why a run does not start. -/
inductive RunError
  | arena (e : ArenaError)
  | pool (e : PoolError)
  deriving DecidableEq, Repr

/-- What the user reads. -/
def RunError.message : RunError → String
  | arena e => "Arena setup failed: " ++ e.message
  | pool e => "Pool setup failed: " ++ e.message

/-- What a worker reports. -/
structure Report where
  /-- Cycles that ran. -/
  cycles : Nat
  /-- Cycles that found no free slot. -/
  dropped : Nat
  deriving DecidableEq, Repr

namespace Run

/-- The number of workers: at least one. -/
def workerCount (s : Settings) (o : Overrides) : Nat :=
  max (o.threads.getD s.workers.threads).toNat 1

/-- The number of cycles of each worker. -/
def iterationCount (s : Settings) (o : Overrides) : Nat :=
  (o.iterations.getD s.workers.iterations).toNat

/-- The processor that each worker is bound to, in the order in which the workers start. -/
def processors (s : Settings) (o : Overrides) : List (Option UInt64) :=
  (List.range (workerCount s o)).map s.workers.cpuFor

/-- The pool of orders that the settings ask for, on an arena. -/
def buildPool (s : Settings) (a : Arena) : Except PoolError (Pool × Arena) :=
  match s.pool.slotSize with
  | some n => Pool.withSlotSize Element.order.shape s.pool.capacity.toNat n.toNat a
  | none => Pool.new Element.order.shape s.pool.capacity.toNat a

/-- What a run starts from. -/
structure Ready where
  pool : Pool
  arena : Arena

/-- Builds the arena, records its size and builds the pool. -/
def setUp (host : Host) (s : Settings) (r : Metrics.Recorder) :
    Metrics.Recorder × Except RunError Ready :=
  match Arena.build host s.arenaOptions with
  | .error e => (r, .error (.arena e))
  | .ok a =>
    let r := r.setArenaBytes (UInt64.ofNat a.size)
    match buildPool s a with
    | .error e => (r, .error (.pool e))
    | .ok (p, a) => (r, .ok ⟨p, a⟩)

/-- What a worker reports. -/
def report (w : Worker) : Report := ⟨w.cycles, w.dropped⟩

/-- One worker after another, all their cycles. -/
def workAll (g : Pool.Slots) (iterations : Nat) (time : Nat → Nat → UInt64) :
    List Nat → Floor → Floor × List Report
  | [], f => (f, [])
  | index :: rest, f =>
    let (f, w) := Worker.finish g iterations time (Worker.enough iterations) f { index }
    let (f, reports) := workAll g iterations time rest f
    (f, report w :: reports)

/-- The state of a pool after a run. -/
def observation (p : Pool) : Metrics.Observation :=
  let s := p.snapshot
  { capacity := UInt64.ofNat p.capacity, inUse := s.inUse, acquired := s.acquired,
    released := s.released, exhausted := s.exhausted, contended := s.contended }

end Run

/-- A run: what has been recorded after it, and the reports of its workers or why it did not start.
-/
def run (host : Host) (s : Settings) (o : Overrides) (r : Metrics.Recorder) :
    Metrics.Recorder × Except RunError (List Report) :=
  match Run.setUp host s r with
  | (r, .error e) => (r, .error e)
  | (r, .ok ⟨p, a⟩) =>
    let f : Run.Floor := ⟨p.shared a.memory, r⟩
    let (f, reports) := Run.workAll p.slots (Run.iterationCount s o) host.cycleTime
      (List.range (Run.workerCount s o)) f
    (f.recorder.observePool (Run.observation (p.update f.shared)), .ok reports)

end Slab
