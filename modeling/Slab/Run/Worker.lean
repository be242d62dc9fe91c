import Slab.Metrics.Recorder
import Slab.Payload.Element
import Slab.Pool.FreeList

/-!
# Workers

A worker goes through a number of cycles: it takes a slot, writes an order into it and gives the
slot back. A cycle that finds no free slot is dropped. The time of every 1024th cycle is recorded,
unless it is dropped.

* `Worker`, `Phase`: a worker between two of its steps;
* `Floor`: what the workers share;
* `Worker.step`: one step, which touches what is shared at most once;
* `Worker.finish`: the steps of a worker until it is done, with nobody interfering.
-/

namespace Slab.Run

/-- What the workers of a run share. -/
structure Floor where
  shared : Pool.Shared
  recorder : Metrics.Recorder

/-- What a worker is about to do. -/
inductive Phase
  /-- Begin the next cycle, if one is left. -/
  | ready
  /-- Go on with taking a slot. -/
  | taking (call : Pool.Call)
  /-- Write an order into the slot it holds. -/
  | holding (slot : UInt32)
  /-- Go on with giving the slot back. -/
  | giving (call : Pool.Call)
  /-- Record the time of the cycle, if its turn has come, and end it. -/
  | ending
  deriving DecidableEq, Repr

/-- A worker between two of its steps. -/
structure Worker where
  index : Nat
  /-- The number of the present cycle. -/
  seq : Nat := 0
  /-- Cycles that ran. -/
  cycles : Nat := 0
  /-- Cycles that found no free slot. -/
  dropped : Nat := 0
  phase : Phase := .ready
  deriving DecidableEq, Repr

/-- What chance decides about a step: whether an exchange fails for no reason, and how long the
cycle took. -/
structure Chance where
  spurious : Bool := false
  ns : UInt64 := 0
  deriving DecidableEq, Repr

/-- One cycle in so many is timed. -/
def sampleEvery : Nat := 1024

/-- The price of every order, 101.25. -/
def orderPrice : Binary64 := ⟨0x4059500000000000⟩

/-- The order that a worker writes in a cycle. -/
def orderOf (worker seq : Nat) : Order :=
  { tsNs := UInt64.ofNat seq
    orderId := UInt64.ofNat worker <<< 48 ||| UInt64.ofNat seq
    instrId := 7
    qty := 10
    price := orderPrice
    side := if seq % 2 = 0 then .buy else .sell }

namespace Worker

/-- Whether all cycles are over. -/
def isDone (iterations : Nat) (w : Worker) : Bool := w.phase == .ready && iterations ≤ w.seq

/-- One step of a worker. -/
def step (g : Pool.Slots) (iterations : Nat) (c : Chance) (f : Floor) (w : Worker) :
    Floor × Worker :=
  match w.phase with
  | .ready =>
    if w.seq < iterations then (f, { w with phase := .taking .acquire }) else (f, w)
  | .taking (.acquired slot) => (f, { w with phase := .holding slot })
  | .taking .exhausted =>
    (f, { w with seq := w.seq + 1, dropped := w.dropped + 1, phase := .ready })
  | .taking call =>
    let (shared, call) := call.step g c.spurious f.shared
    ({ f with shared }, { w with phase := .taking call })
  | .holding slot =>
    let bytes := Element.order.encode (.order (orderOf w.index w.seq))
    ({ f with shared.memory := f.shared.memory.write (g.place slot) bytes },
      { w with phase := .giving (.release slot) })
  | .giving .released => (f, { w with cycles := w.cycles + 1, phase := .ending })
  | .giving call =>
    let (shared, call) := call.step g c.spurious f.shared
    ({ f with shared }, { w with phase := .giving call })
  | .ending =>
    let w' := { w with seq := w.seq + 1, phase := .ready }
    if w.seq % sampleEvery = 0 then ({ f with recorder := f.recorder.observeCycle c.ns }, w')
    else (f, w')

/-- Steps until the worker is done, with nobody interfering. -/
def finish (g : Pool.Slots) (iterations : Nat) (time : Nat → Nat → UInt64) :
    Nat → Floor → Worker → Floor × Worker
  | 0, f, w => (f, w)
  | fuel + 1, f, w =>
    if w.isDone iterations then (f, w)
    else
      let (f, w) := w.step g iterations { ns := time w.index w.seq } f
      finish g iterations time fuel f w

/-- Steps that suffice for all cycles of a worker that nobody interferes with: in each it begins,
takes a slot in four steps and sees it, writes, gives the slot back in four steps and sees that, and
ends. -/
def enough (iterations : Nat) : Nat := 13 * iterations

end Worker
end Slab.Run
