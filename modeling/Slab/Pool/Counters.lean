/-!
# Counters of a pool

Four counters say what has happened to a pool, and a snapshot keeps them with the occupancy at one
moment.

* `Counters`, `Counters.inUse`: the counters, and how many slots they say are out;
* `Snapshot`, `Snapshot.since`: a kept state and the change since an earlier one;
* `Reading`, `Reading.step`: a call that reads the counters, between two of its loads, and one load.

`Reading.inUse_alone` and `Reading.snapshot_alone` say that a reading that nobody interferes with
shows the counters as they are.
-/

namespace Slab.Pool

/-- The difference, zero where it would be negative. -/
def satSub (a b : UInt64) : UInt64 := if b ≤ a then a - b else 0

theorem toNat_satSub (a b : UInt64) : (satSub a b).toNat = a.toNat - b.toNat := by
  unfold satSub
  split
  · rename_i h
    rw [UInt64.toNat_sub_of_le _ _ h]
  · rename_i h
    have : ¬ b.toNat ≤ a.toNat := h
    simp only [UInt64.toNat_zero]
    omega

/-- What has happened to a pool. -/
structure Counters where
  /-- Slots handed out. -/
  acquired : UInt64 := 0
  /-- Slots given back. -/
  released : UInt64 := 0
  /-- Requests that found no free slot. -/
  exhausted : UInt64 := 0
  /-- Exchanges of the head that failed and were tried again. -/
  contended : UInt64 := 0
  deriving DecidableEq, Repr, Inhabited

/-- The counters and the occupancy at one moment. -/
structure Snapshot where
  acquired : UInt64 := 0
  released : UInt64 := 0
  exhausted : UInt64 := 0
  contended : UInt64 := 0
  inUse : UInt64 := 0
  deriving DecidableEq, Repr, Inhabited

namespace Counters

/-- Slots out at the moment. -/
def inUse (c : Counters) : UInt64 := satSub c.acquired c.released

/-- The counters as they are now. -/
def snapshot (c : Counters) : Snapshot :=
  { acquired := c.acquired, released := c.released, exhausted := c.exhausted,
    contended := c.contended, inUse := c.inUse }

end Counters

namespace Snapshot

/-- What happened after `earlier`: the growth of each counter and the present occupancy. -/
def since (now earlier : Snapshot) : Snapshot :=
  { acquired := satSub now.acquired earlier.acquired
    released := satSub now.released earlier.released
    exhausted := satSub now.exhausted earlier.exhausted
    contended := satSub now.contended earlier.contended
    inUse := now.inUse }

end Snapshot

/-- A call that reads the counters, between two of its loads. The slots given back are loaded before
the slots handed out: a slot that is given back in between must not count as one that was never
handed out. -/
inductive Reading
  /-- About to load the slots given back, to tell how many slots are out. -/
  | inUse
  /-- About to load the slots handed out. -/
  | inUseReleased (released : UInt64)
  /-- So many slots are out. -/
  | counted (inUse : UInt64)
  /-- About to load the slots given back, for a snapshot. -/
  | snapshot
  /-- About to load the slots handed out. -/
  | snapshotReleased (released : UInt64)
  /-- About to load the requests that found no free slot. -/
  | snapshotAcquired (released acquired : UInt64)
  /-- About to load the exchanges that failed. -/
  | snapshotExhausted (released acquired exhausted : UInt64)
  /-- The snapshot is complete. -/
  | taken (s : Snapshot)
  deriving DecidableEq, Repr

namespace Reading

/-- One load, from the counters as they are now. -/
def step (c : Counters) : Reading → Reading
  | inUse => inUseReleased c.released
  | inUseReleased released => counted (satSub c.acquired released)
  | counted n => counted n
  | snapshot => snapshotReleased c.released
  | snapshotReleased released => snapshotAcquired released c.acquired
  | snapshotAcquired released acquired => snapshotExhausted released acquired c.exhausted
  | snapshotExhausted released acquired exhausted =>
    taken { acquired, released, exhausted, contended := c.contended,
            inUse := satSub acquired released }
  | taken s => taken s

/-- Whether a reading has ended. -/
def isDone : Reading → Bool
  | counted _ | taken _ => true
  | _ => false

/-- The snapshot that a reading has taken. -/
def snapshot? : Reading → Option Snapshot
  | taken s => some s
  | _ => none

/-- Two loads that nobody comes between tell how many slots are out. -/
theorem inUse_alone (c : Counters) : (inUse.step c).step c = counted c.inUse := rfl

/-- Four loads that nobody comes between take a snapshot. -/
theorem snapshot_alone (c : Counters) :
    (((snapshot.step c).step c).step c).step c = taken c.snapshot := rfl

end Reading
end Slab.Pool
