import Slab.Arena.Reservation
import Slab.Pool.FreeList

/-!
# Pools

A pool divides a region into slots of one size, hands them out and takes them back. The memory of
the slots belongs to the arena, so every operation that touches it takes the memory and gives it
back.

* `Pool`, `Pool.inRegion`, `Pool.withSlotSize`, `Pool.new`: a pool and how it is built;
* `Pool.acquire`, `Pool.release`: taking the first free slot, giving one back;
* `Pool.contains`, `Pool.slotIndex`: whether an address is that of a slot, and of which;
* `Pool.acquireAt`, `Pool.releaseAt`: taking and giving back by the address of the slot;
* `Pool.inUse`, `Pool.freeCount`, `Pool.countFree`: the occupancy, counted and walked.
-/

namespace Slab

/-- A pool over a region of an arena. -/
structure Pool where
  /-- The elements it was built for. -/
  shape : Shape
  region : Region
  /-- Number of slots. -/
  capacity : Nat
  /-- Bytes of a slot. -/
  slotSize : Nat
  /-- The head of the free list. -/
  head : Pool.Head
  counters : Pool.Counters
  deriving DecidableEq, Repr

namespace Pool

/-- Where the slots lie in the arena's memory. -/
def slots (p : Pool) : Slots := ⟨p.region.offset, p.slotSize, p.capacity⟩

/-- What the threads share: the pool's own words and the memory of the arena. -/
def shared (p : Pool) (m : Memory) : Shared := ⟨p.head, p.counters, m⟩

/-- The pool after something happened to what is shared. -/
def update (p : Pool) (s : Shared) : Pool := { p with head := s.head, counters := s.counters }

/-- A new pool in a region that has room for it: all slots are free, slot 0 first. -/
def build (shape : Shape) (region : Region) (capacity slotSize : Nat) (m : Memory) :
    Pool × Memory :=
  let p : Pool :=
    { shape, region, capacity, slotSize, head := ⟨0, 0⟩, counters := {} }
  (p, linkSlots p.slots m)

/-- A pool in a region, for slots of at least `asked` bytes. -/
def inRegion (shape : Shape) (capacity asked : Nat) (region : Region) (m : Memory) :
    Except PoolError (Pool × Memory) := do
  let slotSize ← slotBytes shape capacity asked
  let required ← footprint capacity slotSize region.length
  if region.length < required then .error (.capacityExceedsArena required region.length)
  else .ok (build shape region capacity slotSize m)

/-- A pool in a region carved off an arena for it, for slots of at least `asked` bytes. -/
def withSlotSize (shape : Shape) (capacity asked : Nat) (a : Arena) :
    Except PoolError (Pool × Arena) := do
  let slotSize ← slotBytes shape capacity asked
  let required ← footprint capacity slotSize a.remaining
  match a.reserve required with
  | (_, none) => .error (.capacityExceedsArena required a.remaining)
  | (a, some region) =>
    let (p, m) := build shape region capacity slotSize a.memory
    .ok (p, { a with memory := m })

/-- A pool in a region carved off an arena for it, for slots as large as an element. -/
def new (shape : Shape) (capacity : Nat) (a : Arena) : Except PoolError (Pool × Arena) :=
  withSlotSize shape capacity shape.size a

/-- Takes the first free slot. -/
def acquire (p : Pool) (m : Memory) : Pool × Memory × Option UInt32 :=
  let (s, slot) := (p.shared m).acquire p.slots
  (p.update s, s.memory, slot)

/-- Gives a slot back. -/
def release (p : Pool) (m : Memory) (index : UInt32) : Pool × Memory :=
  let s := (p.shared m).release p.slots index
  (p.update s, s.memory)

/-- The distance of a slot from the first byte of the arena. -/
def offsetOf (p : Pool) (index : UInt32) : Nat := p.slots.place index

/-- The address of a slot. -/
def addressOf (p : Pool) (index : UInt32) : Nat := p.region.address + index.toNat * p.slotSize

/-- The distance of an address from the first slot, going round at the largest address. -/
def distance (p : Pool) (address : Nat) : Nat :=
  (address + (Size.limit - p.region.address % Size.limit)) % Size.limit

/-- Whether an address is that of a slot. -/
def contains (p : Pool) (address : Nat) : Bool :=
  p.distance address < p.capacity * p.slotSize && p.distance address % p.slotSize == 0

/-- The number of the slot that starts at or before an address in the pool. -/
def indexOf (p : Pool) (address : Nat) : UInt32 :=
  UInt32.ofNat ((address - p.region.address) / p.slotSize)

/-- The number of the slot at an address. -/
def slotIndex (p : Pool) (address : Nat) : Option Nat :=
  if p.contains address then some (p.indexOf address).toNat else none

/-- Takes the first free slot, and gives its address. -/
def acquireAt (p : Pool) (m : Memory) : Pool × Memory × Option Nat :=
  match p.acquire m with
  | (p', m, slot) => (p', m, slot.map p.addressOf)

/-- Gives the slot at an address back. -/
def releaseAt (p : Pool) (m : Memory) (address : Nat) : Pool × Memory :=
  p.release m (p.indexOf address)

/-- The bytes that the slots take. -/
def footprintBytes (p : Pool) : Nat := p.capacity * p.slotSize

/-- Slots out at the moment, by the counters. -/
def inUse (p : Pool) : Nat := p.counters.inUse.toNat

/-- Free slots at the moment, by the counters. -/
def freeCount (p : Pool) : Nat := p.capacity - p.inUse

/-- Free slots at the moment, by following the links. -/
def countFree (p : Pool) (m : Memory) : Nat := ((p.shared m).freeSlots p.slots).length

/-- The counters and the occupancy at the moment. -/
def snapshot (p : Pool) : Snapshot := p.counters.snapshot

/-- The counters as text. -/
def Counters.describe (c : Counters) : String :=
  Text.record "PoolStats"
    [("acquired", Numeral.decimal c.acquired.toNat), ("released", Numeral.decimal c.released.toNat),
      ("exhausted", Numeral.decimal c.exhausted.toNat),
      ("contended", Numeral.decimal c.contended.toNat)]

/-- The pool as text, its address withheld. -/
def describe (p : Pool) : String :=
  Text.record "FixedSlotPool"
    [("capacity", Numeral.decimal p.capacity), ("slot_size", Numeral.decimal p.slotSize),
      ("region", p.region.describe), ("stats", p.counters.describe)]

end Pool
end Slab
