import Slab.Dict
import Slab.Payload.Element
import Slab.Pool.Basic

/-!
# Pools in use

A pool with the elements it holds and the slots that are out. A slot is held raw, and then holds a
value only after one was written, or by a guard, which was given a value from the start and gives
the slot back when it is dropped.

* `Lease`, `Site`: how a slot is held, and a pool with its held slots;
* `PoolOp`, `PoolAnswer`: what can be asked of a pool, and what it answers;
* `Site.step`: one operation, on the pool and the memory of its arena.
-/

namespace Slab

/-- How a slot is held. -/
inductive Lease
  /-- By its address; whether a value was written. -/
  | raw (written : Bool)
  /-- By a guard. -/
  | guarded
  deriving DecidableEq, Repr

/-- A pool, its elements and its held slots. -/
structure Site where
  element : Element
  pool : Pool
  leases : Dict Nat Lease
  deriving DecidableEq, Repr

/-- What can be asked of a pool. -/
inductive PoolOp
  | acquire
  | acquireWith (v : Value)
  | acquireMany (n : Nat)
  | release (slot : Nat)
  | releaseAll (descending : Bool)
  | write (slot : Nat) (v : Value)
  | read (slot : Nat)
  | display (slot : Nat)
  | intoRaw (slot : Nat)
  | contains (offset : Int)
  | info
  | countFree
  | snapshot
  | describe
  | hammer (threads rounds hold : Nat)
  deriving DecidableEq, Repr

/-- Where a slot lies. -/
structure Place where
  slot : Nat
  /-- Its distance from the first byte of the arena. -/
  offset : Nat
  /-- Whether it starts a cache line. -/
  aligned : Bool
  deriving DecidableEq, Repr

/-- What a pool answers. -/
inductive PoolAnswer
  /-- There was no free slot. -/
  | exhausted
  | placed (place : Place)
  | slots (l : List (Option Nat))
  | released (slot : Nat)
  | dropped (slot : Nat)
  | releasedAll (slots : List Nat)
  | written (slot : Nat)
  | value (v : Value)
  | text (s : String)
  | found (slot : Option Nat)
  | info (capacity slotSize footprint : Nat)
  | count (n : Nat)
  | snapshot (s : Pool.Snapshot)
  /-- The slot is not held, or not in the way that the operation needs. -/
  | notHeld
  /-- The slot holds no value yet. -/
  | uninitialized
  deriving DecidableEq, Repr

namespace Site

/-- Where a slot lies, in an arena whose first byte is at `base`. -/
def placeOf (s : Site) (base : Nat) (slot : UInt32) : Place :=
  let address := s.pool.addressOf slot
  { slot := slot.toNat, offset := address - base, aligned := address % cacheLine == 0 }

/-- Takes a slot, which is then held in the given way. -/
def take (s : Site) (m : Memory) (lease : Lease) : Site × Memory × Option UInt32 :=
  match s.pool.acquire m with
  | (pool, m, none) => ({ s with pool }, m, none)
  | (pool, m, some slot) =>
    ({ s with pool, leases := s.leases.insert slot.toNat lease }, m, some slot)

/-- Gives a slot back. -/
def giveBack (s : Site) (m : Memory) (slot : Nat) : Site × Memory :=
  let (pool, m) := s.pool.release m (UInt32.ofNat slot)
  ({ s with pool, leases := s.leases.erase slot }, m)

/-- Takes so many slots one after another. -/
def takeMany : Nat → Site → Memory → Site × Memory × List (Option Nat)
  | 0, s, m => (s, m, [])
  | n + 1, s, m =>
    let (s, m, slot) := s.take m (.raw false)
    let (s, m, rest) := takeMany n s m
    (s, m, slot.map UInt32.toNat :: rest)

/-- Gives slots back one after another. -/
def giveBackAll : List Nat → Site → Memory → Site × Memory
  | [], s, m => (s, m)
  | slot :: slots, s, m =>
    let (s, m) := s.giveBack m slot
    giveBackAll slots s m

/-- The bytes of a slot that belong to its value. -/
def store (s : Site) (m : Memory) (slot : Nat) (v : Value) : Memory :=
  m.write (s.pool.offsetOf (UInt32.ofNat slot)) (s.element.encode v)

/-- The value in a slot. -/
def fetch (s : Site) (m : Memory) (slot : Nat) : Value :=
  s.element.decode (m.read (s.pool.offsetOf (UInt32.ofNat slot)) s.element.shape.size)

/-- So many rounds of taking a slot, giving all of them back whenever `hold` are out, and the rest
at the end. -/
def hammerAlone (hold : Nat) : Nat → List Nat → Site → Memory → Site × Memory
  | 0, held, s, m => giveBackAll held s m
  | n + 1, held, s, m =>
    match s.take m (.raw false) with
    | (s, m, none) => hammerAlone hold n held s m
    | (s, m, some slot) =>
      let held := held ++ [slot.toNat]
      if hold ≤ held.length then
        let (s, m) := giveBackAll held s m
        hammerAlone hold n [] s m
      else hammerAlone hold n held s m

/-- One thread after another at such rounds. -/
def hammer (rounds hold : Nat) : Nat → Site → Memory → Site × Memory
  | 0, s, m => (s, m)
  | threads + 1, s, m =>
    let (s, m) := hammerAlone hold rounds [] s m
    hammer rounds hold threads s m

/-- One operation, in an arena whose first byte is at `base`. -/
def step (base : Nat) (s : Site) (m : Memory) : PoolOp → Site × Memory × PoolAnswer
  | .acquire =>
    match s.take m (.raw false) with
    | (s, m, none) => (s, m, .exhausted)
    | (s, m, some slot) => (s, m, .placed (s.placeOf base slot))
  | .acquireWith v =>
    match s.take m .guarded with
    | (s, m, none) => (s, m, .exhausted)
    | (s, m, some slot) => (s, s.store m slot.toNat v, .placed (s.placeOf base slot))
  | .acquireMany n =>
    let (s, m, l) := takeMany n s m
    (s, m, .slots l)
  | .release slot =>
    match s.leases.find? slot with
    | none => (s, m, .notHeld)
    | some (.raw _) =>
      let (s, m) := s.giveBack m slot
      (s, m, .released slot)
    | some .guarded =>
      let (s, m) := s.giveBack m slot
      (s, m, .dropped slot)
  | .releaseAll descending =>
    let held := s.leases.map Prod.fst
    let held := if descending then held.reverse else held
    let (s, m) := giveBackAll held s m
    (s, m, .releasedAll held)
  | .write slot v =>
    match s.leases.find? slot with
    | none => (s, m, .notHeld)
    | some (.raw _) =>
      ({ s with leases := s.leases.insert slot (.raw true) }, s.store m slot v, .written slot)
    | some .guarded => (s, s.store m slot v, .written slot)
  | .read slot =>
    match s.leases.find? slot with
    | none => (s, m, .notHeld)
    | some (.raw false) => (s, m, .uninitialized)
    | some _ => (s, m, .value (s.fetch m slot))
  | .display slot =>
    match s.leases.find? slot with
    | some .guarded => (s, m, .text ("PooledSlot(" ++ (s.fetch m slot).describe ++ ")"))
    | _ => (s, m, .notHeld)
  | .intoRaw slot =>
    match s.leases.find? slot with
    | some .guarded =>
      ({ s with leases := s.leases.insert slot (.raw true) }, m,
        .placed (s.placeOf base (UInt32.ofNat slot)))
    | _ => (s, m, .notHeld)
  | .contains offset =>
    (s, m, .found (s.pool.slotIndex (((base : Int) + offset) % Size.limit).toNat))
  | .info => (s, m, .info s.pool.capacity s.pool.slotSize s.pool.footprintBytes)
  | .countFree => (s, m, .count (s.pool.countFree m))
  | .snapshot => (s, m, .snapshot s.pool.snapshot)
  | .describe => (s, m, .text s.pool.describe)
  | .hammer threads rounds hold =>
    let (s, m) := hammer rounds hold threads s m
    (s, m, .count (s.pool.countFree m))

end Site
end Slab
