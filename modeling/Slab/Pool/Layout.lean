import Slab.Host
import Slab.Number.Numeral
import Slab.Size

/-!
# Layout of a pool

How many bytes a slot takes and how many all slots take together, or why a pool cannot be laid out.

* `Shape`: the size and the alignment of the elements;
* `PoolError`: why a pool is not built;
* `slotBytes`: the bytes of a slot;
* `footprint`: the bytes of all slots.
-/

namespace Slab

/-- The size and the alignment of the elements of a pool. -/
structure Shape where
  size : Nat
  align : Nat
  deriving DecidableEq, Repr, Inhabited

/-- Why a pool is not built. -/
inductive PoolError
  | zeroCapacity
  | capacityExceedsArena (required available : Nat)
  | capacityTooLarge (capacity : Nat)
  | unsupportedAlignment (align : Nat)
  deriving DecidableEq, Repr

/-- What the user reads. -/
def PoolError.message : PoolError → String
  | zeroCapacity => "Pool capacity must be greater than zero"
  | capacityExceedsArena required available =>
    "Pool footprint of " ++ Numeral.decimal required ++ " bytes exceeds the " ++
      Numeral.decimal available ++ " bytes left in the arena"
  | capacityTooLarge capacity =>
    "Pool capacity " ++ Numeral.decimal capacity ++ " exceeds the addressable slot count"
  | unsupportedAlignment align =>
    "Element alignment " ++ Numeral.decimal align ++ " exceeds the cache line size"

namespace Pool

/-- The number that marks the end of the free list and therefore is the number of no slot. -/
def nil : UInt32 := 0xFFFFFFFF

/-- Bytes of the link that a free slot holds. -/
def linkBytes : Nat := 4

/-- The bytes of a slot: the number asked for, but no less than an element and a link, in whole
cache lines. -/
def slotBytes (shape : Shape) (capacity asked : Nat) : Except PoolError Nat :=
  if capacity = 0 then .error .zeroCapacity
  else if nil.toNat < capacity then .error (.capacityTooLarge capacity)
  else if cacheLine < shape.align then .error (.unsupportedAlignment shape.align)
  else
    match Size.roundUp? cacheLine (max (max asked shape.size) linkBytes) with
    | some n => .ok n
    | none => .error (.capacityTooLarge capacity)

/-- The bytes of all slots. Where no machine word holds them the error names the largest size. -/
def footprint (capacity slotSize available : Nat) : Except PoolError Nat :=
  match Size.mul? capacity slotSize with
  | some n => .ok n
  | none => .error (.capacityExceedsArena Size.largest available)

end Pool
end Slab
