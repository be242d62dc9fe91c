import Slab.Host
import Slab.Number.Numeral
import Slab.Settings.Basic
import Slab.Size

/-!
# The memory that the settings ask for

Whether the slots can fit the reservation, known before anything is reserved.

* `Settings.Pool.slotBytes`: the bytes of a slot;
* `Settings.checkFootprint`: the slots against the reservation, which is rounded up to whole pages.
-/

namespace Slab

/-- The slots need more memory than there will be. -/
structure FootprintError where
  required : Nat
  available : Nat
  deriving DecidableEq, Repr

/-- What the user reads. -/
def FootprintError.message (e : FootprintError) : String :=
  "Pool needs " ++ Numeral.decimal e.required ++ " bytes but the arena is only " ++
    Numeral.decimal e.available ++ " bytes"

/-- The bytes of a slot for elements of `element` bytes: the number asked for, but no less than the
element and four bytes, in whole cache lines. -/
def Settings.Pool.slotBytes (p : Settings.Pool) (element : Nat) : Nat :=
  let asked := (p.slotSize.map UInt64.toNat).getD element
  Size.roundUp cacheLine (max (max asked element) 4)

/-- Refuses slots that take more than the whole pages of the reservation. -/
def Settings.checkFootprint (s : Settings) (element : Nat) : Except FootprintError Unit :=
  let required := Size.satMul s.pool.capacity.toNat (s.pool.slotBytes element)
  let available := Size.satRoundUp pageSize s.arena.sizeBytes.toNat
  if available < required then .error ⟨required, available⟩ else .ok ()

end Slab
