import Slab.Host
import Slab.Number.Numeral
import Slab.Size
import Slab.Text.Record

/-!
# Regions

A piece of an arena that belongs to whoever has carved it off.

* `Region`: where the piece lies and how long it is;
* `Region.split`: the two parts around a point, which is rounded up to a cache line;
* `Region.describe`: the region as text.
-/

namespace Slab

/-- A piece of an arena. -/
structure Region where
  /-- The address of its first byte. -/
  address : Nat
  /-- The distance of its first byte from the first byte of the arena. -/
  offset : Nat
  length : Nat
  deriving DecidableEq, Repr, Inhabited

namespace Region

/-- Whether the region has no bytes. -/
def isEmpty (r : Region) : Bool := r.length == 0

/-- The parts before and from the cache line boundary at or after `mid`; `none` where it lies
outside the region. -/
def split (r : Region) (mid : Nat) : Option (Region × Region) :=
  match Size.roundUp? cacheLine mid with
  | none => none
  | some mid =>
    if mid ≤ r.length then
      some (⟨r.address, r.offset, mid⟩, ⟨r.address + mid, r.offset + mid, r.length - mid⟩)
    else none

/-- The region as text, its address withheld. -/
def describe (r : Region) : String :=
  Text.record "ArenaRegion"
    [("base", Text.withheldAddress), ("len", Numeral.decimal r.length),
      ("offset", Numeral.decimal r.offset),
      ("_arena", "PhantomData<&hotpool_core::alloc::arena::MemoryArena>")]

end Region
end Slab
