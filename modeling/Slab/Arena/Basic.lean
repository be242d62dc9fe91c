import Slab.Arena.Policy
import Slab.Arena.Region
import Slab.Memory

/-!
# Arenas

One contiguous reservation of memory in whole pages, off which regions are carved from the front.

* `Arena`, `Arena.Options`, `ArenaError`: the reservation, what it is built from, why it fails;
* `Arena.reserved`, `Arena.remaining`: how much has been carved off and how much is left.
-/

namespace Slab

/-- What an arena is built from. -/
structure Arena.Options where
  sizeBytes : Nat
  domain : UInt32 := 0
  hugePages : Bool := true
  locality : LocalityPolicy := .required
  lock : LockPolicy := .all
  deriving DecidableEq, Repr

/-- Why an arena is not built. -/
inductive ArenaError
  | zeroSize
  | localityUnavailable (domain : UInt32) (fault : Fault)
  | outOfMemory (bytes : Nat) (fault : Fault)
  deriving DecidableEq, Repr

namespace ArenaError

/-- What the user reads. -/
def message : ArenaError → String
  | zeroSize => "Arena size must be greater than zero"
  | localityUnavailable domain fault =>
    "Locality domain " ++ Numeral.decimal domain.toNat ++ " unavailable: " ++ fault.text
  | outOfMemory bytes fault =>
    "Failed to reserve " ++ Numeral.decimal bytes ++ " bytes: " ++ fault.text

/-- The refusal of the machine behind the error. -/
def fault? : ArenaError → Option Fault
  | zeroSize => none
  | localityUnavailable _ fault => some fault
  | outOfMemory _ fault => some fault

/-- The words for a size that cannot be rounded up to whole pages. -/
def tooLarge : Fault := ⟨"out of memory"⟩

end ArenaError

/-- A reservation of memory. -/
structure Arena where
  /-- The address of its first byte. -/
  base : Nat
  /-- Its bytes, whole pages. -/
  size : Nat
  /-- The locality domain it was asked for. -/
  domain : UInt32
  /-- Whether huge pages were asked for. -/
  hugePages : Bool
  /-- Whether it lies on its domain for certain. -/
  bound : Bool
  /-- Bytes carved off. -/
  cursor : Nat
  /-- What its bytes hold, by their distance from the first one. -/
  memory : Memory

namespace Arena

/-- Bytes carved off so far. -/
def reserved (a : Arena) : Nat := a.cursor

/-- Bytes left to carve off. -/
def remaining (a : Arena) : Nat := a.size - a.reserved

/-- The domain that holds the page with the byte at `offset`. -/
def domainOf (host : Host) (a : Arena) (offset : Nat) : Option UInt32 :=
  if offset < a.size then host.residentDomain (a.base + offset) else none

/-- The arena as text, its address and its placement withheld. -/
def describe (a : Arena) : String :=
  Text.record "MemoryArena"
    [("base", Text.withheldAddress), ("size", Numeral.decimal a.size),
      ("domain", Numeral.decimal a.domain.toNat), ("bound", Text.withheld),
      ("huge_pages", Text.flag a.hugePages), ("reserved", Numeral.decimal a.reserved)]

end Arena
end Slab
