/-!
# The machine

What the operating system answers to the requests this library makes of it, each answer a field, so
that a machine is a value. Failures carry the system's own words.

* `pageSize`, `cacheLine`: the units of reservation and of placement;
* `Fault`: a refused request;
* `Host`: one machine;
* `Host.reference`: a machine with one processor, one locality domain and plenty of memory.
-/

namespace Slab

/-- Bytes in a page. -/
def pageSize : Nat := 4096

/-- Bytes in a cache line. -/
def cacheLine : Nat := 64

/-- A refused request, in the system's words. -/
structure Fault where
  text : String
  deriving DecidableEq, Repr, Inhabited

/-- What a machine answers. `none` is consent where a request gives nothing back. -/
structure Host where
  /-- Whether memory can be placed on locality domains at all. -/
  locality : Option Fault
  /-- The address of a fresh mapping of so many bytes, all zero. -/
  map : Nat → Except Fault Nat
  /-- Giving the mapping at an address, of so many bytes, back. -/
  unmap : Nat → Nat → Option Fault
  /-- Placing the mapping at an address, of so many bytes, on a domain. -/
  bind : Nat → Nat → UInt32 → Option Fault
  /-- Advising huge pages for a mapping. -/
  advise : Nat → Nat → Option Fault
  /-- Locking all memory of the process. -/
  lockAll : Option Fault
  /-- Locking one mapping. -/
  lockRegion : Nat → Nat → Option Fault
  /-- The domain that holds the page at an address. -/
  residentDomain : Nat → Option UInt32
  /-- How many processors the process may use. -/
  cpuCount : Nat
  /-- The domains in use. -/
  domains : List UInt32
  /-- The domain of a processor, `none` for one that does not exist. -/
  cpuDomain : Nat → Option UInt32
  /-- Whether a thread may be bound to a processor. -/
  canPin : Nat → Bool
  /-- The processor that runs the program. -/
  currentCpu : Option Nat
  /-- The nanoseconds that a cycle takes, by the worker and by its number. -/
  cycleTime : Nat → Nat → UInt64

namespace Host

/-- The first size that cannot be mapped. -/
def mappingLimit : Nat := Nat.pow 2 47

/-- The words for memory that is not there. -/
def cannotAllocate : Fault := ⟨"Cannot allocate memory (os error 12)"⟩

/-- The words for a request that makes no sense to the system. -/
def invalidArgument : Fault := ⟨"Invalid argument (os error 22)"⟩

/-- The first domain that no set of domains can name. -/
def domainLimit : Nat := 1024

/-- The words for a domain that no set of domains can name. -/
def domainOutOfRange : Fault := ⟨"locality domain out of range"⟩

/-- A machine with one processor and domain 0, which maps every size below `2 ^ 47`. -/
def reference : Host where
  locality := none
  map := fun size => if size < mappingLimit then .ok 0x7F0000000000 else .error cannotAllocate
  unmap := fun _ _ => none
  bind := fun _ _ domain => if domain = 0 then none else some invalidArgument
  advise := fun _ _ => none
  lockAll := none
  lockRegion := fun _ _ => none
  residentDomain := fun _ => some 0
  cpuCount := 1
  domains := [0]
  cpuDomain := fun cpu => if cpu = 0 then some 0 else none
  canPin := fun cpu => cpu == 0
  currentCpu := some 0
  cycleTime := fun _ _ => 0

end Host
end Slab
