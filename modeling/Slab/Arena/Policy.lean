/-!
# Policies of a reservation

Whether a locality domain is demanded or only wished for, and which memory is kept from being
swapped out.
-/

namespace Slab

/-- What to do when memory cannot be placed on its locality domain. -/
inductive LocalityPolicy
  /-- Fail. -/
  | required
  /-- Go on with memory placed anywhere. -/
  | preferred
  deriving DecidableEq, Repr, Inhabited

/-- Which memory is locked against swapping. -/
inductive LockPolicy
  /-- All memory of the process, now and later. -/
  | all
  /-- The reservation alone. -/
  | region
  /-- No memory. -/
  | none
  deriving DecidableEq, Repr, Inhabited

namespace LocalityPolicy

/-- The policy's word in a configuration. -/
def word : LocalityPolicy → String
  | required => "required"
  | preferred => "preferred"

/-- The policy's word in a report. -/
def title : LocalityPolicy → String
  | required => "Required"
  | preferred => "Preferred"

/-- All policies, in the order in which they are listed. -/
def every : List LocalityPolicy := [required, preferred]

end LocalityPolicy

namespace LockPolicy

/-- The policy's word in a configuration. -/
def word : LockPolicy → String
  | all => "all"
  | region => "region"
  | none => "none"

/-- The policy's word in a report. -/
def title : LockPolicy → String
  | all => "All"
  | region => "Region"
  | none => "None"

/-- All policies, in the order in which they are listed. -/
def every : List LockPolicy := [all, region, none]

end LockPolicy
end Slab
