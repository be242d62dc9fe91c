import Slab.Affinity.IdList
import Slab.Host
import Slab.Text.Quoted

/-!
# Placing threads on processors

* `AffinityError`: why a list cannot be read or a thread not be placed, with its message;
* `parseIdList`: the numbers of a list;
* `domainOf`, `pin`: the domain of a processor, binding the thread to a processor.
-/

namespace Slab

/-- Why placing a thread fails. -/
inductive AffinityError
  | invalidCpu (cpu : Nat)
  | malformed (list : String)
  | refused (fault : Fault)
  deriving DecidableEq, Repr

namespace AffinityError

/-- What the user reads. -/
def message : AffinityError → String
  | invalidCpu cpu => "CPU " ++ Numeral.decimal cpu ++ " does not exist"
  | malformed list => "Malformed CPU/node list: " ++ Text.quoted list
  | refused fault => "OS error: " ++ fault.text

end AffinityError

namespace Affinity

/-- The numbers that a list of processors or domains names. -/
def parseIdList (list : String) : Except AffinityError (List Nat) :=
  match IdList.read? list with
  | some ids => .ok ids
  | none => .error (.malformed list)

/-- The domain that a processor belongs to. -/
def domainOf (host : Host) (cpu : Nat) : Except AffinityError UInt32 :=
  match host.cpuDomain cpu with
  | some domain => .ok domain
  | none => .error (.invalidCpu cpu)

/-- Processors that a set of processors can name. -/
def setSize : Nat := 1024

/-- Binds the thread to one processor. -/
def pin (host : Host) (cpu : Nat) : Except AffinityError Unit :=
  if setSize ≤ cpu then .error (.invalidCpu cpu)
  else if host.canPin cpu then .ok ()
  else .error (.invalidCpu cpu)

end Affinity
end Slab
