import Slab.Dict
import Slab.Metrics.Exposition

/-!
# Registration of metrics

Metrics are declared under a name, with a meaning, and then registered, each name once. What is
registered is written in the order of the names.

* `MetricsError`: why a family cannot be declared or registered;
* `Family.declare`, `Registry.register`: the two steps for one family;
* `Metric.declared`: the order in which the metrics come;
* `Recorder.registry`, `Recorder.gather`: all families of a recorder, and their text.
-/

namespace Slab.Metrics

/-- Why a family cannot be declared or registered. -/
inductive MetricsError
  | invalidName (name : String)
  | missingHelp (name : String)
  | boundsOutOfOrder (name : String)
  | taken (name : String)
  deriving DecidableEq, Repr

/-- Registered families under their names. -/
abbrev Registry := Dict String Family

/-- The characters that a name may begin with. -/
def isNameStart (c : Char) : Bool := c.isAlpha || c == '_' || c == ':'

/-- Whether a text is a name of metrics. -/
def isName : List Char → Bool
  | [] => false
  | c :: s => isNameStart c && s.all fun d => isNameStart d || d.isDigit

/-- Whether every number is smaller than the one after it. -/
def isAscending : List Nat → Bool
  | [] => true
  | [_] => true
  | a :: b :: l => a < b && isAscending (b :: l)

/-- Whether the bounds of a histogram ascend. -/
def Values.inOrder : Values → Bool
  | histogram h => isAscending (h.covered.map Prod.fst)
  | _ => true

/-- Declares a family. -/
def Family.declare (f : Family) : Except MetricsError Family :=
  if !isName f.name.toList then .error (.invalidName f.name)
  else if f.help.isEmpty then .error (.missingHelp f.name)
  else if !f.values.inOrder then .error (.boundsOutOfOrder f.name)
  else .ok f

/-- Registers a family, whose name must be free. -/
def Registry.register (d : Registry) (f : Family) : Except MetricsError Registry :=
  if (d.find? f.name).isSome then .error (.taken f.name) else .ok (d.insert f.name f)

/-- All metrics, in the order in which they are declared and registered. -/
def Metric.declared : List Metric :=
  [gauge .capacity, gauge .inUse, gauge .arenaBytes, total .acquired, total .released,
    total .exhausted, total .contended, cycles]

namespace Recorder

/-- All families, registered. -/
def registry (r : Recorder) : Except MetricsError Registry := do
  let families ← (Metric.declared.map r.family).mapM Family.declare
  families.foldlM Registry.register []

/-- The text of all registered families. -/
def gather (r : Recorder) : Except MetricsError String := do
  let registry ← r.registry
  .ok (textOf (registry.map Prod.snd))

end Recorder
end Slab.Metrics
