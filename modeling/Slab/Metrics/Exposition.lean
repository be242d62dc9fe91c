import Slab.Metrics.Recorder
import Slab.Number.Shortest

/-!
# Exposition of metrics

The text in which monitoring systems read metrics: for each family two lines on its meaning and its
type and then a line for each value. Every value is written as a floating point number.

* `Family`: metrics of one name;
* `Metric`, `Recorder.family`: what is shown under a name, and its family;
* `Family.lines`, `textOf`, `Recorder.exposition`: the lines of a family, of several as one text,
  and the text of all.
-/

namespace Slab.Metrics

/-- The values of a family. -/
inductive Values
  | counter (total : UInt64)
  | gauge (word : UInt64)
  | histogram (h : Histogram)
  deriving DecidableEq, Repr

/-- Metrics of one name. -/
structure Family where
  name : String
  help : String
  values : Values
  deriving DecidableEq, Repr

/-- The type of a family as the text names it. -/
def Values.kind : Values → String
  | counter _ => "counter"
  | gauge _ => "gauge"
  | histogram _ => "histogram"

/-- A natural number as a value. -/
def naturalText (n : Nat) : String := (Binary64.ofNat n).plainText

/-- An integer as a value. -/
def integerText (i : Int) : String := (Binary64.ofInt i).plainText

/-- A line that gives a value. -/
def sampleLine (name value : String) : String := name ++ " " ++ value

/-- A name with a bound in braces. -/
def boundedName (name bound : String) : String :=
  name ++ String.ofList ['\x7b'] ++ "le=\"" ++ bound ++ "\"" ++ String.ofList ['\x7d']

/-- The name of the samples that a bound covers. -/
def bucketName (name bound : String) : String := boundedName (name ++ "_bucket") bound

/-- The lines of a family's values. -/
def Values.lines (name : String) : Values → List String
  | counter total => [sampleLine name (naturalText total.toNat)]
  | gauge word => [sampleLine name (integerText (Metrics.gauge word))]
  | histogram h =>
    (h.covered.map fun p =>
      sampleLine (bucketName name (naturalText p.1)) (naturalText p.2.toNat)) ++
    [sampleLine (bucketName name "+Inf") (naturalText h.count.toNat),
      sampleLine (name ++ "_sum") h.sum.plainText,
      sampleLine (name ++ "_count") (naturalText h.count.toNat)]

/-- All lines of a family. -/
def Family.lines (f : Family) : List String :=
  ["# HELP " ++ f.name ++ " " ++ f.help, "# TYPE " ++ f.name ++ " " ++ f.values.kind] ++
    f.values.lines f.name

/-- The name of a gauge. -/
def Gauge.name : Gauge → String
  | .arenaBytes => "hotpool_arena_bytes"
  | .capacity => "hotpool_pool_capacity"
  | .inUse => "hotpool_pool_in_use"

/-- What a gauge means. -/
def Gauge.help : Gauge → String
  | .arenaBytes => "Bytes reserved by the arena"
  | .capacity => "Slots in the pool"
  | .inUse => "Slots currently handed out"

/-- The name of a total. -/
def Total.name : Total → String
  | .acquired => "hotpool_pool_acquired_total"
  | .released => "hotpool_pool_released_total"
  | .exhausted => "hotpool_pool_exhausted_total"
  | .contended => "hotpool_pool_contended_total"

/-- What a total means. -/
def Total.help : Total → String
  | .acquired => "Successful acquires"
  | .released => "Releases"
  | .exhausted => "Acquires that found the pool empty"
  | .contended => "Free-list CAS retries"

/-- The name of the times of cycles. -/
def cyclesName : String := "hotpool_cycle_latency_ns"

/-- What is shown. -/
inductive Metric
  | gauge (g : Gauge)
  | total (c : Total)
  | cycles
  deriving DecidableEq, Repr

namespace Metric

/-- The name of a metric. -/
def name : Metric → String
  | gauge g => g.name
  | total c => c.name
  | cycles => cyclesName

/-- What a metric means. -/
def help : Metric → String
  | gauge g => g.help
  | total c => c.help
  | cycles => "Acquire/fill/release cycle time"

/-- All metrics, in the order of their names. -/
def all : List Metric :=
  [gauge .arenaBytes, cycles, total .acquired, gauge .capacity, total .contended,
    total .exhausted, gauge .inUse, total .released]

end Metric

namespace Recorder

/-- The values of a metric. -/
def values (r : Recorder) : Metric → Values
  | .gauge g => .gauge (r.word g)
  | .total c => .counter (r.total c)
  | .cycles => .histogram r.cycles

/-- The family of a metric. -/
def family (r : Recorder) (m : Metric) : Family := ⟨m.name, m.help, r.values m⟩

/-- The families, in the order of their names. -/
def families (r : Recorder) : List Family := Metric.all.map r.family

end Recorder

/-- The text of families, every line ended. -/
def textOf (families : List Family) : String :=
  String.join ((families.flatMap Family.lines).map fun l => l ++ "\n")

/-- The text of all families. -/
def Recorder.exposition (r : Recorder) : String := textOf r.families

end Slab.Metrics
