import GasMachine.Json
import Std.Data.ExtTreeMap

/-!
# Metrics

Counters by name, faults by kind, and a histogram of the gas that chains were charged. Everything
is counted in 64-bit words that wrap around. A counter is there as soon as something was added to
it, be it zero.
-/

set_option autoImplicit false

namespace GasMachine

/-! ## Counters -/

abbrev Counters := Std.ExtTreeMap String Nat

namespace Counters

/-- Where counters wrap around. -/
def modulus : Nat := 2 ^ 64

def add (counters : Counters) (name : String) (delta : Nat) : Counters :=
  counters.alter name fun value => some ((value.getD 0 + delta) % modulus)

def toJson (counters : Counters) : Json :=
  .object (counters.toList.map fun (name, value) => (name, .int value))

end Counters

/-! ## Gas -/

/-- How much gas chains were charged: how many were charged how much, and how much in all. -/
structure Histogram where
  /-- Observations by bucket; the last bucket has no upper bound. -/
  counts : List Nat := List.replicate 9 0
  sum : Nat := 0
  count : Nat := 0

namespace Histogram

/-- The largest values of the buckets but the last. -/
def bounds : List Nat := [10 ^ 3, 10 ^ 4, 10 ^ 5, 10 ^ 6, 10 ^ 7, 10 ^ 8, 10 ^ 9, 10 ^ 10]

def bucketOf (value : Nat) : Nat := bounds.findIdx fun bound => value ≤ bound

/-- Note an amount of gas; nothing counts for an amount below zero. -/
def observe (histogram : Histogram) (gas : Int) : Histogram :=
  let value := gas.toNat
  { counts := histogram.counts.modify (bucketOf value) fun n => (n + 1) % Counters.modulus
    sum := (histogram.sum + value) % Counters.modulus
    count := (histogram.count + 1) % Counters.modulus }

def mean (histogram : Histogram) : Float :=
  if histogram.count = 0 then 0
  else (UInt64.ofNat histogram.sum).toFloat / (UInt64.ofNat histogram.count).toFloat

def toJson (histogram : Histogram) : Json :=
  .object [("mean", .double histogram.mean.toBits), ("count", .int histogram.count),
    ("bucket_bounds", .array (bounds.map fun (bound : Nat) => .int bound)),
    ("buckets", .array (histogram.counts.map fun (n : Nat) => .int n))]

end Histogram

/-! ## Metrics -/

structure Metrics where
  counters : Counters := ∅
  faults : Counters := ∅
  gas : Histogram := {}

namespace Metrics

def add (metrics : Metrics) (name : String) (delta : Nat) : Metrics :=
  { metrics with counters := metrics.counters.add name delta }

def addFault (metrics : Metrics) (kind : String) : Metrics :=
  { metrics with faults := metrics.faults.add kind 1 }

def addGas (metrics : Metrics) (gas : Int) : Metrics :=
  { metrics with gas := metrics.gas.observe gas }.add "gas_consumed" gas.toNat

def addRun (metrics : Metrics) (scripts steps : Nat) : Metrics :=
  (metrics.add "scripts" scripts).add "steps" steps

def toJson (metrics : Metrics) : Json :=
  .object [("counters", metrics.counters.toJson), ("faults", metrics.faults.toJson),
    ("gas", metrics.gas.toJson)]

end Metrics

end GasMachine
