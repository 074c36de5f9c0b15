/-
**What is printed of the results** (`Histogram.h`, `IoBucketizer.cc`).

* `getMin`, `getMax`, `getPercentile`, `getMean`, `getStandardDeviationSq` — the queries of
  `Histogram<uint64_t>`, over the entries of its hash table in any order of iteration. The doubles are
  exact rationals; a standard deviation is the number whose square root is returned.
* `mergeIn` — `Merge` with the order in which it iterates over the other table.
* `getNumberOfValidBuckets`, `getStandardDeviationSq` — the same for `IoBucketizer`.
-/

import DiskSpd.Model.Results
import Mathlib.Data.Rat.Defs
import Mathlib.Algebra.Order.Ring.Unbundled.Rat

namespace DiskSpd

namespace Histogram

/-- The entries of a hash table, in the order of an iteration. -/
abbrev Entries (T : Type) := List (Sigma fun _ : T => UInt32)

/-- An order in which the hash table of the histogram can be iterated over. -/
def IteratesAs {T : Type} (histogram : Histogram T) (order : Entries T) : Prop :=
  order.Perm histogram.data.entries

/-- `Merge`, iterating over the other table in an order. -/
def mergeIn {T : Type} [DecidableEq T] (histogram other : Histogram T) (order : Entries T) :
    Histogram T where
  samples := histogram.samples + other.samples
  data := order.foldl (fun data i => bump data i.1 i.2) histogram.data

/-- The exceptions of a histogram. -/
inductive Error where
  | invalidArgument (what : String)
  | runtimeError (what : String)
  | overflowError (what : String)
  deriving DecidableEq, Repr

section Queries

variable (histogram : Histogram UInt64) (order : Entries UInt64)

def getSampleSize : UInt32 := histogram.samples

/-- From `numeric_limits<T>::max()` down. -/
def getMin : UInt64 :=
  (order.map (·.1)).foldl (fun min v => if v < min then v else min) 18446744073709551615

/-- From `numeric_limits<T>::min()` up. -/
def getMax : UInt64 :=
  (order.map (·.1)).foldl (fun max v => if v > max then v else max) 0

/-- `_GetSortedData`: the entries in a `std::map`. -/
def getSortedData : Entries UInt64 :=
  order.mergeSort fun i j => i.1 ≤ j.1

/-- The loop of `GetPercentile` over the sorted entries. -/
def percentileLoop (target : ℚ) : UInt32 → Entries UInt64 → Except Error UInt64
  | _, [] => .error (.runtimeError "Percentile is undefined")
  | cur, i :: rest =>
    if target ≤ (cur + i.2).toNat then .ok i.1 else percentileLoop target (cur + i.2) rest

def getPercentile (p : ℚ) : Except Error UInt64 :=
  if p < 0 ∨ 1 < p then
    .error (.invalidArgument "Percentile must be >= 0 and <= 1")
  else percentileLoop (histogram.getSampleSize.toNat * p) 0 (getSortedData order)

/-- The loop of `GetMean`. -/
def meanLoop (samples : UInt32) : ℚ → Entries UInt64 → Except Error ℚ
  | sum, [] => .ok sum
  | sum, i :: rest =>
    let bucketVal : ℚ := i.1.toNat * i.2.toNat / samples.toNat
    if sum + bucketVal < 0 then .error (.overflowError "while trying to accumulate sum")
    else meanLoop samples (sum + bucketVal) rest

def getMean : Except Error ℚ :=
  meanLoop histogram.getSampleSize 0 order

/-- The square of `GetStandardDeviation`. -/
def getStandardDeviationSq : Except Error ℚ := do
  let mean ← histogram.getMean order
  let ssd := order.foldl (fun ssd i => ssd + i.2.toNat * ((i.1.toNat : ℚ) - mean) ^ 2) 0
  return ssd / histogram.getSampleSize.toNat

end Queries

end Histogram

namespace IoBucketizer

variable (bucketizer : IoBucketizer)

/-- `_vBuckets.size() > _validBuckets ? _validBuckets : _vBuckets.size()` -/
def getNumberOfValidBuckets : Nat :=
  if bucketizer.validBuckets.toNat < bucketizer.vBuckets.length then
    bucketizer.validBuckets.toNat
  else bucketizer.vBuckets.length

def getNumberOfBuckets : Nat := bucketizer.vBuckets.length

/-- `_vBuckets[bucketNumber]` -/
def getIoBucket (n : Nat) : Option UInt32 := bucketizer.vBuckets[n]?

/-- The buckets of the loops `for (size_t i = 0; i < numBuckets; i++)`. -/
def validPart : List UInt32 := bucketizer.vBuckets.take bucketizer.getNumberOfValidBuckets

def getMean : ℚ :=
  bucketizer.validPart.foldl (fun sum bucket =>
    sum + (bucket.toNat : ℚ) / bucketizer.getNumberOfValidBuckets) 0

/-- The square of `GetStandardDeviation`. -/
def getStandardDeviationSq : ℚ :=
  if bucketizer.getNumberOfValidBuckets = 0 then 0
  else
    let ssd := bucketizer.validPart.foldl (fun ssd bucket =>
      ssd + ((bucket.toNat : ℚ) - bucketizer.getMean) ^ 2) 0
    ssd / bucketizer.getNumberOfValidBuckets

end IoBucketizer

end DiskSpd
