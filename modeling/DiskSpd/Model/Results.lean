/-
**Results of a run** (`Histogram.h`, `IoBucketizer.cc`, the result structs of `target.h`).

* `Histogram` — the number of samples and the count of each value, in 32-bit counters, with `add`
  and `merge`. The hash table is a finite map; its order of iteration is that of the entries.
* `IoBucketizer` — completions per interval, with `initializeBuckets`, `add` and `merge`. `none` is a
  failed assertion.
* `TargetResults` — the counters of one thread on one target, and `TargetResults.record`, the
  block of `thread_func` that updates them for one completed operation.
-/

import Mathlib.Data.List.AList

namespace DiskSpd

/-! ### Histogram -/

section Histogram

variable {T : Type} [DecidableEq T]

/-- `Histogram<T>`: `_samples` and `_data`. -/
structure Histogram (T : Type) where
  samples : UInt32 := 0
  data : AList (fun _ : T => UInt32) := ∅

namespace Histogram

/-- The counter of a value; a value without an entry counts 0. -/
def count (histogram : Histogram T) (v : T) : UInt32 :=
  (histogram.data.lookup v).getD 0

/-- `_data[ v ] += n` -/
def bump (data : AList fun _ : T => UInt32) (v : T) (n : UInt32) : AList fun _ : T => UInt32 :=
  data.insert v ((data.lookup v).getD 0 + n)

def add (histogram : Histogram T) (v : T) : Histogram T where
  samples := histogram.samples + 1
  data := bump histogram.data v 1

def merge (histogram other : Histogram T) : Histogram T where
  samples := histogram.samples + other.samples
  data := other.data.entries.foldl (fun data entry => bump data entry.1 entry.2) histogram.data

end Histogram

end Histogram

/-! ### IoBucketizer -/

structure IoBucketizer where
  bucketDuration : UInt64 := 0
  validBuckets : UInt64 := 0
  vBuckets : List UInt32 := []
  deriving DecidableEq, Repr

namespace IoBucketizer

def initializeBuckets (bucketizer : IoBucketizer) (bucketDuration validBuckets : UInt64) :
    Option IoBucketizer :=
  if bucketizer.bucketDuration = 0 ∧ bucketDuration ≠ 0 then
    some { bucketizer with bucketDuration, validBuckets }
  else none

/-- The number of the bucket a completion time falls into. -/
def bucketNumber (bucketizer : IoBucketizer) (ioCompletionTime : UInt64) : Nat :=
  (ioCompletionTime / bucketizer.bucketDuration).toNat

/-- `_vBuckets.resize(n)`, with zeros in the new entries, when the vector is shorter. -/
def grow (buckets : List UInt32) (n : Nat) : List UInt32 :=
  buckets ++ List.replicate (n - buckets.length) 0

def add (bucketizer : IoBucketizer) (ioCompletionTime : UInt64) : Option IoBucketizer :=
  if bucketizer.bucketDuration = 0 then none
  else
    let n := bucketizer.bucketNumber ioCompletionTime
    some { bucketizer with vBuckets := (grow bucketizer.vBuckets (n + 1)).modify n (· + 1) }

def merge (bucketizer other : IoBucketizer) : IoBucketizer where
  bucketDuration := bucketizer.bucketDuration
  validBuckets := max bucketizer.validBuckets other.validBuckets
  vBuckets := (grow bucketizer.vBuckets other.vBuckets.length).mapIdx fun i bucket =>
    bucket + other.vBuckets.getD i 0

end IoBucketizer

/-! ### The results of a thread on a target -/

inductive IopType where
  | read
  | write
  deriving DecidableEq, Repr

structure TargetResults where
  bytesCount : UInt64 := 0
  readBytesCount : UInt64 := 0
  writeBytesCount : UInt64 := 0
  iopsCount : UInt64 := 0
  readIopsCount : UInt64 := 0
  writeIopsCount : UInt64 := 0
  readLatencyHistogram : Histogram UInt64 := {}
  writeLatencyHistogram : Histogram UInt64 := {}
  readBucketizer : IoBucketizer := {}
  writeBucketizer : IoBucketizer := {}

/-- The measurement options that `thread_func` reads. -/
structure Measure where
  latency : Bool := false
  iopsStdDev : Bool := false
  deriving DecidableEq, Repr

/-- One completed operation as the recording block of `thread_func` sees it. -/
structure Completion where
  type : IopType
  ret : Int32
  absTimeUs : UInt64
  startTimeUs : UInt64
  opTime : UInt64  -- op->get_time()

namespace Completion

/-- `since_start_us`, which stays 0 when nothing is measured. -/
def sinceStartUs (completion : Completion) (measure : Measure) : UInt64 :=
  if measure.iopsStdDev || measure.latency then completion.absTimeUs - completion.startTimeUs
  else 0

/-- `op_time_us`, which stays 0 when nothing is measured. -/
def opTimeUs (completion : Completion) (measure : Measure) : UInt64 :=
  if measure.iopsStdDev || measure.latency then completion.absTimeUs - completion.opTime else 0

/-- `ret` converted to the 64-bit unsigned type of the counters. -/
def bytes (completion : Completion) : UInt64 :=
  completion.ret.toInt64.toUInt64

end Completion

namespace TargetResults

/-- The bucketizer after `Add(since_start_us/1000)`, when intervals are measured. -/
def recordBucket (measure : Measure) (completion : Completion) (bucketizer : IoBucketizer) :
    Option IoBucketizer :=
  if measure.iopsStdDev then bucketizer.add (completion.sinceStartUs measure / 1000)
  else some bucketizer

/-- The histogram after `Add(op_time_us)`, when latency is measured. -/
def recordLatency (measure : Measure) (completion : Completion) (histogram : Histogram UInt64) :
    Histogram UInt64 :=
  if measure.latency then histogram.add (completion.opTimeUs measure) else histogram

/-- The block `if (*record_results)`. -/
def record (results : TargetResults) (measure : Measure) (completion : Completion) :
    Option TargetResults :=
  let counted := { results with
    bytesCount := results.bytesCount + completion.bytes
    iopsCount := results.iopsCount + 1 }
  match completion.type with
  | .read => do
    let bucketizer ← recordBucket measure completion results.readBucketizer
    some { counted with
      readIopsCount := results.readIopsCount + 1
      readBytesCount := results.readBytesCount + completion.bytes
      readBucketizer := bucketizer
      readLatencyHistogram := recordLatency measure completion results.readLatencyHistogram }
  | .write => do
    let bucketizer ← recordBucket measure completion results.writeBucketizer
    some { counted with
      writeIopsCount := results.writeIopsCount + 1
      writeBytesCount := results.writeBytesCount + completion.bytes
      writeBucketizer := bucketizer
      writeLatencyHistogram := recordLatency measure completion results.writeLatencyHistogram }

end TargetResults

end DiskSpd
