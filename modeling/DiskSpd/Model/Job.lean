/-
**The threads of a job** (`Job::run_job`, the set-up of `thread_func`).

* `rounds`, `assignTarget` — the two loops of `run_job` that give the targets to the threads: all of
  them to each thread with `-F`, the next thread to each with `-t`. `none` is an index past the end
  of `thread_params`.
* `setUpThread` — the bucketizers a thread sets up before it starts its I/O. `none` is a failed
  assertion.
* `createThreads` — the threads with what they work on; `JobOptions.system` — their runs.
-/

import DiskSpd.Model.Thread

namespace DiskSpd

namespace JobOptions

variable (job : JobOptions)

/-! ### The assignment of targets -/

/-- What a thread gets when it opens a target and allocates its buffers. -/
structure Opened where
  fd : Int32
  buffer : UInt64
  writeBuffer : UInt64

/-- The rounds of the two loops, in order: a target with its index, and the inner index. -/
def rounds : List ((Target × Nat) × Nat) :=
  job.targets.zipIdx.flatMap fun target =>
    (List.range (job.noThreads target.1).toNat).map fun innerIndex => (target, innerIndex)

/-- The thread with one more target. `opened` is what it gets when it opens it. -/
def addTarget (opened : UInt32 → Nat → Opened) (th : ThreadParams) (target : Target × Nat)
    (innerIndex : Nat) : ThreadParams :=
  let open_ := opened th.threadId target.2
  { th with
    targets := th.targets ++ [
      { target := target.1
        targetIndex := target.2
        fd := open_.fd
        buffer := open_.buffer
        writeBuffer := open_.writeBuffer }]
    relThreadId := UInt32.ofNat innerIndex }

/-- One round: the inner index chooses the thread with `-F`, the running index with `-t`. -/
def assignTarget (opened : UInt32 → Nat → Opened) (state : List ThreadParams × Nat)
    (round : (Target × Nat) × Nat) : Option (List ThreadParams × Nat) :=
  let n := if job.useTotalThreads then round.2 else state.2
  state.1[n]?.map fun th =>
    (state.1.set n (addTarget opened th round.1 round.2),
      if job.useTotalThreads then state.2 else state.2 + 1)

/-- A thread before it has any target. -/
def newThread (id : Nat) : ThreadParams where
  threadId := UInt32.ofNat id
  measure := { latency := job.measureLatency, iopsStdDev := job.measureIopsStdDev }
  targets := []

/-! ### The set-up of a thread -/

/-- `ceil(duration * 1000 / bucket_duration)`, where the product is an `unsigned int`. A duration of
0 never gets past the assertion of `Initialize`. -/
def validBuckets : UInt64 :=
  UInt64.ofNat (((job.duration * 1000).toNat + job.ioBucketDurationMs.toNat - 1) /
    job.ioBucketDurationMs.toNat)

/-- The bucketizers the results of a thread start from. -/
def bucketizer : Option IoBucketizer :=
  if job.measureIopsStdDev then
    ({} : IoBucketizer).initializeBuckets job.ioBucketDurationMs.toUInt64 job.validBuckets
  else some {}

def setUpThread (th : ThreadParams) : Option ThreadParams :=
  job.bucketizer.map fun bucketizer => { th with bucketizer }

/-- **The threads of the job** as they start their I/O. -/
def createThreads (opened : UInt32 → Nat → Opened) : Option (List ThreadParams) := do
  let (params, _) ← job.rounds.foldlM (job.assignTarget opened)
    ((List.range job.totalThreads.toNat).map job.newThread, 0)
  params.mapM job.setUpThread

/-- The runs of the job's threads, with the engine the job uses. -/
def system {Engine : Type} (dist : UniformInt Engine) (params : List ThreadParams) :
    Transition.System (JobState job.ioManager.Op Engine) Nat :=
  jobSystem job.ioManager.Op dist job.targets params

end JobOptions

end DiskSpd
