/-
**The divisions of a job.**

* `JobOptions.bucketTimeSeconds` — the divisor of `print_iops`, a `double` of the source, which is 0
  exactly when the interval is.
* `Round.sinceStartMs` — the divisor of the throttle check.
* `DividesBy` — each division the job makes by an option or by a measured time, with its divisor: in
  the set-up of a thread, in a reachable state of its threads, and where the results are printed.

Divisions by constants, and those by sample counts in the statistics, are left out.
-/

import DiskSpd.Model.Assignment
import Mathlib.Data.Rat.Defs

namespace DiskSpd

open IAsyncIop Transition

/-- `(double)options->io_bucket_duration_ms/1000.0` -/
def JobOptions.bucketTimeSeconds (job : JobOptions) : ℚ :=
  (job.ioBucketDurationMs.toNat : ℚ) / 1000

/-- `PerfClock::get_time_ms() - job_options->start_time_ms` -/
def Round.sinceStartMs (round : Round) : UInt64 :=
  round.nowMs - round.startTimeMs

/-- The throttle check gets to its division. -/
def ThreadParams.throttleDivides (th : ThreadParams) (round : Round) : Bool :=
  round.recordAtHead && (th.targets.head?.map (·.target.maxThroughput)).getD 0 != 0 &&
    round.sinceStartMs != 0

/-- The bucketizer an operation of a direction is counted in. -/
def TargetResults.bucketizer (results : TargetResults) : IopType → IoBucketizer
  | .read => results.readBucketizer
  | .write => results.writeBucketizer

/-- Every target passes the checks `run_job` makes before it starts. -/
def JobOptions.SetUpPasses (job : JobOptions) : Prop :=
  ∀ target ∈ job.targets, target.checkSetUp (job.noThreads target) = .ok ()

section Divisions

variable {Engine : Type} (dist : UniformInt Engine) (job : JobOptions)
  (opened : UInt32 → Nat → JobOptions.Opened)

/-- A state of a thread that the job's threads can reach. -/
structure ThreadReached (params : List ThreadParams) (th : ThreadParams)
    (s : ThreadState job.ioManager.Op Engine) : Prop where
  created : job.createThreads opened = some params
  reached : ∃ state, Reachable (job.system dist params) state ∧
    ∃ n, params[n]? = some th ∧ state.threads n = s

/-- **The divisions**, by the divisor. -/
inductive DividesBy : ℚ → Prop
  /-- `(double)(job_options->duration * 1000) / (double)bucket_duration`, where a thread starts. -/
  | bucketDuration {assigned : AssignState} {th : ThreadSetUp} :
      job.assignThreads opened = some assigned → th ∈ assigned.threads →
      job.measureIopsStdDev = true → DividesBy job.ioBucketDurationMs.toNat
  /-- `random_offset`, from `get_start_offset`. -/
  | startOffset {params : List ThreadParams} {th : ThreadParams}
      {s : ThreadState job.ioManager.Op Engine} {t : Nat} {tData : TargetData} :
      ThreadReached dist job opened params th s → s.phase = .start t →
      th.targets[t]? = some tData → tData.target.useRandomAlignment = true →
      DividesBy tData.target.stride.toInt
  /-- `random_offset`, from the initial `get_next_offset`. -/
  | nextOffset {params : List ThreadParams} {th : ThreadParams}
      {s : ThreadState job.ioManager.Op Engine} {t : Nat} {i : UInt32} {curr : Int64}
      {tData : TargetData} :
      ThreadReached dist job opened params th s → s.phase = .advance t i curr →
      th.targets[t]? = some tData → tData.target.useRandomAlignment = true →
      DividesBy tData.target.stride.toInt
  /-- `random_offset`, from the `get_next_offset` of a round. -/
  | reissue {params : List ThreadParams} {th : ThreadParams}
      {s : ThreadState job.ioManager.Op Engine} {flight : Flight} {op : job.ioManager.Op}
      {tData : TargetData} :
      ThreadReached dist job opened params th s → s.phase = .work → flight ∈ s.inFlight →
      s.ops[flight.op]? = some op → th.targets[getTargetData op]? = some tData →
      tData.target.useRandomAlignment = true → DividesBy tData.target.stride.toInt
  /-- `IoBucketizer::Add`. -/
  | addBucket {params : List ThreadParams} {th : ThreadParams}
      {s : ThreadState job.ioManager.Op Engine} {flight : Flight} {op : job.ioManager.Op}
      {results : TargetResults} :
      ThreadReached dist job opened params th s → s.phase = .work → flight ∈ s.inFlight →
      s.ops[flight.op]? = some op → s.results[getTargetData op]? = some results →
      th.measure.iopsStdDev = true →
      DividesBy (results.bucketizer (getType op)).bucketDuration.toNat
  /-- The throttle check. -/
  | throttle {params : List ThreadParams} {th : ThreadParams}
      {s : ThreadState job.ioManager.Op Engine} {round : Round} :
      ThreadReached dist job opened params th s → s.phase = .work →
      th.throttleDivides round = true → DividesBy round.sinceStartMs.toNat
  /-- `print_iops`: the deviation. -/
  | bucketTime {params : List ThreadParams} :
      job.createThreads opened = some params → job.measureIopsStdDev = true →
      DividesBy job.bucketTimeSeconds
  /-- `print_iops`: the rates. -/
  | duration {params : List ThreadParams} :
      job.createThreads opened = some params → DividesBy job.duration.toNat

end Divisions

end DiskSpd
