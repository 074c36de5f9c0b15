/-
**Throughput throttling** (the head of the work loop of `thread_func`).

* `ThreadParams.threadThroughput`, `overThroughput`, `addBytes` — the limit of `-g`, the estimate
  that is compared with it, and the count of bytes.
* `LoopPc` — the accesses of the thread from the head of the loop until an operation completes. From
  there to the end of a round they are those of a worker of the measurement window.
* `Throttle` — the window with the job and all its workers, and one of these with the head of its
  loop; `throttleSystem` — its runs over any monotone clock.
-/

import DiskSpd.Model.Thread
import DiskSpd.Model.Window

namespace DiskSpd

/-- `targets[0]->target->max_throughput` -/
def ThreadParams.threadThroughput (th : ThreadParams) : Int64 :=
  (th.targets.head?.map (·.target.maxThroughput)).getD 0

/-- `curr_bytes_per_ms > thread_throughput`, where the division is unsigned. -/
def overThroughput (threadThroughput threadBytesCount : Int64) (sinceStartMs : UInt64) : Bool :=
  threadThroughput < (threadBytesCount.toUInt64 / sinceStartMs).toInt64

/-- `thread_bytes_count += t_data->target->block_size` -/
def addBytes (threadBytesCount : Int64) (blockSize : UInt64) : Int64 :=
  (threadBytesCount.toUInt64 + blockSize).toInt64

/-- The next access of the thread in a round of its work loop. -/
inductive LoopPc where
  | head                          -- if (*record_results && thread_throughput)
  | readClock                     -- PerfClock::get_time_ms()
  | readStart (nowMs : UInt64)    -- since_start_ms and the checks on it
  | wait                          -- io_manager->wait(thread_id)
  | complete (tData : TargetData) -- the accesses of a worker of the window
  | left
  deriving DecidableEq, Repr

/-- A completion as the thread counted it. -/
structure ThrottleEntry where
  absTimeUs : UInt64
  startTimeMs : UInt64
  blockSize : UInt64
  threadBytesCount : Int64    -- after it
  deriving DecidableEq, Repr

structure Throttle where
  window : Window := {}
  clock : UInt64 := 0
  pc : LoopPc := .head
  threadBytesCount : Int64 := 0
  /-- the throttle check of this round was skipped -/
  skipped : Bool := false
  /-- the bytes recorded in rounds whose check was skipped -/
  skippedBytes : Nat := 0
  recorded : List ThrottleEntry := []

/-- Who takes a step, and what. -/
inductive ThrottleAct where
  | job
  | other (m : Nat)       -- another worker
  | thread                -- the next access of the thread
  | complete (t : Nat)    -- `wait` returns an operation for a target
  | leave                 -- `run_threads` is false, or the thread aborts
  deriving DecidableEq, Repr

namespace Throttle

variable (n : Nat) (th : ThreadParams) (s : Throttle) (now : UInt64)

/-- `*record_results && thread_throughput` -/
def atHead : Throttle :=
  if s.window.control.recordResults && th.threadThroughput != 0 then { s with pc := .readClock }
  else { s with pc := .wait, skipped := true }

/-- The checks on the time since the start of the duration. -/
def check (nowMs : UInt64) : Throttle :=
  let sinceStartMs := nowMs - s.window.startTimeMs
  if sinceStartMs != 0 then
    -- over the limit: sleep, and go on with the loop
    if overThroughput th.threadThroughput s.threadBytesCount sinceStartMs then
      { s with pc := .head }
    else { s with pc := .wait, skipped := false }
  else { s with pc := .wait, skipped := true }

/-- The recording of a completion. -/
def count (tData : TargetData) : Throttle :=
  let threadBytesCount := addBytes s.threadBytesCount tData.target.blockSize
  { s with
    pc := .head
    threadBytesCount := threadBytesCount
    skippedBytes := s.skippedBytes + if s.skipped then tData.target.blockSize.toNat else 0
    recorded := s.recorded ++ [
      { absTimeUs := s.window.absTimeUs n
        startTimeMs := s.window.startTimeMs
        blockSize := tData.target.blockSize
        threadBytesCount := threadBytesCount }] }

/-- The rest of a round, access by access. -/
def finish (tData : TargetData) : Throttle :=
  let next := match s.window.control.workerPc n with
    | .readClock => s
    | .test => if s.window.control.recordResults then s else { s with pc := .head }
    | .record => s.count n tData
  { next with window := s.window.step now (.worker n) }

/-- The next access of the thread. -/
def stepThread : Option Throttle :=
  match s.pc with
  | .head => some (s.atHead th)
  | .readClock => some { s with pc := .readStart (now / 1000000) }
  | .readStart nowMs => some (s.check th nowMs)
  | .complete tData => some (s.finish n now tData)
  | .wait | .left => none

def step : ThrottleAct → Option Throttle
  | .job => some { s with window := s.window.step now .job }
  | .other m => if m = n then none else some { s with window := s.window.step now (.worker m) }
  | .thread => s.stepThread n th now
  | .complete t =>
    if s.pc = .wait then th.targets[t]?.map fun tData => { s with pc := .complete tData } else none
  | .leave => if s.pc = .head ∨ s.pc = .wait then some { s with pc := .left } else none

/-- A step, at a clock value that is not before the last one. -/
def advance (label : ThrottleAct × UInt64) : Option Throttle :=
  if s.clock ≤ label.2 then
    (s.step n th label.2 label.1).map fun after => { after with clock := label.2 }
  else none

end Throttle

/-- Worker `n` of a job, throttled, over a monotone clock. -/
def throttleSystem (n : Nat) (th : ThreadParams) : Transition.System Throttle (ThrottleAct × UInt64)
    where
  init s := s = {}
  step s label next := s.advance n th label = some next

end DiskSpd
