/-
**The threads of a job over their engine** (`thread.cc` on top of `kernel_aio.cc` or `posix_aio.cc`).

* `Place` — where a thread is: outside the engine, at a point of `thread_func`; inside `submit` or
  `wait`; or between a `wait` and the `enqueue` of the operation it returned.
* `Worker`, `WorkState` — what a thread keeps by itself, and the state of the job: the shared offsets,
  the threads, and the engine with every operation made so far.
* `WorkStep` — one step of one thread or of the device. A call of the engine takes as many steps as the
  engine gives it; other threads come in between.
* `workSystem` — the threads of a job, interleaved, over one engine.

What the threads queue and what is in flight is in the engine alone.
-/

import DiskSpd.Model.Job
import DiskSpd.Model.Manager

namespace DiskSpd

inductive Place where
  | outside (phase : Phase)
  | submitting
  | waiting
  /-- `wait` has returned; `none` is a null pointer -/
  | waited (op : Option Nat)
  /-- the operation has its new time, offset and type -/
  | requeue (op : Nat)
  deriving DecidableEq, Repr

structure Worker (Engine : Type) where
  place : Place := .outside (.start 0)
  rngEngine : Engine
  results : List TargetResults
  threadBytesCount : Int64 := 0

structure WorkState {Op : Type} (manager : IAsyncIOManager Op) (Engine : Type) where
  interlocked : Interlocked
  workers : Nat → Worker Engine
  engine : manager.State
  /-- how many operations have been made; they are named in this order -/
  made : Nat := 0

/-- Who takes a step, and what a thread reads of `record_results` in it. -/
inductive Turn where
  | thread (k : Nat) (saw : Option Bool)
  | device
  deriving DecidableEq, Repr

/-- The thread's `thread_id`, which is its group in the engine. -/
def ThreadParams.groupId (th : ThreadParams) : Int32 := th.threadId.toInt32

section Step

variable {Op Engine : Type} [IAsyncIop Op]

open IAsyncIop

/-- The throttle check of a round, for a thread that has counted so many bytes. -/
def ThreadParams.throttles (th : ThreadParams) (threadBytesCount : Int64) (round : Round) : Bool :=
  let threadThroughput := (th.targets.head?.map (·.target.maxThroughput)).getD 0
  let sinceStartMs := round.nowMs - round.startTimeMs
  round.recordAtHead && threadThroughput != 0 && sinceStartMs != 0 &&
    threadThroughput < (threadBytesCount.toUInt64 / sinceStartMs).toInt64

namespace Worker

variable (worker : Worker Engine)

def initial (th : ThreadParams) (rngEngine : Engine) : Worker Engine where
  rngEngine := rngEngine
  results := th.targets.map fun _ =>
    { readBucketizer := th.bucketizer, writeBucketizer := th.bucketizer }

def goto (place : Place) : Worker Engine := { worker with place }

/-- The recording of a completed operation, when `record_results` is set. -/
def record (th : ThreadParams) (op : Op) (tData : TargetData) (round : Round) :
    Option (Worker Engine) :=
  if round.record then do
    let results ← worker.results[getTargetData op]?
    let updated ← results.record th.measure (ThreadState.completion op round)
    some { worker with
      threadBytesCount := (worker.threadBytesCount.toUInt64 + tData.target.blockSize).toInt64
      results := worker.results.set (getTargetData op) updated }
  else some worker

end Worker

namespace WorkState

variable {manager : IAsyncIOManager Op} (s : WorkState manager Engine) (k : Nat)

def setWorker (worker : Worker Engine) : WorkState manager Engine :=
  { s with workers := Function.update s.workers k worker }

def goto (place : Place) : WorkState manager Engine :=
  s.setWorker k ((s.workers k).goto place)

/-- What the offset functions of a target see. -/
def offsetState (tData : TargetData) : OffsetState Engine where
  interlockedOffset := s.interlocked tData.targetIndex
  rngEngine := (s.workers k).rngEngine

/-- An offset function of a target has returned. -/
def afterOffset (tData : TargetData) (state : OffsetState Engine) (place : Place) :
    WorkState manager Engine :=
  { s.setWorker k { s.workers k with place := place, rngEngine := state.rngEngine } with
    interlocked := s.interlocked.after tData state }

/-- `construct` and `enqueue` for one overlap slot. -/
def construct (op : Op) (place : Place) : WorkState manager Engine :=
  { s.goto k place with
    engine := manager.enqueue (manager.store s.engine s.made op) s.made
    made := s.made + 1 }

end WorkState

/-- **One step of a thread, or of the device.** -/
inductive WorkStep (manager : IAsyncIOManager Op) (dist : UniformInt Engine)
    (params : List ThreadParams) (s : WorkState manager Engine) :
    Turn → WorkState manager Engine → Prop
  /-- `off_t curr_offset = t_data->get_start_offset();` -/
  | startOffset {k t : Nat} {th : ThreadParams} {tData : TargetData} {offset : Int64}
      {state : OffsetState Engine} :
      params[k]? = some th → (s.workers k).place = .outside (.start t) →
      th.targets[t]? = some tData →
      tData.target.getStartOffset dist th.relThreadId (s.offsetState k tData) =
        some (offset, state) →
      WorkStep manager dist params s (.thread k none)
        (s.afterOffset k tData state (.outside (.issue t 0 offset)))
  /-- The loop over the targets ends. -/
  | targetsDone {k t : Nat} {th : ThreadParams} :
      params[k]? = some th → (s.workers k).place = .outside (.start t) →
      th.targets[t]? = none →
      WorkStep manager dist params s (.thread k none) (s.goto k (.outside .submit))
  /-- A round of the overlap loop up to `enqueue`. -/
  | construct {k t : Nat} {th : ThreadParams} {i : UInt32} {currOffset : Int64}
      {tData : TargetData} {percentage : UInt32} {now uninit : UInt64} :
      params[k]? = some th → (s.workers k).place = .outside (.issue t i currOffset) →
      th.targets[t]? = some tData → i < tData.target.overlap →
      1 ≤ percentage → percentage ≤ 100 →
      WorkStep manager dist params s (.thread k none)
        (s.construct k
          (construct uninit (ThreadState.iopArgs th tData t i currOffset percentage now))
          (.outside (.advance t i currOffset)))
  /-- The overlap loop ends. -/
  | overlapDone {k t : Nat} {th : ThreadParams} {i : UInt32} {currOffset : Int64}
      {tData : TargetData} :
      params[k]? = some th → (s.workers k).place = .outside (.issue t i currOffset) →
      th.targets[t]? = some tData → ¬ i < tData.target.overlap →
      WorkStep manager dist params s (.thread k none) (s.goto k (.outside (.start (t + 1))))
  /-- `curr_offset = t_data->get_next_offset(curr_offset);` and `++i`. -/
  | advance {k t : Nat} {th : ThreadParams} {i : UInt32} {currOffset offset : Int64}
      {tData : TargetData} {state : OffsetState Engine} :
      params[k]? = some th → (s.workers k).place = .outside (.advance t i currOffset) →
      th.targets[t]? = some tData →
      tData.target.getNextOffset dist th.relThreadId (s.offsetState k tData) currOffset =
        some (offset, state) →
      WorkStep manager dist params s (.thread k none)
        (s.afterOffset k tData state (.outside (.issue t (i + 1) offset)))
  /-- `submit` is called, for the first time or at the end of a round. -/
  | callSubmit {k : Nat} {th : ThreadParams} :
      params[k]? = some th → (s.workers k).place = .outside .submit →
      WorkStep manager dist params s (.thread k none)
        { s.goto k .submitting with engine := manager.callSubmit s.engine th.groupId }
  /-- A step inside `submit` or `wait`. -/
  | inside {k : Nat} {th : ThreadParams} {engine : manager.State} :
      params[k]? = some th →
      (s.workers k).place = .submitting ∨ (s.workers k).place = .waiting →
      manager.inside s.engine th.groupId engine →
      WorkStep manager dist params s (.thread k none) { s with engine }
  | submitReturns {k : Nat} {th : ThreadParams} {ret : Int32} {engine : manager.State} :
      params[k]? = some th → (s.workers k).place = .submitting →
      manager.submitReturns s.engine th.groupId ret engine →
      WorkStep manager dist params s (.thread k none)
        { s.goto k (.outside (if ret = 0 then .work else .aborted)) with engine }
  /-- `run_threads` is false at the head of the work loop. -/
  | leave {k : Nat} {th : ThreadParams} :
      params[k]? = some th → (s.workers k).place = .outside .work →
      WorkStep manager dist params s (.thread k none) (s.goto k (.outside .ended))
  /-- The thread is over its throughput limit and sleeps. -/
  | throttle {k : Nat} {th : ThreadParams} {round : Round} :
      params[k]? = some th → (s.workers k).place = .outside .work →
      th.throttles (s.workers k).threadBytesCount round = true →
      WorkStep manager dist params s (.thread k (some round.recordAtHead)) s
  | callWait {k : Nat} {th : ThreadParams} {round : Round} :
      params[k]? = some th → (s.workers k).place = .outside .work →
      th.throttles (s.workers k).threadBytesCount round = false →
      WorkStep manager dist params s (.thread k (some round.recordAtHead))
        { s.goto k .waiting with engine := manager.callWait s.engine th.groupId }
  | waitReturns {k : Nat} {th : ThreadParams} {op : Option Nat} {engine : manager.State} :
      params[k]? = some th → (s.workers k).place = .waiting →
      manager.waitReturns s.engine th.groupId op engine →
      WorkStep manager dist params s (.thread k none) { s.goto k (.waited op) with engine }
  /-- `run_threads` is false after `wait`. -/
  | waitLast {k : Nat} {th : ThreadParams} {op : Option Nat} :
      params[k]? = some th → (s.workers k).place = .waited op →
      WorkStep manager dist params s (.thread k none) (s.goto k (.outside .ended))
  /-- The operation failed, or its size is not the block size. -/
  | fail {k n : Nat} {th : ThreadParams} {tData : TargetData} {err ret : Int32} :
      params[k]? = some th → (s.workers k).place = .waited (some n) →
      manager.outcome s.engine n err ret →
      th.targets[getTargetData (manager.ops s.engine n)]? = some tData →
      err ≠ 0 ∨ ret.toInt64.toUInt64 ≠ tData.target.blockSize →
      WorkStep manager dist params s (.thread k none) (s.goto k (.outside .aborted))
  /-- The completion is recorded, and the operation gets its new time, offset and type. -/
  | complete {k n : Nat} {th : ThreadParams} {tData : TargetData} {round : Round} {offset : Int64}
      {state : OffsetState Engine} {recorded : Worker Engine} :
      params[k]? = some th → (s.workers k).place = .waited (some n) →
      manager.outcome s.engine n round.err round.ret →
      th.targets[getTargetData (manager.ops s.engine n)]? = some tData →
      round.err = 0 → round.ret.toInt64.toUInt64 = tData.target.blockSize →
      1 ≤ round.percentage → round.percentage ≤ 100 →
      (s.workers k).record th (manager.ops s.engine n) tData round = some recorded →
      tData.target.getNextOffset dist th.relThreadId (s.offsetState k tData)
        (getOffset (manager.ops s.engine n)) = some (offset, state) →
      WorkStep manager dist params s (.thread k (some round.record))
        { (s.setWorker k recorded).afterOffset k tData state (.requeue n) with
          engine := manager.store s.engine n
            (ThreadState.recycled (manager.ops s.engine n) tData offset round) }
  /-- The operation is enqueued again. -/
  | enqueue {k n : Nat} {th : ThreadParams} :
      params[k]? = some th → (s.workers k).place = .requeue n →
      WorkStep manager dist params s (.thread k none)
        { s.goto k (.outside .submit) with engine := manager.enqueue s.engine n }
  | device {engine : manager.State} :
      manager.device s.engine engine → WorkStep manager dist params s .device { s with engine }

end Step

/-- The threads of a job over its targets and one engine. -/
def workSystem {Op Engine : Type} [IAsyncIop Op] (manager : IAsyncIOManager Op)
    (dist : UniformInt Engine) (targets : List Target) (params : List ThreadParams) :
    Transition.System (WorkState manager Engine) Turn where
  init s :=
    (∀ k, s.interlocked k = ((targets[k]?.map (·.interlockedOffset)).getD 0)) ∧
    (∀ k th, params[k]? = some th → ∃ rngEngine, s.workers k = .initial th rngEngine) ∧
    manager.init s.engine ∧ s.made = 0
  step := WorkStep manager dist params

/-- The job's threads over the engine the job uses. -/
def JobOptions.workSystem {Engine : Type} (job : JobOptions) (dist : UniformInt Engine)
    (params : List ThreadParams) :
    Transition.System (WorkState job.ioManager.manager Engine) Turn :=
  DiskSpd.workSystem job.ioManager.manager dist job.targets params

end DiskSpd
