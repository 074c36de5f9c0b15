/-
**The worker thread** (`thread.cc`).

* `TargetData`, `ThreadParams` — what a thread is given: its ids, its targets with their open files
  and buffers, and the bucketizers its results start from.
* `ThreadState` — the state of `thread_func` from the point where it starts to initialise its I/O:
  where it is (`Phase`), the operations it constructed, which of them are queued and in flight,
  the results, and the history of what it issued, submitted and recorded.
* `Step` — one step of `thread_func`: each call of an offset function, which is where the threads
  touch shared state, is a step of its own in the initialisation; a round of the work loop is one
  step, since it makes one such call.
* `jobSystem` — the threads of a job, interleaved, over the shared interlocked offsets.

The engine is what `async_io.h` promises: `submit` hands every queued operation to the kernel, and
`wait` returns any operation in flight. Clock values, results of operations, percentages and the
flags the job toggles are arbitrary inputs of a step.
-/

import DiskSpd.Lib.Transition
import DiskSpd.Model.AsyncIo

namespace DiskSpd

/-- A thread's data for one of its targets. `targetIndex` tells which target of the job it is. -/
structure TargetData where
  target : Target
  targetIndex : Nat
  fd : Int32
  buffer : UInt64
  writeBuffer : UInt64
  deriving DecidableEq, Repr

structure ThreadParams where
  threadId : UInt32
  relThreadId : UInt32 := 0
  measure : Measure := {}
  bucketizer : IoBucketizer := {}
  targets : List TargetData
  deriving DecidableEq, Repr

/-- Where the thread is. The numbers are the target, the overlap slot and `curr_offset`. -/
inductive Phase where
  | start (t : Nat)
  | issue (t : Nat) (i : UInt32) (currOffset : Int64)
  | advance (t : Nat) (i : UInt32) (currOffset : Int64)
  | submit
  | work
  | ended
  | aborted
  deriving DecidableEq, Repr

/-! ### History -/

/-- One flight of an operation: which operation, for which of the thread's targets, at which offset,
the clock value read when it was issued, and whether it is the operation's first flight. -/
structure Issue where
  op : Nat
  target : Nat
  offset : Int64
  time : UInt64
  first : Bool
  deriving DecidableEq, Repr

/-- A flight with the control block the kernel got for it. -/
structure Flight extends Issue where
  cb : ControlBlock
  deriving DecidableEq, Repr

/-- A completed flight as it was recorded. -/
structure Recorded where
  flight : Flight
  completion : Completion

/-! ### The state -/

structure ThreadState (Op Engine : Type) where
  phase : Phase := .start 0
  rngEngine : Engine
  ops : List Op := []
  opQueue : List Issue := []
  inFlight : List Flight := []
  results : List TargetResults
  threadBytesCount : Int64 := 0
  /-- every issue so far, in order -/
  issued : List Issue := []
  /-- every flight the kernel ever got -/
  submitted : List Flight := []
  /-- every completion recorded so far -/
  recorded : List Recorded := []
  /-- what memory held for the `time` field of each operation -/
  uninit : List UInt64 := []

/-- The inputs of a round of the work loop. -/
structure Round where
  recordAtHead : Bool     -- *record_results at the throttle check
  nowMs : UInt64
  startTimeMs : UInt64
  err : Int32             -- op->get_errno()
  ret : Int32             -- op->get_ret()
  absTimeUs : UInt64
  startTimeUs : UInt64
  record : Bool           -- *record_results at the recording test
  percentage : UInt32
  submitErr : Int32

section Step

variable {Op Engine : Type} [IAsyncIop Op] (dist : UniformInt Engine) (th : ThreadParams)

open IAsyncIop

/-- `get_percentage() <= write_percentage ? WRITE : READ` -/
def chooseType (percentage writePercentage : UInt32) : IopType :=
  if percentage ≤ writePercentage then .write else .read

/-- The throttle check: `-g` is given, a duration is running and the thread is over its limit. -/
def ThreadParams.throttled (s : ThreadState Op Engine) (round : Round) : Bool :=
  let threadThroughput := (th.targets.head?.map (·.target.maxThroughput)).getD 0
  let sinceStartMs := round.nowMs - round.startTimeMs
  round.recordAtHead && threadThroughput != 0 && sinceStartMs != 0 &&
    threadThroughput < (s.threadBytesCount.toUInt64 / sinceStartMs).toInt64

namespace ThreadState

variable (s : ThreadState Op Engine)

/-- The state once the targets are open: no results yet, and bucketizers as they were set up. -/
def initial (rngEngine : Engine) : ThreadState Op Engine where
  rngEngine := rngEngine
  results := th.targets.map fun _ =>
    { readBucketizer := th.bucketizer, writeBucketizer := th.bucketizer }

/-- The arguments of `construct` for overlap slot `i` of a target. -/
def iopArgs (tData : TargetData) (t : Nat) (i : UInt32) (offset : Int64)
    (percentage : UInt32) (now : UInt64) : IopArgs :=
  let readBuf := tData.buffer + i.toUInt64 * tData.target.blockSize
  { type := chooseType percentage tData.target.writePercentage
    fd := tData.fd
    offset := offset
    readBuf := readBuf
    writeBuf := if tData.target.separateBuffers then tData.writeBuffer else readBuf
    nbytes := tData.target.blockSize
    groupId := th.threadId.toInt32
    targetData := t
    timeStamp := now }

/-- `enqueue`, with the issue noted. -/
def enqueue (issue : Issue) : ThreadState Op Engine :=
  { s with opQueue := s.opQueue ++ [issue], issued := s.issued ++ [issue] }

/-- `construct` and `enqueue` for one overlap slot. -/
def construct (tData : TargetData) (t : Nat) (i : UInt32) (offset : Int64) (percentage : UInt32)
    (now uninit : UInt64) : ThreadState Op Engine :=
  let op := IAsyncIop.construct uninit (iopArgs th tData t i offset percentage now)
  let issue : Issue :=
    { op := s.ops.length, target := t, offset := offset, time := now, first := true }
  { s.enqueue issue with
    phase := .advance t i offset
    ops := s.ops ++ [op]
    uninit := s.uninit ++ [uninit] }

/-- The flights that the queued issues become. -/
def flights : List Flight :=
  s.opQueue.filterMap fun issue =>
    s.ops[issue.op]?.map fun op => { issue with cb := controlBlock op }

/-- A successful `submit`. -/
def submit : ThreadState Op Engine :=
  { s with
    phase := .work
    opQueue := []
    inFlight := s.inFlight ++ s.flights
    submitted := s.submitted ++ s.flights }

/-- The result of `submit`: the work loop goes on, or the thread aborts. -/
def afterSubmit (err : Int32) : ThreadState Op Engine :=
  if err = 0 then s.submit else { s with phase := .aborted }

/-- The completion of a round as the recording block reads it. -/
def completion (op : Op) (round : Round) : Completion where
  type := getType op
  ret := round.ret
  absTimeUs := round.absTimeUs
  startTimeUs := round.startTimeUs
  opTime := getTime op

/-- The recording of a completed flight, when `record_results` is set. -/
def record (flight : Flight) (op : Op) (tData : TargetData) (round : Round) :
    Option (ThreadState Op Engine) :=
  if round.record then do
    let results ← s.results[getTargetData op]?
    let updated ← results.record th.measure (completion op round)
    some { s with
      threadBytesCount := (s.threadBytesCount.toUInt64 + tData.target.blockSize).toInt64
      results := s.results.set (getTargetData op) updated
      recorded := s.recorded ++ [⟨flight, completion op round⟩] }
  else some s

/-- The operation with its new time, offset and type. -/
def recycled (op : Op) (tData : TargetData) (offset : Int64) (round : Round) : Op :=
  setType (chooseType round.percentage tData.target.writePercentage)
    (setOffset offset (setTime round.absTimeUs op))

/-- The end of a round: the completed operation is updated and enqueued again. -/
def reissue (flight : Flight) (op : Op) (tData : TargetData) (offset : Int64) (round : Round) :
    ThreadState Op Engine :=
  let issue : Issue :=
    { op := flight.op, target := getTargetData op, offset := offset, time := round.absTimeUs,
      first := false }
  { s.enqueue issue with ops := s.ops.set flight.op (recycled op tData offset round) }

end ThreadState

/-- The interlocked offsets of the job's targets, which all threads share. -/
abbrev Interlocked := Nat → Int64

/-- What the offset functions of a target see. -/
def ThreadState.offsetState (s : ThreadState Op Engine) (interlocked : Interlocked)
    (tData : TargetData) : OffsetState Engine where
  interlockedOffset := interlocked tData.targetIndex
  rngEngine := s.rngEngine

/-- The shared offsets after an offset function of a target. -/
def Interlocked.after (interlocked : Interlocked) (tData : TargetData)
    (state : OffsetState Engine) : Interlocked :=
  Function.update interlocked tData.targetIndex state.interlockedOffset

/-- **One step of `thread_func`.** -/
inductive Step : Interlocked → ThreadState Op Engine → Interlocked → ThreadState Op Engine → Prop
  /-- `off_t curr_offset = t_data->get_start_offset();` -/
  | startOffset {interlocked : Interlocked} {s : ThreadState Op Engine} {t : Nat}
      {tData : TargetData} {offset : Int64} {state : OffsetState Engine} :
      s.phase = .start t → th.targets[t]? = some tData →
      tData.target.getStartOffset dist th.relThreadId (s.offsetState interlocked tData) =
        some (offset, state) →
      Step interlocked s (interlocked.after tData state)
        { s with phase := .issue t 0 offset, rngEngine := state.rngEngine }
  /-- The loop over the targets ends. -/
  | targetsDone {interlocked : Interlocked} {s : ThreadState Op Engine} {t : Nat} :
      s.phase = .start t → th.targets[t]? = none →
      Step interlocked s interlocked { s with phase := .submit }
  /-- A round of the overlap loop up to `enqueue`. -/
  | construct {interlocked : Interlocked} {s : ThreadState Op Engine} {t : Nat} {i : UInt32}
      {currOffset : Int64} {tData : TargetData} {percentage : UInt32} {now uninit : UInt64} :
      s.phase = .issue t i currOffset → th.targets[t]? = some tData → i < tData.target.overlap →
      1 ≤ percentage → percentage ≤ 100 →
      Step interlocked s interlocked (s.construct th tData t i currOffset percentage now uninit)
  /-- The overlap loop ends. -/
  | overlapDone {interlocked : Interlocked} {s : ThreadState Op Engine} {t : Nat} {i : UInt32}
      {currOffset : Int64} {tData : TargetData} :
      s.phase = .issue t i currOffset → th.targets[t]? = some tData → ¬ i < tData.target.overlap →
      Step interlocked s interlocked { s with phase := .start (t + 1) }
  /-- `curr_offset = t_data->get_next_offset(curr_offset);` and `++i`. -/
  | advance {interlocked : Interlocked} {s : ThreadState Op Engine} {t : Nat} {i : UInt32}
      {currOffset offset : Int64} {tData : TargetData} {state : OffsetState Engine} :
      s.phase = .advance t i currOffset → th.targets[t]? = some tData →
      tData.target.getNextOffset dist th.relThreadId (s.offsetState interlocked tData) currOffset =
        some (offset, state) →
      Step interlocked s (interlocked.after tData state)
        { s with phase := .issue t (i + 1) offset, rngEngine := state.rngEngine }
  /-- The first `submit`. -/
  | submit {interlocked : Interlocked} {s : ThreadState Op Engine} {err : Int32} :
      s.phase = .submit → Step interlocked s interlocked (s.afterSubmit err)
  /-- `run_threads` is false at the head of the work loop. -/
  | leave {interlocked : Interlocked} {s : ThreadState Op Engine} :
      s.phase = .work → Step interlocked s interlocked { s with phase := .ended }
  /-- The thread is over its throughput limit and sleeps. -/
  | throttle {interlocked : Interlocked} {s : ThreadState Op Engine} {round : Round} :
      s.phase = .work → th.throttled s round = true → Step interlocked s interlocked s
  /-- `run_threads` is false after `wait`. -/
  | waitLast {interlocked : Interlocked} {s : ThreadState Op Engine} {round : Round}
      {before after : List Flight} {flight : Flight} :
      s.phase = .work → th.throttled s round = false → s.inFlight = before ++ flight :: after →
      Step interlocked s interlocked { s with phase := .ended, inFlight := before ++ after }
  /-- The operation failed, or its size is not the block size. -/
  | fail {interlocked : Interlocked} {s : ThreadState Op Engine} {round : Round}
      {before after : List Flight} {flight : Flight} {op : Op} {tData : TargetData} :
      s.phase = .work → th.throttled s round = false → s.inFlight = before ++ flight :: after →
      s.ops[flight.op]? = some op → th.targets[getTargetData op]? = some tData →
      round.err ≠ 0 ∨ round.ret.toInt64.toUInt64 ≠ tData.target.blockSize →
      Step interlocked s interlocked { s with phase := .aborted, inFlight := before ++ after }
  /-- A whole round of the work loop, on any flight the kernel completes. -/
  | complete {interlocked : Interlocked} {s recorded : ThreadState Op Engine} {round : Round}
      {before after : List Flight} {flight : Flight} {op : Op} {tData : TargetData}
      {offset : Int64} {state : OffsetState Engine} :
      s.phase = .work → th.throttled s round = false → s.inFlight = before ++ flight :: after →
      s.ops[flight.op]? = some op → th.targets[getTargetData op]? = some tData →
      round.err = 0 → round.ret.toInt64.toUInt64 = tData.target.blockSize →
      1 ≤ round.percentage → round.percentage ≤ 100 →
      ThreadState.record th { s with inFlight := before ++ after } flight op tData round =
        some recorded →
      tData.target.getNextOffset dist th.relThreadId (s.offsetState interlocked tData)
        (getOffset op) = some (offset, state) →
      Step interlocked s (interlocked.after tData state)
        (({ recorded with rngEngine := state.rngEngine }.reissue flight op tData offset
          round).afterSubmit round.submitErr)

end Step

/-! ### The threads of a job -/

structure JobState (Op Engine : Type) where
  interlocked : Interlocked
  threads : Nat → ThreadState Op Engine

/-- The threads of a job over its targets. A step is labelled with the thread that takes it. -/
def jobSystem {Engine : Type} (Op : Type) [IAsyncIop Op] (dist : UniformInt Engine)
    (targets : List Target) (params : List ThreadParams) :
    Transition.System (JobState Op Engine) Nat where
  init state :=
    (∀ k, state.interlocked k = ((targets[k]?.map (·.interlockedOffset)).getD 0)) ∧
    ∀ k th, params[k]? = some th → ∃ rngEngine, state.threads k = .initial th rngEngine
  step state k next :=
    ∃ th interlocked thread, params[k]? = some th ∧
      Step dist th state.interlocked (state.threads k) interlocked thread ∧
      next = { interlocked, threads := Function.update state.threads k thread }

end DiskSpd
