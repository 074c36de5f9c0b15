/-
**The waits of a job** (`Job::run_job` from the initialisation of its threads on, `thread_abort` and
the accesses of `thread_func` to what the threads share).

* `JobPhase`, `WorkerPhase` — the accesses of the job and of a worker to `thread_counter`,
  `run_threads`, `record_results`, `thread_error` and the condition variables, in program order.
* `Waits` — where everyone is, and what they share. A notification reaches the job only while it is
  in the wait on that condition variable.
* `JobOptions.waitSystem` — every interleaving. A wait ends with a notification, spuriously or with
  its timeout.
-/

import DiskSpd.Lib.Transition
import DiskSpd.Model.Profile
import Mathlib.Logic.Function.Basic

namespace DiskSpd

/-- What `wait_for` returns. -/
inductive CvStatus where
  | noTimeout
  | timeout
  deriving DecidableEq, Repr

/-- What ends a wait. -/
inductive Wakeup where
  | notified
  | spurious
  | timeout
  deriving DecidableEq, Repr

def Wakeup.status : Wakeup → CvStatus
  | .notified => .noTimeout
  | .spurious => .noTimeout
  | .timeout => .timeout

/-- The errors on which `run_job` returns `false`. -/
inductive JobError where
  | initTimedOut    -- "Thread initialization timed out!"
  | init            -- "Error during thread initialization!"
  | warmup          -- "Error during warmup phase!"
  | mainTest        -- "Error during main test!"
  deriving DecidableEq, Repr

/-- The next access of the job. -/
inductive JobPhase where
  | lockInit                       -- thread_lock(thread_mutex)
  | testCounter                    -- while(thread_counter < options->total_threads)
  | enterInitWait                  -- thread_cv.wait_for(thread_lock, init_timeout)
  | initWait
  | testInit (status : CvStatus)   -- if (thread_error) break;
  | checkInit                      -- if (thread_error)
  | enterWarmup                    -- thread_error_cv.wait_for(thread_warmup_lock, warmupdur)
  | warmupWait
  | checkWarmup (status : CvStatus)
  | startRecording                 -- record_results = true;
  | enterMain                      -- thread_error_cv.wait_for(thread_duration_lock, maindur)
  | mainWait
  | stopRecording (status : CvStatus)
  | checkMain (status : CvStatus)
  | stopThreads                    -- run_threads = false;
  | join                           -- pthread_join
  | passed                         -- return true;
  | failed (error : JobError)      -- return false;
  deriving DecidableEq, Repr

/-- The next access of a worker. -/
inductive WorkerPhase where
  | setUp
  | report          -- job->thread_counter++
  | notifyReport    -- job->thread_cv.notify_one()
  | setInitialized  -- initialized = true;
  | loopTest        -- while(*run_threads)
  | throttle        -- if (*record_results && thread_throughput)
  | waited          -- if (!*run_threads) break;
  | record          -- if (*record_results)
  | abortRun        -- *run_threads = false;
  | abortError      -- *thread_error = true;
  | abortNotify     -- job->thread_error_cv.notify_one()
  | aborted
  | ended
  deriving DecidableEq, Repr

structure Waits where
  job : JobPhase := .lockInit
  worker : Nat → WorkerPhase := fun _ => .setUp
  initialized : Nat → Bool := fun _ => false
  threadCounter : Nat := 0
  timeoutCounter : Int := 10000
  runThreads : Bool := true
  recordResults : Bool := false
  threadError : Bool := false
  /-- the wait the job is in was notified -/
  signalled : Bool := false

/-- Who takes a step. `branch` is what a worker finds in the data of its own that decides where it
goes: a failure, or a throughput above the limit. -/
inductive WaitLabel where
  | job
  | wake (wakeup : Wakeup)
  | worker (n : Nat) (branch : Bool)
  deriving DecidableEq, Repr

namespace JobPhase

/-- The job is between `thread_lock(thread_mutex)` and its unlock, and not waiting. -/
def HoldsMutex : JobPhase → Prop
  | .testCounter | .enterInitWait | .testInit _ | .startRecording | .enterMain
  | .stopRecording _ => True
  | _ => False

instance : DecidablePred HoldsMutex := fun phase => by
  cases phase <;> unfold HoldsMutex <;> infer_instance

end JobPhase

def WorkerPhase.Done (phase : WorkerPhase) : Prop :=
  phase = .aborted ∨ phase = .ended

instance : DecidablePred WorkerPhase.Done := fun _ => inferInstanceAs (Decidable (_ ∨ _))

namespace Waits

variable (s : Waits)

/-! ### The job -/

/-- The check after a wait on `thread_error_cv`. -/
def checkError (status : CvStatus) (error : JobError) (next : JobPhase) : Waits :=
  if status = .noTimeout ∨ s.threadError then { s with job := .failed error }
  else { s with job := next }

/-- The initialisation loop, after its wait. -/
def testInit (status : CvStatus) : Waits :=
  if s.threadError then { s with job := .checkInit }
  else
    let timeoutCounter :=
      if status = .timeout then s.timeoutCounter - 1 else s.timeoutCounter
    if timeoutCounter ≤ 0 then { s with timeoutCounter, job := .failed .initTimedOut }
    else { s with timeoutCounter, job := .testCounter }

/-- An access of the job. A wait is left through `wake` only. -/
def stepJob (options : JobOptions) : Option Waits :=
  match s.job with
  | .lockInit => some { s with job := .testCounter }
  | .testCounter =>
    if s.threadCounter < options.totalThreads.toNat then some { s with job := .enterInitWait }
    else some { s with job := .checkInit }
  | .enterInitWait => some { s with job := .initWait, signalled := false }
  | .testInit status => some (s.testInit status)
  | .checkInit =>
    if s.threadError then some { s with job := .failed .init }
    else if options.warmupTime ≠ 0 then some { s with job := .enterWarmup }
    else some { s with job := .startRecording }
  | .enterWarmup => some { s with job := .warmupWait, signalled := false }
  | .checkWarmup status => some (s.checkError status .warmup .startRecording)
  | .startRecording => some { s with job := .enterMain, recordResults := true }
  | .enterMain => some { s with job := .mainWait, signalled := false }
  | .stopRecording status => some { s with job := .checkMain status, recordResults := false }
  | .checkMain status => some (s.checkError status .mainTest .stopThreads)
  | .stopThreads => some { s with job := .join, runThreads := false }
  | .join =>
    if ∀ n < options.totalThreads.toNat, (s.worker n).Done then some { s with job := .passed }
    else none
  | .initWait | .warmupWait | .mainWait | .passed | .failed _ => none

/-- Where the job goes on after a wait. -/
def afterWait : JobPhase → Option (CvStatus → JobPhase)
  | .initWait => some .testInit
  | .warmupWait => some .checkWarmup
  | .mainWait => some .stopRecording
  | _ => none

def wake (wakeup : Wakeup) : Option Waits :=
  if wakeup = .notified ∧ s.signalled = false then none
  else (afterWait s.job).map fun next =>
    { s with job := next wakeup.status, signalled := false }

/-! ### The workers -/

def moveWorker (n : Nat) (phase : WorkerPhase) : Waits :=
  { s with worker := Function.update s.worker n phase }

/-- `thread_cv.notify_one()`: lost when the job is not in that wait. -/
def notifyReport : Waits :=
  { s with signalled := s.signalled || s.job = .initWait }

/-- `thread_error_cv.notify_one()` -/
def notifyError : Waits :=
  { s with signalled := s.signalled || s.job = .warmupWait || s.job = .mainWait }

/-- An access of a worker. -/
def stepWorker (n : Nat) (branch : Bool) : Option Waits :=
  match s.worker n with
  | .setUp => some (s.moveWorker n (if branch then .abortRun else .report))
  | .report =>
    if s.job.HoldsMutex then none
    else some { s.moveWorker n .notifyReport with threadCounter := s.threadCounter + 1 }
  | .notifyReport => some (s.notifyReport.moveWorker n .setInitialized)
  | .setInitialized =>
    some { s.moveWorker n .loopTest with initialized := Function.update s.initialized n true }
  | .loopTest => some (s.moveWorker n (if s.runThreads then .throttle else .ended))
  | .throttle =>
    some (s.moveWorker n (if s.recordResults && branch then .loopTest else .waited))
  | .waited =>
    some (s.moveWorker n (if s.runThreads then if branch then .abortRun else .record else .ended))
  | .record => some (s.moveWorker n (if branch then .abortRun else .loopTest))
  | .abortRun => some { s.moveWorker n .abortError with runThreads := false }
  | .abortError => some { s.moveWorker n .abortNotify with threadError := true }
  | .abortNotify =>
    some ((if s.initialized n then s.notifyError else s).moveWorker n .aborted)
  | .aborted | .ended => none

/-! ### The system -/

def step (options : JobOptions) : WaitLabel → Option Waits
  | .job => s.stepJob options
  | .wake wakeup => s.wake wakeup
  | .worker n branch => if n < options.totalThreads.toNat then s.stepWorker n branch else none

end Waits

/-- The job and its workers, from the moment the threads exist. -/
def JobOptions.waitSystem (options : JobOptions) : Transition.System Waits WaitLabel where
  init s := s = {}
  step s label next := s.step options label = some next

end DiskSpd
