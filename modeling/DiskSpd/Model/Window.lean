/-
**Entering the main duration** (`Job::run_job` against the completion loop of `thread_func`).

* `JobPc`, `WorkerPc` — the accesses of the job and of a worker to the clock, to `start_time_*` and to
  `record_results`, in program order.
* `Control` — what the order of the accesses decides by itself: where everyone is, the flag, and the
  history of who read the clock first.
* `Window` — the state with the clock values; `windowSystem` — its runs over any monotone clock. A
  label is the one who takes a step and the clock value at that step.
-/

import DiskSpd.Lib.Transition
import DiskSpd.Model.Results

namespace DiskSpd

/-- The next access of the job. -/
inductive JobPc where
  | readClock           -- PerfClock::get_time_ns()
  | writeStartTimeNs
  | writeStartTimeUs
  | writeStartTimeMs
  | startRecording      -- record_results = true;
  | stopRecording       -- record_results = false;
  | stopped
  deriving DecidableEq, Repr

/-- The next access of a worker to what it shares with the job. -/
inductive WorkerPc where
  | readClock           -- uint64_t abs_time_us = PerfClock::get_time_us();
  | test                -- if (*record_results)
  | record              -- since_start_us = abs_time_us - job_options->start_time_us;
  deriving DecidableEq, Repr

inductive Actor where
  | job
  | worker (n : Nat)
  deriving DecidableEq, Repr

structure Control where
  jobPc : JobPc := .readClock
  recordResults : Bool := false
  workerPc : Nat → WorkerPc := fun _ => .readClock
  /-- the worker read its clock before the job did -/
  stale : Nat → Bool := fun _ => false
  /-- a worker has entered the recording block with such a clock value -/
  straddled : Bool := false

namespace Control

variable (control : Control)

def stepJob : Control :=
  match control.jobPc with
  | .readClock => { control with jobPc := .writeStartTimeNs }
  | .writeStartTimeNs => { control with jobPc := .writeStartTimeUs }
  | .writeStartTimeUs => { control with jobPc := .writeStartTimeMs }
  | .writeStartTimeMs => { control with jobPc := .startRecording }
  | .startRecording => { control with jobPc := .stopRecording, recordResults := true }
  | .stopRecording => { control with jobPc := .stopped, recordResults := false }
  | .stopped => control

def moveWorker (n : Nat) (pc : WorkerPc) : Control :=
  { control with workerPc := Function.update control.workerPc n pc }

def stepWorker (n : Nat) : Control :=
  match control.workerPc n with
  | .readClock =>
    { control.moveWorker n .test with
      stale := Function.update control.stale n (control.jobPc = .readClock) }
  | .test =>
    if control.recordResults then
      { control.moveWorker n .record with straddled := control.straddled || control.stale n }
    else control.moveWorker n .readClock
  | .record => control.moveWorker n .readClock

def step : Actor → Control
  | .job => control.stepJob
  | .worker n => control.stepWorker n

end Control

/-- A completion as a worker recorded it. -/
structure WindowEntry where
  absTimeUs : UInt64
  startTimeUs : UInt64
  clock : UInt64    -- when it was recorded, in nanoseconds
  stale : Bool
  deriving DecidableEq, Repr

structure Window where
  control : Control := {}
  clock : UInt64 := 0
  jobClock : UInt64 := 0
  startTimeNs : UInt64 := 0
  startTimeUs : UInt64 := 0
  startTimeMs : UInt64 := 0
  absTimeUs : Nat → UInt64 := fun _ => 0
  recorded : List WindowEntry := []

namespace Window

variable (w : Window) (now : UInt64)

/-- What the access of the job does to the data. -/
def jobData : Window :=
  match w.control.jobPc with
  | .readClock => { w with jobClock := now }
  | .writeStartTimeNs => { w with startTimeNs := w.jobClock }
  | .writeStartTimeUs => { w with startTimeUs := w.startTimeNs / 1000 }
  | .writeStartTimeMs => { w with startTimeMs := w.startTimeUs / 1000 }
  | _ => w

/-- What the access of a worker does to the data. -/
def workerData (n : Nat) : Window :=
  match w.control.workerPc n with
  | .readClock => { w with absTimeUs := Function.update w.absTimeUs n (now / 1000) }
  | .test => w
  | .record =>
    { w with recorded := w.recorded ++ [
        { absTimeUs := w.absTimeUs n
          startTimeUs := w.startTimeUs
          clock := now
          stale := w.control.stale n }] }

def step (actor : Actor) : Window :=
  let data := match actor with
    | .job => w.jobData now
    | .worker n => w.workerData now n
  { data with control := w.control.step actor, clock := now }

end Window

/-- The job and its workers over a monotone clock. -/
def windowSystem : Transition.System Window (Actor × UInt64) where
  init w := w = {}
  step w label next := w.clock ≤ label.2 ∧ next = w.step label.2 label.1

end DiskSpd
