/-
**A whole run** (`Job::run_job` and `thread_func`, over one engine).

* `Together` — which access to the flags of the job goes with which step of a thread over its engine:
  `run_job` and the device move alone; a thread works through its set-up, and through a round from the
  check of its operation to `submit`, on its own, and reads or resets the flags in between.
* `JobOptions.runSystem` — the job with its waits and the threads with their engine, side by side.
* `WorkState.jobResults` — the results that the threads leave to the formatter.
-/

import DiskSpd.Model.ResultFormatter
import DiskSpd.Model.Waits
import DiskSpd.Model.Workers

namespace DiskSpd

/-- The set-up has ended, or a round has. -/
def Place.Settled (place : Place) : Prop :=
  place = .outside .work ∨ place = .outside .aborted ∨ place = .outside .ended

instance : DecidablePred Place.Settled := fun _ => inferInstanceAs (Decidable (_ ∨ _ ∨ _))

/-- The accesses of a thread that nothing else goes with. -/
def WorkerPhase.Alone : WorkerPhase → Prop
  | .report | .notifyReport | .setInitialized | .abortRun | .abortError | .abortNotify => True
  | _ => False

section Run

variable {Op Engine : Type} {manager : IAsyncIOManager Op}

/-- **What is done in one step.** -/
inductive Together (s : Waits × WorkState manager Engine) :
    Option WaitLabel × Option Turn → Waits × WorkState manager Engine → Prop
  | job {next : Waits × WorkState manager Engine} : Together s (some .job, none) next
  | wake {wakeup : Wakeup} {next : Waits × WorkState manager Engine} :
      Together s (some (.wake wakeup), none) next
  | device {next : Waits × WorkState manager Engine} : Together s (none, some .device) next
  /-- The set-up fails before it comes to its requests. -/
  | setUpFails {k : Nat} {next : Waits × WorkState manager Engine} :
      s.1.worker k = .setUp → (s.2.workers k).place = .outside (.start 0) →
      Together s (some (.worker k true), none) next
  /-- Within the set-up, or a round; the completion reads `record_results`. -/
  | working {k : Nat} {saw : Option Bool} {next : Waits × WorkState manager Engine} :
      s.1.worker k = .setUp ∨ s.1.worker k = .record →
      saw = none ∨ saw = some s.1.recordResults → ¬ (next.2.workers k).place.Settled →
      Together s (none, some (.thread k saw)) next
  /-- `submit` returns, or the operation has failed. -/
  | settles {k : Nat} {branch : Bool} {next : Waits × WorkState manager Engine} :
      s.1.worker k = .setUp ∨ s.1.worker k = .record →
      (next.2.workers k).place = .outside (if branch then .aborted else .work) →
      Together s (some (.worker k branch), some (.thread k none)) next
  | access {k : Nat} {next : Waits × WorkState manager Engine} :
      (s.1.worker k).Alone → Together s (some (.worker k false), none) next
  /-- `while(*run_threads)` -/
  | stays {k : Nat} {next : Waits × WorkState manager Engine} :
      s.1.worker k = .loopTest → s.1.runThreads = true →
      Together s (some (.worker k false), none) next
  | leaves {k : Nat} {next : Waits × WorkState manager Engine} :
      s.1.worker k = .loopTest → s.1.runThreads = false →
      (next.2.workers k).place = .outside .ended →
      Together s (some (.worker k false), some (.thread k none)) next
  /-- The throttle check; over the limit the thread stays at the head of the loop. -/
  | throttle {k : Nat} {next : Waits × WorkState manager Engine} :
      s.1.worker k = .throttle →
      Together s (some (.worker k (decide ((next.2.workers k).place = .outside .work))),
        some (.thread k (some s.1.recordResults))) next
  | inWait {k : Nat} {next : Waits × WorkState manager Engine} :
      s.1.worker k = .waited → (s.2.workers k).place = .waiting →
      Together s (none, some (.thread k none)) next
  /-- `if (!*run_threads) break;` -/
  | goesOn {k : Nat} {op : Option Nat} {next : Waits × WorkState manager Engine} :
      s.1.worker k = .waited → (s.2.workers k).place = .waited op → s.1.runThreads = true →
      Together s (some (.worker k false), none) next
  | breaks {k : Nat} {op : Option Nat} {next : Waits × WorkState manager Engine} :
      s.1.worker k = .waited → (s.2.workers k).place = .waited op → s.1.runThreads = false →
      (next.2.workers k).place = .outside .ended →
      Together s (some (.worker k false), some (.thread k none)) next

end Run

/-- **The job and its threads**, from the moment the threads exist. -/
def JobOptions.runSystem {Engine : Type} (job : JobOptions) (dist : UniformInt Engine)
    (params : List ThreadParams) :
    Transition.System (Waits × WorkState job.ioManager.manager Engine)
      (Option WaitLabel × Option Turn) :=
  job.waitSystem.beside (job.workSystem dist params) Together

/-- The results of the threads, which are in `results->thread_results` from the start. -/
def WorkState.jobResults {Op Engine : Type} {manager : IAsyncIOManager Op}
    (params : List ThreadParams) (s : WorkState manager Engine) : JobResults where
  threadResults := params.mapIdx fun n th =>
    { threadId := th.threadId, targetResults := (s.workers n).results }

end DiskSpd
