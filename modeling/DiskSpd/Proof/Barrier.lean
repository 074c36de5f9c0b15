/-
**The barrier and the window of a job.**

* `WorkerAccess`, `stepWorker_spec` — the accesses of a worker in program order, and what each changes.
* `WindowInv` — `thread_counter` counts the workers that have reported; `record_results` is set exactly
  while the job is in the main duration; `run_threads` is reset by the job or by an abort.
* `windowInv_reachable` — it holds in every interleaving; so the warm-up starts only after every worker
  has reported (`WindowInv.reported`), and a job that has passed has no worker left.
* `job_descends` — the job is never stuck: until it joins its threads, its own accesses and the timeouts
  of its waits bring it on.
-/

import DiskSpd.Proof.Waits
import Mathlib.Data.Finset.Card

namespace DiskSpd

open Transition

namespace JobPhase

/-- The job has seen every worker report. -/
def PastBarrier : JobPhase → Prop
  | .lockInit | .testCounter | .enterInitWait | .initWait | .testInit _ | .checkInit => False
  | .failed .initTimedOut | .failed .init => False
  | _ => True

/-- The job is in the main duration. -/
def Records : JobPhase → Prop
  | .enterMain | .mainWait | .stopRecording _ => True
  | _ => False

/-- The job waits for its threads, or has passed. -/
def Stops : JobPhase → Prop
  | .join | .passed => True
  | _ => False

end JobPhase

/-- The worker has reset `run_threads` in `thread_abort`. -/
def WorkerPhase.HasStopped : WorkerPhase → Prop
  | .abortError | .abortNotify | .aborted => True
  | _ => False

/-- What `initialized` is at a phase. -/
def WorkerPhase.Agrees : WorkerPhase → Bool → Prop
  | .setUp, initialized | .report, initialized | .notifyReport, initialized
  | .setInitialized, initialized => initialized = false
  | .abortRun, _ | .abortError, _ | .abortNotify, _ | .aborted, _ => True
  | _, initialized => initialized = true

namespace Waits

variable {options : JobOptions} {s next : Waits} {n : Nat} {branch : Bool}

/-- The worker has raised `thread_counter`. -/
def Reported (s : Waits) (n : Nat) : Prop :=
  s.initialized n = true ∨ s.worker n = .notifyReport ∨ s.worker n = .setInitialized

instance : DecidablePred s.Reported := fun _ => inferInstanceAs (Decidable (_ ∨ _ ∨ _))

/-! ### The accesses of a worker -/

/-- **From one access of a worker to the next.** -/
inductive WorkerAccess (s : Waits) (branch : Bool) : WorkerPhase → WorkerPhase → Prop
  | setUp : WorkerAccess s branch .setUp (if branch then .abortRun else .report)
  | report : ¬ s.job.HoldsMutex → WorkerAccess s branch .report .notifyReport
  | notifyReport : WorkerAccess s branch .notifyReport .setInitialized
  | setInitialized : WorkerAccess s branch .setInitialized .loopTest
  | loopTest : WorkerAccess s branch .loopTest (if s.runThreads then .throttle else .ended)
  | throttle : WorkerAccess s branch .throttle
      (if s.recordResults && branch then .loopTest else .waited)
  | waited : WorkerAccess s branch .waited
      (if s.runThreads then if branch then .abortRun else .record else .ended)
  | record : WorkerAccess s branch .record (if branch then .abortRun else .loopTest)
  | abortRun : WorkerAccess s branch .abortRun .abortError
  | abortError : WorkerAccess s branch .abortError .abortNotify
  | abortNotify : WorkerAccess s branch .abortNotify .aborted

/-- What an access of a worker changes besides its own phase. -/
structure WorkerFrame (s next : Waits) (n : Nat) : Prop where
  job : next.job = s.job
  others : ∀ m ≠ n, next.worker m = s.worker m
  recordResults : next.recordResults = s.recordResults
  initialized : next.initialized =
    if s.worker n = .setInitialized then Function.update s.initialized n true else s.initialized
  threadCounter : next.threadCounter =
    if s.worker n = .report then s.threadCounter + 1 else s.threadCounter
  runThreads : next.runThreads = if s.worker n = .abortRun then false else s.runThreads

theorem stepWorker_spec (step : s.stepWorker n branch = some next) :
    WorkerAccess s branch (s.worker n) (next.worker n) ∧ WorkerFrame s next n := by
  have frame : ∀ (other : Waits) (phase : WorkerPhase), other.job = s.job →
      other.worker = s.worker → other.recordResults = s.recordResults →
      (other.initialized = if s.worker n = .setInitialized then
        Function.update s.initialized n true else s.initialized) →
      (other.threadCounter = if s.worker n = .report then s.threadCounter + 1
        else s.threadCounter) →
      (other.runThreads = if s.worker n = .abortRun then false else s.runThreads) →
      WorkerFrame s (other.moveWorker n phase) n :=
    fun other phase job worker recordResults initialized counter runThreads =>
      ⟨job, fun m differs => (moveWorker_others n phase m differs).trans (by rw [worker]),
        recordResults, initialized, counter, runThreads⟩
  have moved : ∀ (other : Waits) (phase : WorkerPhase), WorkerAccess s branch (s.worker n) phase →
      WorkerAccess s branch (s.worker n) ((other.moveWorker n phase).worker n) :=
    fun other phase access => by rwa [moveWorker_self]
  unfold stepWorker at step
  cases phase : s.worker n <;> rw [phase] at step frame moved
  case setUp =>
    cases step
    exact ⟨moved s _ .setUp, frame s _ rfl rfl rfl rfl rfl rfl⟩
  case report =>
    obtain ⟨free, done⟩ := Option.ite_none_left_eq_some.mp step
    cases done
    exact ⟨moved _ _ (.report free),
      frame { s with threadCounter := s.threadCounter + 1 } _ rfl rfl rfl rfl rfl rfl⟩
  case notifyReport =>
    cases step
    exact ⟨moved _ _ .notifyReport, frame s.notifyReport _ rfl rfl rfl rfl rfl rfl⟩
  case setInitialized =>
    cases step
    exact ⟨moved _ _ .setInitialized, frame
      { s with initialized := Function.update s.initialized n true } _ rfl rfl rfl rfl rfl rfl⟩
  case loopTest =>
    cases step
    exact ⟨moved s _ .loopTest, frame s _ rfl rfl rfl rfl rfl rfl⟩
  case throttle =>
    cases step
    exact ⟨moved s _ .throttle, frame s _ rfl rfl rfl rfl rfl rfl⟩
  case waited =>
    cases step
    exact ⟨moved s _ .waited, frame s _ rfl rfl rfl rfl rfl rfl⟩
  case record =>
    cases step
    exact ⟨moved s _ .record, frame s _ rfl rfl rfl rfl rfl rfl⟩
  case abortRun =>
    cases step
    exact ⟨moved _ _ .abortRun, frame { s with runThreads := false } _ rfl rfl rfl rfl rfl rfl⟩
  case abortError =>
    cases step
    exact ⟨moved _ _ .abortError, frame { s with threadError := true } _ rfl rfl rfl rfl rfl rfl⟩
  case abortNotify =>
    cases step
    split
    · exact ⟨moved _ _ .abortNotify, frame s.notifyError _ rfl rfl rfl rfl rfl rfl⟩
    · exact ⟨moved _ _ .abortNotify, frame s _ rfl rfl rfl rfl rfl rfl⟩
  case aborted => cases step
  case ended => cases step

/-- The same of a step of the system. -/
theorem step_worker_spec {options : JobOptions} (step : s.step options (.worker n branch) = some next) :
    WorkerAccess s branch (s.worker n) (next.worker n) ∧ WorkerFrame s next n := by
  obtain ⟨-, step⟩ := Option.ite_none_right_eq_some.mp step
  exact stepWorker_spec step

/-! ### The window -/

/-- **The invariant of the barrier and of the window.** -/
structure WindowInv (options : JobOptions) (s : Waits) : Prop where
  agrees : ∀ n, (s.worker n).Agrees (s.initialized n)
  counter : s.threadCounter = ((Finset.range options.totalThreads.toNat).filter s.Reported).card
  barrier : s.job.PastBarrier → options.totalThreads.toNat ≤ s.threadCounter
  checked : s.job = .checkInit →
    options.totalThreads.toNat ≤ s.threadCounter ∨ s.threadError = true
  recording : s.recordResults = true ↔ s.job.Records
  running : s.runThreads = false ↔
    s.job.Stops ∨ ∃ n < options.totalThreads.toNat, (s.worker n).HasStopped
  ended : ∀ n, s.worker n = .ended → s.runThreads = false
  passed : s.job = .passed → ∀ n < options.totalThreads.toNat, (s.worker n).Done

/-- Past the barrier every worker has reported. -/
theorem WindowInv.reported (inv : WindowInv options s) (past : s.job.PastBarrier) :
    ∀ n < options.totalThreads.toNat, s.Reported n := by
  have all := inv.barrier past
  rw [inv.counter] at all
  have whole : (Finset.range options.totalThreads.toNat).filter s.Reported =
      Finset.range options.totalThreads.toNat :=
    Finset.eq_of_subset_of_card_le (Finset.filter_subset _ _) (by rwa [Finset.card_range])
  intro n below
  exact (Finset.filter_eq_self.mp whole) n (Finset.mem_range.mpr below)

theorem windowInv_init : WindowInv options ({} : Waits) where
  agrees _ := rfl
  counter := by
    refine (Finset.card_eq_zero.mpr (Finset.filter_eq_empty_iff.mpr fun n _ reported => ?_)).symm
    rcases reported with no | no | no <;> cases no
  barrier past := past.elim
  checked no := by cases no
  recording := iff_of_false (by decide) id
  running := by
    refine iff_of_false (by decide) ?_
    rintro (stops | ⟨_, _, stopped⟩)
    · exact stops
    · exact stopped
  ended _ no := by cases no
  passed no := by cases no

/-- The worker reports in one access only. -/
theorem WorkerAccess.reported (access : WorkerAccess s branch (s.worker n) (next.worker n))
    (frame : WorkerFrame s next n) (agrees : (s.worker n).Agrees (s.initialized n)) :
    (next.worker n).Agrees (next.initialized n) ∧
      (next.Reported n ↔ s.Reported n ∨ s.worker n = .report) := by
  unfold Reported
  rw [frame.initialized]
  generalize s.worker n = before at *
  generalize next.worker n = after at *
  cases access with
  | setInitialized => simp [WorkerPhase.Agrees]
  | setUp | loopTest | throttle | waited | record =>
    simp only [WorkerPhase.Agrees] at agrees
    repeat' split
    all_goals simp_all [WorkerPhase.Agrees]
  | report | notifyReport | abortRun | abortError | abortNotify =>
    simp_all [WorkerPhase.Agrees]

/-- A worker goes on from no end, ends only without `run_threads`, and aborts in one access only. -/
theorem WorkerAccess.ends {before after : WorkerPhase} (access : WorkerAccess s branch before after) :
    ¬ before.Done ∧ (after = .ended → s.runThreads = false) ∧
      (after.HasStopped ↔ before.HasStopped ∨ before = .abortRun) := by
  cases access with
  | setUp | loopTest | throttle | waited | record =>
    refine ⟨by decide, fun ended => ?_, ?_⟩
    · repeat' split at ended
      all_goals simp_all
    · repeat' split
      all_goals simp [WorkerPhase.HasStopped]
  | report | notifyReport | setInitialized | abortRun | abortError | abortNotify =>
    refine ⟨by decide, fun ended => (by cases ended), ?_⟩
    simp [WorkerPhase.HasStopped]

/-- The count of the workers that have reported. -/
theorem WorkerFrame.counter (frame : WorkerFrame s next n)
    (exists_ : n < options.totalThreads.toNat)
    (counter : s.threadCounter =
      ((Finset.range options.totalThreads.toNat).filter s.Reported).card)
    (fresh : s.worker n = .report → ¬ s.Reported n)
    (here : next.Reported n ↔ s.Reported n ∨ s.worker n = .report)
    (others : ∀ m ≠ n, next.Reported m ↔ s.Reported m) :
    next.threadCounter =
      ((Finset.range options.totalThreads.toNat).filter next.Reported).card := by
  rw [frame.threadCounter]
  split
  · next atReport =>
    have grown : (Finset.range options.totalThreads.toNat).filter next.Reported =
        insert n ((Finset.range options.totalThreads.toNat).filter s.Reported) := by
      ext m
      rw [Finset.mem_insert, Finset.mem_filter, Finset.mem_filter, Finset.mem_range]
      by_cases same : m = n
      · subst same
        simp only [here, atReport, or_true, and_true, true_or, exists_]
      · simp only [others m same, same, false_or]
    rw [grown, Finset.card_insert_of_notMem, counter]
    exact fun member => fresh atReport (Finset.mem_filter.mp member).2
  · next notReport =>
    rw [counter]
    congr 1
    refine Finset.filter_congr fun m _ => ?_
    by_cases same : m = n
    · subst same
      rw [here, or_iff_left notReport]
    · exact (others m same).symm

theorem WindowInv.worker (inv : WindowInv options s) (exists_ : n < options.totalThreads.toNat)
    (step : s.stepWorker n branch = some next) : WindowInv options next := by
  obtain ⟨access, frame⟩ := stepWorker_spec step
  obtain ⟨agrees, reported⟩ := access.reported frame (inv.agrees n)
  obtain ⟨notDone, endsHere, stopsHere⟩ := access.ends
  have initialized : ∀ m ≠ n, next.initialized m = s.initialized m := fun m differs => by
    rw [frame.initialized]
    split
    · exact Function.update_of_ne differs _ _
    · rfl
  have others : ∀ m ≠ n, next.Reported m ↔ s.Reported m := fun m differs => by
    unfold Reported
    rw [frame.others m differs, initialized m differs]
  have grows : s.threadCounter ≤ next.threadCounter := by
    rw [frame.threadCounter]
    split <;> omega
  have stays : s.runThreads = false → next.runThreads = false := fun stopped => by
    rw [frame.runThreads]
    split
    · rfl
    · exact stopped
  have stopped : (∃ m < options.totalThreads.toNat, (next.worker m).HasStopped) ↔
      (∃ m < options.totalThreads.toNat, (s.worker m).HasStopped) ∨ s.worker n = .abortRun := by
    constructor
    · rintro ⟨m, below, hasStopped⟩
      by_cases same : m = n
      · subst same
        exact (stopsHere.mp hasStopped).imp (fun before => ⟨m, below, before⟩) id
      · rw [frame.others m same] at hasStopped
        exact Or.inl ⟨m, below, hasStopped⟩
    · rintro (⟨m, below, hasStopped⟩ | atAbort)
      · by_cases same : m = n
        · subst same
          exact ⟨m, below, stopsHere.mpr (Or.inl hasStopped)⟩
        · exact ⟨m, below, by rwa [frame.others m same]⟩
      · exact ⟨n, exists_, stopsHere.mpr (Or.inr atAbort)⟩
  refine
    { agrees := fun m => ?_
      counter := frame.counter exists_ inv.counter (fun atReport => ?_) reported others
      barrier := fun past => (inv.barrier (frame.job ▸ past)).trans grows
      checked := fun check => ?_
      recording := by rw [frame.recordResults, frame.job]; exact inv.recording
      running := ?_
      ended := fun m ended => ?_
      passed := fun passed => absurd (inv.passed (frame.job ▸ passed) n exists_) notDone }
  · by_cases same : m = n
    · subst same
      exact agrees
    · rw [frame.others m same, initialized m same]
      exact inv.agrees m
  · have unset := inv.agrees n
    rw [atReport] at unset
    rintro (set | no | no)
    · exact Bool.false_ne_true (unset.symm.trans set)
    · cases atReport.symm.trans no
    · cases atReport.symm.trans no
  · refine (inv.checked (frame.job ▸ check)).imp (fun enough => enough.trans grows) fun set => ?_
    exact (stepWorker_effect step).threadError.mpr (Or.inl set)
  · rw [stopped, frame.job, frame.runThreads, ← or_assoc, ← inv.running]
    split
    · next atAbort => simp [atAbort]
    · next notAbort => simp [notAbort]
  · by_cases same : m = n
    · subst same
      exact stays (endsHere ended)
    · rw [frame.others m same] at ended
      exact stays (inv.ended m ended)

/-- An access of the job that opens or closes nothing. -/
theorem WindowInv.quiet (inv : WindowInv options s) (effect : JobEffect s next)
    (initialized : next.initialized = s.initialized)
    (counter : next.threadCounter = s.threadCounter)
    (recordResults : next.recordResults = s.recordResults)
    (runThreads : next.runThreads = s.runThreads)
    (past : next.job.PastBarrier → s.job.PastBarrier) (records : next.job.Records ↔ s.job.Records)
    (stops : next.job.Stops ↔ s.job.Stops)
    (check : next.job = .checkInit →
      options.totalThreads.toNat ≤ s.threadCounter ∨ s.threadError = true)
    (passed : next.job ≠ .passed) : WindowInv options next where
  agrees n := by rw [effect.worker, initialized]; exact inv.agrees n
  counter := by
    have same : next.Reported = s.Reported := by
      unfold Reported
      rw [effect.worker, initialized]
    simp only [counter, same]
    exact inv.counter
  barrier isPast := by rw [counter]; exact inv.barrier (past isPast)
  checked isCheck := by rw [counter, effect.threadError]; exact check isCheck
  recording := by rw [recordResults, records]; exact inv.recording
  running := by rw [runThreads, stops, effect.worker]; exact inv.running
  ended n := by rw [runThreads, effect.worker]; exact inv.ended n
  passed isPassed := absurd isPassed passed

theorem WindowInv.job (inv : WindowInv options s) (step : s.stepJob options = some next) :
    WindowInv options next := by
  have effect := stepJob_effect step
  unfold stepJob testInit checkError at step
  cases phase : s.job <;> rw [phase] at step <;> dsimp only at step
  case lockInit | enterInitWait | enterWarmup | enterMain =>
    cases step
    refine inv.quiet effect rfl rfl rfl rfl ?_ ?_ ?_ nofun nofun
    all_goals simp [phase, JobPhase.PastBarrier, JobPhase.Records, JobPhase.Stops]
  case testCounter =>
    split at step
    · cases step
      refine inv.quiet effect rfl rfl rfl rfl ?_ ?_ ?_ nofun nofun
      all_goals simp [phase, JobPhase.PastBarrier, JobPhase.Records, JobPhase.Stops]
    · next enough =>
      cases step
      refine inv.quiet effect rfl rfl rfl rfl ?_ ?_ ?_ (fun _ => Or.inl (Nat.not_lt.mp enough)) nofun
      all_goals simp [phase, JobPhase.PastBarrier, JobPhase.Records, JobPhase.Stops]
  case testInit status =>
    split at step
    · next set =>
      cases step
      refine inv.quiet effect rfl rfl rfl rfl ?_ ?_ ?_ (fun _ => Or.inr set) nofun
      all_goals simp [phase, JobPhase.PastBarrier, JobPhase.Records, JobPhase.Stops]
    · repeat' split at step
      all_goals
        cases step
        refine inv.quiet effect rfl rfl rfl rfl ?_ ?_ ?_ nofun nofun
        all_goals simp [phase, JobPhase.PastBarrier, JobPhase.Records, JobPhase.Stops]
  case checkWarmup | checkMain =>
    split at step
    all_goals
      cases step
      refine inv.quiet effect rfl rfl rfl rfl ?_ ?_ ?_ nofun nofun
      all_goals simp [phase, JobPhase.PastBarrier, JobPhase.Records, JobPhase.Stops]
  case checkInit =>
    split at step
    · cases step
      refine inv.quiet effect rfl rfl rfl rfl ?_ ?_ ?_ nofun nofun
      all_goals simp [phase, JobPhase.PastBarrier, JobPhase.Records, JobPhase.Stops]
    · next unset =>
      -- the barrier: no worker has set the error flag, so they have all reported
      have enough := (inv.checked phase).resolve_right unset
      have recording := inv.recording
      have running := inv.running
      rw [phase] at recording running
      split at step
      all_goals
        cases step
        exact { inv with
          barrier := fun _ => enough
          checked := nofun
          recording := recording
          running := running
          passed := nofun }
  case startRecording =>
    cases step
    have running := inv.running
    rw [phase] at running
    exact { inv with
      barrier := fun _ => inv.barrier (by rw [phase]; trivial)
      checked := nofun
      recording := iff_of_true rfl trivial
      running := running
      passed := nofun }
  case stopRecording status =>
    cases step
    have running := inv.running
    rw [phase] at running
    exact { inv with
      barrier := fun _ => inv.barrier (by rw [phase]; trivial)
      checked := nofun
      recording := iff_of_false Bool.false_ne_true id
      running := running
      passed := nofun }
  case stopThreads =>
    cases step
    have recording := inv.recording
    rw [phase] at recording
    exact { inv with
      barrier := fun _ => inv.barrier (by rw [phase]; trivial)
      checked := nofun
      recording := recording
      running := iff_of_true rfl (Or.inl trivial)
      ended := fun _ _ => rfl
      passed := nofun }
  case join =>
    obtain ⟨done, step⟩ := Option.ite_none_right_eq_some.mp step
    cases step
    have recording := inv.recording
    have running := inv.running
    rw [phase] at recording running
    exact { inv with
      barrier := fun _ => inv.barrier (by rw [phase]; trivial)
      checked := nofun
      recording := recording
      running := running
      passed := fun _ => done }
  all_goals cases step

theorem WindowInv.wake (inv : WindowInv options s) {wakeup : Wakeup}
    (step : s.wake wakeup = some next) : WindowInv options next := by
  have effect := wake_effect step
  obtain ⟨-, after, toAfter, rfl⟩ := wake_spec step
  refine inv.quiet effect rfl rfl rfl rfl ?_ ?_ ?_ ?_ ?_
  all_goals
    dsimp only
    cases phase : s.job <;> rw [phase] at toAfter <;> cases toAfter
    all_goals simp [JobPhase.PastBarrier, JobPhase.Records, JobPhase.Stops]

theorem windowInv_reachable (reached : Reachable options.waitSystem s) : WindowInv options s := by
  refine reached.invariant (fun first start => ?_) fun s label next inv step => ?_
  · cases start
    exact windowInv_init
  · cases label with
    | job => exact inv.job step
    | wake wakeup => exact inv.wake step
    | worker n branch =>
      obtain ⟨exists_, step⟩ := Option.ite_none_right_eq_some.mp step
      exact inv.worker exists_ step

/-! ### The job goes on -/

/-- How many accesses and timeouts the job has, at most, before it joins its threads. The rounds of the
initialisation are counted by its timeouts. -/
def stepsAt (timeoutCounter : Int) : JobPhase → Nat
  | .passed | .failed _ => 0
  | .join => 1
  | .stopThreads => 2
  | .checkMain _ => 3
  | .stopRecording _ => 4
  | .mainWait => 5
  | .enterMain => 6
  | .startRecording => 7
  | .checkWarmup _ => 8
  | .warmupWait => 9
  | .enterWarmup => 10
  | .checkInit => 11
  | .testInit .timeout => 12 + 4 * timeoutCounter.toNat
  | .initWait => 13 + 4 * timeoutCounter.toNat
  | .enterInitWait => 14 + 4 * timeoutCounter.toNat
  | .testCounter => 15 + 4 * timeoutCounter.toNat
  | .testInit .noTimeout => 16 + 4 * timeoutCounter.toNat
  | .lockInit => 16 + 4 * timeoutCounter.toNat

def jobSteps (s : Waits) : Nat := stepsAt s.timeoutCounter s.job

/-- A wait of the job can end with its timeout. -/
theorem wake_timeout {after : CvStatus → JobPhase} (waits : afterWait s.job = some after) :
    s.step options (.wake .timeout) =
      some { s with job := after .timeout, signalled := false } := by
  show s.wake .timeout = _
  rw [wake, if_neg (fun notified => absurd notified.1 (by decide)), waits]
  rfl

/-- A round of the initialisation uses up a timeout, or the loop ends. -/
theorem testInit_steps (status : CvStatus) :
    (s.testInit status).jobSteps < stepsAt s.timeoutCounter (.testInit status) := by
  unfold testInit jobSteps
  cases status with
  | noTimeout =>
    simp only [reduceCtorEq, if_false]
    repeat' split
    all_goals
      simp only [stepsAt]
      omega
  | timeout =>
    simp only [if_true]
    repeat' split
    all_goals
      simp only [stepsAt]
      omega

theorem checkError_steps {status : CvStatus} {error : JobError} {after : JobPhase} {steps : Nat}
    (some : 0 < steps) (less : stepsAt s.timeoutCounter after < steps) :
    (s.checkError status error after).jobSteps < steps := by
  unfold checkError jobSteps
  split
  · exact some
  · exact less

/-- **The job is never stuck before it joins its threads**: its next access, or the timeout of its wait,
brings it on. -/
theorem job_descends (notJoin : s.job ≠ .join) (running : s.jobSteps ≠ 0) :
    ∃ label next, label.ofJob = true ∧ s.step options label = some next ∧
      next.jobSteps < s.jobSteps := by
  have steps : s.jobSteps = stepsAt s.timeoutCounter s.job := rfl
  have takes {next : Waits} (step : s.stepJob options = some next)
      (less : next.jobSteps < s.jobSteps) : ∃ label next, label.ofJob = true ∧
        s.step options label = some next ∧ next.jobSteps < s.jobSteps := ⟨.job, next, rfl, step, less⟩
  have times {after : CvStatus → JobPhase} (waits : afterWait s.job = some after)
      (less : stepsAt s.timeoutCounter (after .timeout) < s.jobSteps) :
      ∃ label next, label.ofJob = true ∧ s.step options label = some next ∧
        next.jobSteps < s.jobSteps := ⟨.wake .timeout, _, rfl, wake_timeout waits, less⟩
  have job : s.stepJob options = s.stepJob options := rfl
  conv_rhs at job => unfold stepJob
  cases phase : s.job <;> rw [phase] at steps job <;> dsimp only at job
  case join => exact absurd phase notJoin
  case passed | failed => exact absurd steps running
  case initWait | warmupWait | mainWait =>
    exact times (by rw [phase]; rfl) (by rw [steps]; simp only [stepsAt]; omega)
  case testInit status => exact takes job (steps ▸ testInit_steps status)
  case checkWarmup | checkMain =>
    exact takes job (steps ▸ checkError_steps (by simp [stepsAt]) (by simp [stepsAt]))
  case testCounter =>
    split at job
    all_goals exact takes job (by rw [steps]; simp only [jobSteps, stepsAt]; omega)
  case checkInit =>
    repeat' split at job
    all_goals exact takes job (by rw [steps]; simp [jobSteps, stepsAt])
  all_goals exact takes job (by rw [steps]; simp [jobSteps, stepsAt])

end Waits

end DiskSpd
