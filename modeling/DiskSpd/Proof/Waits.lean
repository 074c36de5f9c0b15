/-
**The job and the failures of its workers.**

* `WorkerEffect`, `JobEffect` — what an access of a worker, or of the job, does to what the other
  side reads.
* `WaitsInv` — the error flag is set exactly when a worker has set it in `thread_abort`, and a
  notification of the job in a wait on `thread_error_cv` comes from such a worker.
* `threadError_returnsFalse` — once a worker has set the flag, before the check of the main duration,
  the job returns `false` within a bounded number of accesses, whatever notifications are lost.
* `spurious_fails` — a wait on `thread_error_cv` that ends spuriously makes the job fail with no
  worker at fault: the waits have no predicate. `waits_report` — without such an end each error of
  the warm-up or of the main test has a worker that set the flag.
-/

import DiskSpd.Model.Waits

namespace DiskSpd

open Transition

variable (options : JobOptions)

namespace JobPhase

/-- The check that follows the main duration is done, and passed. -/
def PastMainCheck (phase : JobPhase) : Prop :=
  phase = .stopThreads ∨ phase = .join ∨ phase = .passed

/-- The job fails with an error of the warm-up or of the main test, or is about to. -/
def BlamesWorker (phase : JobPhase) : Prop :=
  phase = .checkWarmup .noTimeout ∨ phase = .stopRecording .noTimeout ∨
    phase = .checkMain .noTimeout ∨ phase = .failed .warmup ∨ phase = .failed .mainTest

/-- The job is in a wait on `thread_error_cv`. -/
def WaitsForError (phase : JobPhase) : Prop :=
  phase = .warmupWait ∨ phase = .mainWait

instance : DecidablePred PastMainCheck := fun _ => inferInstanceAs (Decidable (_ ∨ _ ∨ _))

instance : DecidablePred BlamesWorker :=
  fun _ => inferInstanceAs (Decidable (_ ∨ _ ∨ _ ∨ _ ∨ _))

instance : DecidablePred WaitsForError := fun _ => inferInstanceAs (Decidable (_ ∨ _))

/-- How many accesses the job has before it returns, once the error flag is set. -/
def remaining : JobPhase → Nat
  | .lockInit => 6
  | .testCounter => 5
  | .enterInitWait => 4
  | .initWait => 3
  | .testInit _ => 2
  | .checkInit => 1
  | .enterWarmup => 3
  | .warmupWait => 2
  | .checkWarmup _ => 1
  | .startRecording => 5
  | .enterMain => 4
  | .mainWait => 3
  | .stopRecording _ => 2
  | .checkMain _ => 1
  | .stopThreads => 2
  | .join => 1
  | .passed => 0
  | .failed _ => 0

end JobPhase

/-- A step of the job, the end of its wait included. -/
def WaitLabel.ofJob : WaitLabel → Bool
  | .job => true
  | .wake _ => true
  | .worker _ _ => false

/-- The worker has set the error flag in `thread_abort`. -/
def WorkerPhase.HasAborted (phase : WorkerPhase) : Prop :=
  phase = .abortNotify ∨ phase = .aborted

instance : DecidablePred WorkerPhase.HasAborted := fun _ => inferInstanceAs (Decidable (_ ∨ _))

namespace Waits

/-- Some worker has set the error flag in `thread_abort`. -/
def SomeAborted (s : Waits) : Prop :=
  ∃ n < options.totalThreads.toNat, (s.worker n).HasAborted

variable {options} {s next : Waits}

/-! ### What a step does -/

/-- An access of worker `n`, as the job and the other workers see it. -/
structure WorkerEffect (s next : Waits) (n : Nat) : Prop where
  job : next.job = s.job
  others : ∀ m, m ≠ n → next.worker m = s.worker m
  threadError : next.threadError = true ↔ s.threadError = true ∨ s.worker n = .abortError
  aborted : (next.worker n).HasAborted ↔ (s.worker n).HasAborted ∨ s.worker n = .abortError
  signalled : next.signalled = true →
    s.signalled = true ∨ s.job = .initWait ∨ (s.worker n).HasAborted

theorem moveWorker_others (n : Nat) (phase : WorkerPhase) (m : Nat) (other : m ≠ n) :
    (s.moveWorker n phase).worker m = s.worker m :=
  Function.update_of_ne other _ _

theorem moveWorker_self (n : Nat) (phase : WorkerPhase) : (s.moveWorker n phase).worker n = phase :=
  Function.update_self _ _ _

/-- An access away from the error flag and the condition variables. -/
theorem quiet_effect {n : Nat} {target : WorkerPhase} (here : ¬ (s.worker n).HasAborted)
    (noError : s.worker n ≠ .abortError) (there : ¬ target.HasAborted)
    (worker : next.worker = (s.moveWorker n target).worker) (job : next.job = s.job)
    (threadError : next.threadError = s.threadError)
    (signalled : next.signalled = s.signalled) : WorkerEffect s next n where
  job := job
  others m other := by rw [worker, moveWorker_others n target m other]
  threadError := by simp only [threadError, noError, or_false]
  aborted := by
    rw [worker, moveWorker_self]
    exact iff_of_false there (not_or.mpr ⟨here, noError⟩)
  signalled := fun set => .inl (signalled ▸ set)

theorem stepWorker_effect {n : Nat} {branch : Bool}
    (step : s.stepWorker n branch = some next) : WorkerEffect s next n := by
  unfold stepWorker at step
  cases phase : s.worker n <;> rw [phase] at step
  case report =>
    obtain ⟨-, moved⟩ := Option.ite_none_left_eq_some.mp step
    cases moved
    exact quiet_effect (by rw [phase]; decide) (by rw [phase]; decide) (by decide) rfl rfl rfl rfl
  case notifyReport =>
    cases step
    have moved : WorkerEffect s (s.moveWorker n .setInitialized) n := quiet_effect
      (by rw [phase]; decide) (by rw [phase]; decide) (by decide) rfl rfl rfl rfl
    refine { moved with signalled := fun set => ?_ }
    obtain before | waits := Bool.or_eq_true _ _ ▸ set
    · exact .inl before
    · exact .inr (.inl (of_decide_eq_true waits))
  case abortError =>
    cases step
    exact
      { job := rfl
        others := moveWorker_others n _
        threadError := iff_of_true rfl (.inr phase)
        aborted := iff_of_true (.inl (moveWorker_self n _)) (.inr phase)
        signalled := .inl }
  case abortNotify =>
    -- the notification may be lost, but the flag is set
    cases step
    have flags : ∀ other : Waits, other.job = s.job → other.threadError = s.threadError →
        other.worker = s.worker → WorkerEffect s (other.moveWorker n .aborted) n :=
      fun other job threadError worker =>
        { job := job
          others := fun m differs => (moveWorker_others n _ m differs).trans (by rw [worker])
          threadError := by
            rw [phase]
            exact ⟨fun set => .inl (threadError ▸ set), fun set => by
              obtain set | impossible := set
              · exact threadError ▸ set
              · cases impossible⟩
          aborted := iff_of_true (.inr (moveWorker_self n _)) (.inl (.inl phase))
          signalled := fun _ => .inr (.inr (.inl phase)) }
    split
    · exact flags s.notifyError rfl rfl rfl
    · exact flags s rfl rfl rfl
  case aborted => cases step
  case ended => cases step
  all_goals
    cases step
    refine quiet_effect (by rw [phase]; decide) (by rw [phase]; decide) ?_ rfl rfl rfl rfl
    repeat' split
    all_goals decide

/-- A step of the job, the end of its wait included, as the workers see it. -/
structure JobEffect (s next : Waits) : Prop where
  worker : next.worker = s.worker
  threadError : next.threadError = s.threadError
  signalled : next.signalled = true → s.signalled = true ∧ s.job ≠ .initWait

theorem stepJob_effect (step : s.stepJob options = some next) : JobEffect s next := by
  unfold stepJob testInit checkError at step
  cases phase : s.job <;> rw [phase] at step <;> dsimp only at step
  -- a wait starts without a notification
  case enterInitWait | enterWarmup | enterMain =>
    cases step
    exact ⟨rfl, rfl, fun set => nomatch set⟩
  all_goals
    repeat' split at step
    all_goals cases step
    all_goals exact ⟨rfl, rfl, fun set => ⟨set, by rw [phase]; exact nofun⟩⟩

theorem wake_spec {wakeup : Wakeup} (step : s.wake wakeup = some next) :
    (wakeup = .notified → s.signalled = true) ∧
      ∃ after, afterWait s.job = some after ∧
        next = { s with job := after wakeup.status, signalled := false } := by
  unfold wake at step
  obtain ⟨heard, left⟩ := Option.ite_none_left_eq_some.mp step
  obtain ⟨after, toAfter, rfl⟩ := Option.map_eq_some_iff.mp left
  refine ⟨fun notified => ?_, after, toAfter, rfl⟩
  by_contra silent
  exact heard ⟨notified, Bool.eq_false_of_not_eq_true silent⟩

theorem wake_effect {wakeup : Wakeup} (step : s.wake wakeup = some next) : JobEffect s next := by
  obtain ⟨-, _, -, rfl⟩ := wake_spec step
  exact ⟨rfl, rfl, fun set => nomatch set⟩

/-- **What a step can do**: a step of the job, or of a worker of the job. -/
theorem step_cases {label : WaitLabel} (step : s.step options label = some next) :
    label.ofJob = true ∧ JobEffect s next ∨
      label.ofJob = false ∧ ∃ n < options.totalThreads.toNat, WorkerEffect s next n := by
  cases label with
  | job => exact .inl ⟨rfl, stepJob_effect step⟩
  | wake wakeup => exact .inl ⟨rfl, wake_effect step⟩
  | worker n branch =>
    obtain ⟨exists_, moved⟩ := Option.ite_none_right_eq_some.mp step
    exact .inr ⟨rfl, n, exists_, stepWorker_effect moved⟩

/-! ### The invariant -/

/-- The error flag and the notifications come from the workers. -/
structure WaitsInv (options : JobOptions) (s : Waits) : Prop where
  error : s.threadError = true ↔ SomeAborted options s
  signalled : s.signalled = true → s.job = .initWait ∨ s.threadError = true

theorem WorkerEffect.someAborted {n : Nat} (effect : WorkerEffect s next n)
    (exists_ : n < options.totalThreads.toNat) :
    SomeAborted options next ↔ SomeAborted options s ∨ s.worker n = .abortError := by
  constructor
  · rintro ⟨m, small, aborted⟩
    by_cases same : m = n
    · subst same
      exact (effect.aborted.mp aborted).imp (fun before => ⟨m, small, before⟩) id
    · rw [effect.others m same] at aborted
      exact .inl ⟨m, small, aborted⟩
  · rintro (⟨m, small, aborted⟩ | atError)
    · by_cases same : m = n
      · subst same
        exact ⟨m, small, effect.aborted.mpr (.inl aborted)⟩
      · exact ⟨m, small, by rwa [effect.others m same]⟩
    · exact ⟨n, exists_, effect.aborted.mpr (.inr atError)⟩

theorem WaitsInv.step {label : WaitLabel} (inv : WaitsInv options s)
    (step : s.step options label = some next) : WaitsInv options next := by
  obtain ⟨-, effect⟩ | ⟨-, n, exists_, effect⟩ := step_cases step
  · refine ⟨?_, fun set => ?_⟩
    · unfold SomeAborted
      rw [effect.threadError, effect.worker]
      exact inv.error
    · obtain ⟨before, notInit⟩ := effect.signalled set
      rw [effect.threadError]
      exact .inr ((inv.signalled before).resolve_left notInit)
  · refine ⟨?_, fun set => ?_⟩
    · rw [effect.threadError, effect.someAborted exists_, inv.error]
    · rw [effect.job, effect.threadError]
      obtain before | waits | aborted := effect.signalled set
      · exact (inv.signalled before).imp id .inl
      · exact .inl waits
      · exact .inr (.inl (inv.error.mpr ⟨n, exists_, aborted⟩))

theorem waitsInv_reachable (reached : Reachable options.waitSystem s) : WaitsInv options s := by
  refine reached.invariant (fun first start => ?_) fun _ _ _ inv step => inv.step step
  cases start
  refine ⟨iff_of_false nofun ?_, nofun⟩
  rintro ⟨_, -, aborted | aborted⟩ <;> cases aborted

/-- The error flag is never reset. -/
theorem step_threadError {label : WaitLabel} (step : s.step options label = some next)
    (set : s.threadError = true) : next.threadError = true := by
  obtain ⟨-, effect⟩ | ⟨-, _, -, effect⟩ := step_cases step
  · rwa [effect.threadError]
  · exact effect.threadError.mpr (.inl set)

/-! ### Blaming a worker -/

/-- A wait on `thread_error_cv` ends spuriously only when the error flag is set. -/
def OnlyErrorsWake (s : Waits) (label : WaitLabel) : Prop :=
  label = .wake .spurious → s.job.WaitsForError → s.threadError = true

theorem checkError_blames {status : CvStatus} {error : JobError} {after : JobPhase}
    (passes : ¬ after.BlamesWorker) (blames : (s.checkError status error after).job.BlamesWorker) :
    status = .noTimeout ∨ s.threadError = true := by
  by_contra neither
  rw [checkError, if_neg neither] at blames
  exact passes blames

/-- A step of the job blames a worker only if it did before, or if it read the error flag. -/
theorem stepJob_blames (step : s.stepJob options = some next) (blames : next.job.BlamesWorker) :
    s.job.BlamesWorker ∨ s.threadError = true := by
  unfold stepJob testInit at step
  cases phase : s.job <;> rw [phase] at step <;> dsimp only at step
  case checkWarmup status =>
    cases step
    refine (checkError_blames (by decide) blames).imp (fun early => ?_) id
    rw [early]
    decide
  case stopRecording status =>
    cases step
    refine .inl ?_
    cases status
    · decide
    · change JobPhase.BlamesWorker (.checkMain .timeout) at blames
      exact absurd blames (by decide)
  case checkMain status =>
    cases step
    refine (checkError_blames (by decide) blames).imp (fun early => ?_) id
    rw [early]
    decide
  -- the other accesses lead to no phase that blames a worker
  all_goals
    repeat' split at step
    all_goals cases step
    all_goals simp [JobPhase.BlamesWorker] at blames

/-- A wait blames a worker only if it was on `thread_error_cv` and did not time out. -/
theorem wake_blames {wakeup : Wakeup} (step : s.wake wakeup = some next)
    (blames : next.job.BlamesWorker) :
    s.job.WaitsForError ∧ (wakeup = .spurious ∨ s.signalled = true) := by
  obtain ⟨heard, after, toAfter, rfl⟩ := wake_spec step
  have early (notLate : wakeup ≠ .timeout) : wakeup = .spurious ∨ s.signalled = true := by
    cases wakeup with
    | notified => exact .inr (heard rfl)
    | spurious => exact .inl rfl
    | timeout => exact absurd rfl notLate
  change (after wakeup.status).BlamesWorker at blames
  cases phase : s.job <;> rw [phase] at toAfter <;> cases toAfter
  case initWait => simp [JobPhase.BlamesWorker] at blames
  case warmupWait | mainWait =>
    refine ⟨by decide, early fun late => ?_⟩
    subst late
    exact absurd blames (by decide)

/-- **No error without the flag**, when the waits end spuriously only with it. -/
theorem blames_threadError (reached : Reachable (options.waitSystem.where OnlyErrorsWake) s) :
    s.job.BlamesWorker → s.threadError = true := by
  have both : WaitsInv options s ∧ (s.job.BlamesWorker → s.threadError = true) := by
    refine reached.invariant (H := fun s => WaitsInv options s ∧
      (s.job.BlamesWorker → s.threadError = true)) (fun first start => ?_) ?_
    · cases start
      exact ⟨waitsInv_reachable (.of_init rfl), fun blames => absurd blames (by decide)⟩
    · rintro s label next ⟨inv, flagged⟩ ⟨allowed, step⟩
      refine ⟨inv.step step, fun blames => step_threadError step ?_⟩
      cases label with
      | job => exact (stepJob_blames step blames).elim flagged id
      | wake wakeup =>
        obtain ⟨waits, spurious | signalled⟩ := wake_blames step blames
        · exact allowed (congrArg _ spurious) waits
        · refine (inv.signalled signalled).resolve_left fun init => ?_
          rw [init] at waits
          exact absurd waits (by decide)
      | worker n branch =>
        obtain ⟨_, moved⟩ := Option.ite_none_right_eq_some.mp step
        exact flagged ((stepWorker_effect moved).job ▸ blames)
  exact both.2

/-! ### Returning false -/

theorem stepJob_remaining (set : s.threadError = true) (before : ¬ s.job.PastMainCheck)
    (step : s.stepJob options = some next) :
    ¬ next.job.PastMainCheck ∧ next.job.remaining < s.job.remaining := by
  unfold stepJob testInit checkError at step
  cases phase : s.job <;> rw [phase] at step before <;> simp only [set] at step
  all_goals
    repeat' split at step
    all_goals cases step
    all_goals simp_all [JobPhase.PastMainCheck, JobPhase.remaining]

theorem wake_remaining {wakeup : Wakeup} (step : s.wake wakeup = some next) :
    ¬ next.job.PastMainCheck ∧ next.job.remaining < s.job.remaining := by
  obtain ⟨-, after, toAfter, rfl⟩ := wake_spec step
  cases phase : s.job <;> rw [phase] at toAfter <;> cases toAfter
  all_goals exact ⟨by rintro (_ | _ | _) <;> contradiction, Nat.lt_succ_self _⟩

/-- The job takes its next access, or its timed wait ends. -/
theorem job_enabled (before : ¬ s.job.PastMainCheck) :
    (∃ error, s.job = .failed error) ∨
      ∃ label next, label.ofJob = true ∧ label ≠ .wake .spurious ∧
        s.step options label = some next := by
  have takes (steps : (s.stepJob options).isSome) :
      ∃ label next, label.ofJob = true ∧ label ≠ .wake .spurious ∧
        s.step options label = some next := by
    obtain ⟨next, step⟩ := Option.isSome_iff_exists.mp steps
    exact ⟨.job, next, rfl, nofun, step⟩
  have times {after : CvStatus → JobPhase} (waits : afterWait s.job = some after) :
      ∃ label next, label.ofJob = true ∧ label ≠ .wake .spurious ∧
        s.step options label = some next := by
    refine ⟨.wake .timeout, { s with job := after .timeout, signalled := false }, rfl, nofun, ?_⟩
    show s.wake .timeout = _
    rw [wake, if_neg (fun notified => nomatch notified.1), waits]
    rfl
  cases phase : s.job
  case failed error => exact .inl ⟨error, rfl⟩
  case initWait | warmupWait | mainWait => exact .inr (times (by rw [phase]; rfl))
  case stopThreads | join | passed =>
    rw [phase] at before
    exact absurd before (by decide)
  all_goals
    refine .inr (takes ?_)
    unfold stepJob
    rw [phase]
    dsimp only
    repeat' split
    all_goals rfl

/-- **The job returns `false`**: in every run from here it takes a bounded number of accesses, and as
long as it has not failed it has not passed either and can take one. -/
structure ReturnsFalse (system : System Waits WaitLabel) (s : Waits) : Prop where
  bounded : ∀ labels later, Run system s labels later →
    labels.countP WaitLabel.ofJob ≤ s.job.remaining
  goesOn : ∀ labels later, Run system s labels later →
    (∃ error, later.job = .failed error) ∨
      later.job ≠ .passed ∧ ∃ label next, label.ofJob = true ∧ system.step later label next

section

variable {system : System Waits WaitLabel}
  (steps : ∀ s label next, system.step s label next → s.step options label = some next)

include steps

/-- With the error flag set, the job has fewer accesses left after each of them. -/
theorem run_remaining {labels : List WaitLabel} {later : Waits} (set : s.threadError = true)
    (before : ¬ s.job.PastMainCheck) (run : Run system s labels later) :
    ¬ later.job.PastMainCheck ∧
      labels.countP WaitLabel.ofJob + later.job.remaining ≤ s.job.remaining := by
  have whole : later.threadError = true ∧ ¬ later.job.PastMainCheck ∧
      labels.countP WaitLabel.ofJob + later.job.remaining ≤ s.job.remaining := by
    refine run.history (H := fun labels later => later.threadError = true ∧
      ¬ later.job.PastMainCheck ∧
      labels.countP WaitLabel.ofJob + later.job.remaining ≤ s.job.remaining)
      ⟨set, before, by rw [List.countP_nil, Nat.zero_add]⟩ ?_
    rintro past s label next ⟨set, before, bound⟩ taken
    have step := steps _ _ _ taken
    rw [List.countP_append, List.countP_singleton]
    refine ⟨step_threadError step set, ?_⟩
    cases label with
    | job =>
      obtain ⟨notPast, less⟩ := stepJob_remaining set before step
      exact ⟨notPast, by simp only [WaitLabel.ofJob, if_true]; omega⟩
    | wake wakeup =>
      obtain ⟨notPast, less⟩ := wake_remaining step
      exact ⟨notPast, by simp only [WaitLabel.ofJob, if_true]; omega⟩
    | worker n branch =>
      obtain ⟨_, moved⟩ := Option.ite_none_right_eq_some.mp step
      rw [(stepWorker_effect moved).job]
      exact ⟨before, bound⟩
  exact whole.2

/-- **The flag is enough**, whatever happens to the notifications: the job needs no spurious end. -/
theorem threadError_returnsFalse
    (others : ∀ s label next, label ≠ .wake .spurious → s.step options label = some next →
      system.step s label next)
    (set : s.threadError = true) (before : ¬ s.job.PastMainCheck) : ReturnsFalse system s := by
  refine ⟨fun labels later run => ?_, fun labels later run => ?_⟩
  · obtain ⟨-, bound⟩ := run_remaining steps set before run
    omega
  · obtain ⟨notPast, -⟩ := run_remaining steps set before run
    obtain error | ⟨label, next, ofJob, notSpurious, step⟩ : (∃ error, later.job = .failed error) ∨
        ∃ label next, label.ofJob = true ∧ label ≠ .wake .spurious ∧
          later.step options label = some next := job_enabled notPast
    · exact .inl error
    · exact .inr ⟨fun passed => notPast (.inr (.inr passed)), label, next, ofJob,
        others _ _ _ notSpurious step⟩

end

/-! ### What `run_job` reports -/

/-- The job fails with an error of the warm-up or of the main test only if a worker has aborted, and
it returns `false` if one has aborted before the check of the main duration. -/
structure ReportsFailures (options : JobOptions) (system : System Waits WaitLabel) : Prop where
  blames : ∀ s, Reachable system s → s.job = .failed .warmup ∨ s.job = .failed .mainTest →
    SomeAborted options s
  returnsFalse : ∀ s, Reachable system s → SomeAborted options s → ¬ s.job.PastMainCheck →
    ReturnsFalse system s

/-- A wait on `thread_error_cv` that ends spuriously makes the job fail. -/
theorem spurious_fails (waits : s.job.WaitsForError) :
    ∃ labels later, Run options.waitSystem s (.wake .spurious :: labels) later ∧
      (later.job = .failed .warmup ∨ later.job = .failed .mainTest) ∧ later.worker = s.worker := by
  obtain warmup | main := waits
  · refine ⟨[.job], { s with job := .failed .warmup, signalled := false },
      .of_replay (fun s label => s.step options label) (fun _ _ _ => id) ?_, .inl rfl, rfl⟩
    simp [replay, step, wake, afterWait, warmup, stepJob, checkError, Wakeup.status]
  · refine ⟨[.job, .job],
      { s with job := .failed .mainTest, recordResults := false, signalled := false },
      .of_replay (fun s label => s.step options label) (fun _ _ _ => id) ?_, .inr rfl, rfl⟩
    simp [replay, step, wake, afterWait, main, stepJob, checkError, Wakeup.status]

variable (options) in
/-- **Failures are reported as they are**, in every run where no wait on `thread_error_cv` ends
spuriously before a worker has aborted. The second half needs no condition; and each other spurious
end can make the job fail with no worker aborted. -/
theorem waits_report :
    ReportsFailures options (options.waitSystem.where OnlyErrorsWake) ∧
    (∀ s, Reachable options.waitSystem s → SomeAborted options s → ¬ s.job.PastMainCheck →
      ReturnsFalse options.waitSystem s) ∧
    ∀ s, Reachable options.waitSystem s → s.job.WaitsForError → ¬ SomeAborted options s →
      ∃ labels later, Run options.waitSystem s (.wake .spurious :: labels) later ∧
        (later.job = .failed .warmup ∨ later.job = .failed .mainTest) ∧
        ¬ SomeAborted options later := by
  refine ⟨⟨fun s reached failed => ?_, fun s reached aborted before => ?_⟩,
    fun s reached aborted before => ?_, fun s reached waits quiet => ?_⟩
  · refine (waitsInv_reachable reached.of_where).error.mp (blames_threadError reached ?_)
    exact .inr (.inr (.inr failed))
  · exact threadError_returnsFalse (fun _ _ _ step => step.2)
      (fun _ _ _ notSpurious step => ⟨fun spurious => absurd spurious notSpurious, step⟩)
      ((waitsInv_reachable reached.of_where).error.mpr aborted) before
  · exact threadError_returnsFalse (fun _ _ _ step => step)
      (fun _ _ _ _ step => step) ((waitsInv_reachable reached).error.mpr aborted) before
  · obtain ⟨labels, later, run, failed, workers⟩ := spurious_fails waits
    exact ⟨labels, later, run, failed, by rwa [SomeAborted, workers]⟩

/-! ### A spurious wake-up -/

/-- A job with one thread. -/
def oneThread : JobOptions := { totalThreads := 1 }

/-- The thread reports, and the wait of the warm-up ends spuriously. -/
def spuriousRun : List WaitLabel :=
  [.worker 0 false, .worker 0 false, .worker 0 false, .worker 0 false, .job, .job, .job, .job,
    .wake .spurious, .job]

/-- The job fails in the warm-up, and its only thread is in its loop. -/
theorem spurious_not_reported : ¬ ReportsFailures oneThread oneThread.waitSystem := by
  intro reports
  obtain ⟨later, replayed⟩ := Option.isSome_iff_exists.mp
    (show (replay (fun s label => s.step oneThread label) ({} : Waits) spuriousRun).isSome by decide)
  have ends : (replay (fun s label => s.step oneThread label) ({} : Waits) spuriousRun).map
      (fun s => (s.job, s.worker 0)) = some (.failed .warmup, .loopTest) := by decide
  rw [replayed] at ends
  obtain ⟨failed, working⟩ := Prod.mk.inj (Option.some.inj ends)
  have reached : Reachable oneThread.waitSystem later :=
    ⟨{}, spuriousRun, rfl, .of_replay _ (fun _ _ _ step => step) replayed⟩
  obtain ⟨n, small, aborted⟩ := reports.blames later reached (.inl failed)
  obtain rfl : n = 0 := Nat.lt_one_iff.mp small
  rw [working] at aborted
  exact absurd aborted (by decide)

/-- The thread aborts before the job waits, and the wait of the warm-up times out. -/
def lostRun : List WaitLabel :=
  [.worker 0 false, .worker 0 false, .worker 0 false, .worker 0 false, .job, .job, .job,
    .worker 0 false, .worker 0 false, .worker 0 true, .worker 0 false, .worker 0 false,
    .worker 0 false, .job, .wake .timeout, .job]

theorem lost_reported :
    ∃ s, Reachable (oneThread.waitSystem.where OnlyErrorsWake) s ∧ s.job = .failed .warmup ∧
      SomeAborted oneThread s := by
  let step := fun (s : Waits) label =>
    if label = .wake .spurious then none else s.step oneThread label
  obtain ⟨later, replayed⟩ := Option.isSome_iff_exists.mp
    (show (replay step ({} : Waits) lostRun).isSome by decide)
  have ends : (replay step ({} : Waits) lostRun).map (·.job) = some (.failed .warmup) := by decide
  rw [replayed] at ends
  have failed := Option.some.inj ends
  have reached : Reachable (oneThread.waitSystem.where OnlyErrorsWake) later := by
    refine ⟨{}, lostRun, rfl, .of_replay step (fun s label next taken => ?_) replayed⟩
    obtain ⟨notSpurious, taken⟩ := Option.ite_none_left_eq_some.mp taken
    exact ⟨fun spurious => absurd spurious notSpurious, taken⟩
  exact ⟨later, reached, failed, (waits_report oneThread).1.blames later reached (.inl failed)⟩

end Waits

end DiskSpd
