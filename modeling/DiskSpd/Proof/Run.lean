/-
**What holds over a whole run.**

* `PlaceStep`, `workStep_effect` — where a step takes its thread, and what else it changes.
* `WorkerPhase.At`, `runStep_at` — a thread's next access to the flags agrees with where it is over its
  engine.
* `run_window` — the warm-up and the main duration start only when every thread has submitted its first
  requests, no thread enters the recording block outside the main duration, and a job that has passed has
  no thread left.
-/

import DiskSpd.Model.Run
import DiskSpd.Proof.Barrier
import DiskSpd.Proof.Requests

namespace DiskSpd

open Transition IAsyncIop

/-! ### The steps of a thread -/

/-- **Where a step takes its thread.** -/
inductive PlaceStep : Option Bool → Place → Place → Prop
  | startOffset {t : Nat} {offset : Int64} :
      PlaceStep none (.outside (.start t)) (.outside (.issue t 0 offset))
  | targetsDone {t : Nat} : PlaceStep none (.outside (.start t)) (.outside .submit)
  | construct {t : Nat} {i : UInt32} {offset : Int64} :
      PlaceStep none (.outside (.issue t i offset)) (.outside (.advance t i offset))
  | overlapDone {t : Nat} {i : UInt32} {offset : Int64} :
      PlaceStep none (.outside (.issue t i offset)) (.outside (.start (t + 1)))
  | advance {t : Nat} {i : UInt32} {offset offset' : Int64} :
      PlaceStep none (.outside (.advance t i offset)) (.outside (.issue t (i + 1) offset'))
  | callSubmit : PlaceStep none (.outside .submit) .submitting
  | insideSubmit : PlaceStep none .submitting .submitting
  | submitReturns {ret : Int32} :
      PlaceStep none .submitting (.outside (if ret = 0 then .work else .aborted))
  | leave : PlaceStep none (.outside .work) (.outside .ended)
  | throttle : PlaceStep (some true) (.outside .work) (.outside .work)
  | callWait {record : Bool} : PlaceStep (some record) (.outside .work) .waiting
  | insideWait : PlaceStep none .waiting .waiting
  | waitReturns {op : Option Nat} : PlaceStep none .waiting (.waited op)
  | waitLast {op : Option Nat} : PlaceStep none (.waited op) (.outside .ended)
  | fail {n : Nat} : PlaceStep none (.waited (some n)) (.outside .aborted)
  | complete {n : Nat} {record : Bool} :
      PlaceStep (some record) (.waited (some n)) (.requeue n)
  | enqueue {n : Nat} : PlaceStep none (.requeue n) (.outside .submit)

section Steps

variable {Op Engine : Type} [IAsyncIop Op] {manager : IAsyncIOManager Op} {dist : UniformInt Engine}
  {params : List ThreadParams} {s next : WorkState manager Engine} {k : Nat} {saw : Option Bool}

/-- What a step of a thread does to the threads. -/
structure WorkEffect (s next : WorkState manager Engine) (k : Nat) (saw : Option Bool) : Prop where
  place : PlaceStep saw (s.workers k).place (next.workers k).place
  others : ∀ m ≠ k, next.workers m = s.workers m
  results : saw ≠ some true → (next.workers k).results = (s.workers k).results ∧
    (next.workers k).threadBytesCount = (s.workers k).threadBytesCount

omit [IAsyncIop Op] in
/-- A step that changes one thread only. -/
theorem WorkEffect.of_worker {worker : Worker Engine}
    (workers : next.workers = Function.update s.workers k worker)
    (moved : PlaceStep saw (s.workers k).place worker.place)
    (results : saw ≠ some true → worker.results = (s.workers k).results ∧
      worker.threadBytesCount = (s.workers k).threadBytesCount) : WorkEffect s next k saw where
  place := by rwa [workers, Function.update_self]
  others m other := by rw [workers, Function.update_of_ne other]
  results unseen := by
    rw [workers, Function.update_self]
    exact results unseen

/-- **What a step does.** -/
theorem workStep_effect (step : WorkStep manager dist params s (.thread k saw) next) :
    WorkEffect s next k saw ∧ ∃ th, params[k]? = some th := by
  cases step with
  | startOffset isThread atPlace =>
    exact ⟨.of_worker rfl (by rw [atPlace]; exact .startOffset) fun _ => ⟨rfl, rfl⟩, _, isThread⟩
  | targetsDone isThread atPlace =>
    exact ⟨.of_worker rfl (by rw [atPlace]; exact .targetsDone) fun _ => ⟨rfl, rfl⟩, _, isThread⟩
  | construct isThread atPlace =>
    exact ⟨.of_worker rfl (by rw [atPlace]; exact .construct) fun _ => ⟨rfl, rfl⟩, _, isThread⟩
  | overlapDone isThread atPlace =>
    exact ⟨.of_worker rfl (by rw [atPlace]; exact .overlapDone) fun _ => ⟨rfl, rfl⟩, _, isThread⟩
  | advance isThread atPlace =>
    exact ⟨.of_worker rfl (by rw [atPlace]; exact .advance) fun _ => ⟨rfl, rfl⟩, _, isThread⟩
  | callSubmit isThread atPlace =>
    exact ⟨.of_worker rfl (by rw [atPlace]; exact .callSubmit) fun _ => ⟨rfl, rfl⟩, _, isThread⟩
  | inside isThread atPlace =>
    refine ⟨⟨?_, fun _ _ => rfl, fun _ => ⟨rfl, rfl⟩⟩, _, isThread⟩
    rcases atPlace with atPlace | atPlace
    · rw [atPlace]
      exact .insideSubmit
    · rw [atPlace]
      exact .insideWait
  | submitReturns isThread atPlace =>
    exact ⟨.of_worker rfl (by rw [atPlace]; exact .submitReturns) fun _ => ⟨rfl, rfl⟩, _, isThread⟩
  | leave isThread atPlace =>
    exact ⟨.of_worker rfl (by rw [atPlace]; exact .leave) fun _ => ⟨rfl, rfl⟩, _, isThread⟩
  | @throttle _ _ round isThread atPlace limit =>
    have recorded : round.recordAtHead = true := by
      unfold ThreadParams.throttles at limit
      simp only [Bool.and_eq_true] at limit
      exact limit.1.1.1
    refine ⟨⟨?_, fun _ _ => rfl, fun _ => ⟨rfl, rfl⟩⟩, _, isThread⟩
    rw [atPlace, recorded]
    exact .throttle
  | callWait isThread atPlace =>
    exact ⟨.of_worker rfl (by rw [atPlace]; exact .callWait) fun _ => ⟨rfl, rfl⟩, _, isThread⟩
  | waitReturns isThread atPlace =>
    exact ⟨.of_worker rfl (by rw [atPlace]; exact .waitReturns) fun _ => ⟨rfl, rfl⟩, _, isThread⟩
  | waitLast isThread atPlace =>
    exact ⟨.of_worker rfl (by rw [atPlace]; exact .waitLast) fun _ => ⟨rfl, rfl⟩, _, isThread⟩
  | fail isThread atPlace =>
    exact ⟨.of_worker rfl (by rw [atPlace]; exact .fail) fun _ => ⟨rfl, rfl⟩, _, isThread⟩
  | @complete _ n th tData round offset state recorded isThread atPlace _ _ _ _ _ _ done =>
    have workers : Function.update (Function.update s.workers k recorded) k
        { Function.update s.workers k recorded k with
          place := .requeue n, rngEngine := state.rngEngine } =
        Function.update s.workers k
          { recorded with place := .requeue n, rngEngine := state.rngEngine } := by
      rw [Function.update_self, Function.update_idem]
    refine ⟨.of_worker workers (by rw [atPlace]; exact .complete) fun unseen => ?_, _, isThread⟩
    have same : recorded = s.workers k := by
      unfold Worker.record at done
      rw [if_neg fun seen => unseen (congrArg some seen)] at done
      exact (Option.some.inj done).symm
    rw [same]
    exact ⟨rfl, rfl⟩
  | enqueue isThread atPlace =>
    exact ⟨.of_worker rfl (by rw [atPlace]; exact .enqueue) fun _ => ⟨rfl, rfl⟩, _, isThread⟩

theorem workStep_device (step : WorkStep manager dist params s .device next) :
    next.workers = s.workers := by
  cases step
  rfl

end Steps

/-! ### The flags of the job -/

/-- The job has not come to the main duration. -/
def JobPhase.BeforeRecording : JobPhase → Prop
  | .enterMain | .mainWait | .stopRecording _ | .checkMain _ | .stopThreads | .join | .passed => False
  | .failed .mainTest => False
  | _ => True

theorem JobPhase.BeforeRecording.not_records {phase : JobPhase} (before : phase.BeforeRecording) :
    ¬ phase.Records := by
  cases phase <;> first | exact id | exact before.elim

namespace Waits

variable {options : JobOptions} {s next : Waits} {k : Nat} {label : Option WaitLabel}

/-- A worker sets `initialized` in one access. -/
theorem maybe_initialized (step : options.waitSystem.maybe s label next)
    (set : next.initialized k = true) : s.initialized k = true ∨ s.worker k = .setInitialized := by
  match label, step with
  | none, same => exact Or.inl (same ▸ set)
  | some .job, step =>
    change s.stepJob options = some next at step
    refine Or.inl ?_
    unfold stepJob testInit checkError at step
    cases phase : s.job <;> rw [phase] at step <;> dsimp only at step
    all_goals
      repeat' split at step
      all_goals cases step
    all_goals exact set
  | some (.wake _), step =>
    obtain ⟨-, _, -, rfl⟩ := wake_spec step
    exact Or.inl set
  | some (.worker n _), step =>
    rw [(step_worker_spec step).2.initialized] at set
    split at set
    · next atSet =>
      by_cases same : k = n
      · exact Or.inr (same ▸ atSet)
      · rw [Function.update_of_ne same] at set
        exact Or.inl set
    · exact Or.inl set

/-- The job does not come back from the main duration. -/
theorem maybe_before (step : options.waitSystem.maybe s label next)
    (before : next.job.BeforeRecording) : s.job.BeforeRecording := by
  match label, step with
  | none, same => exact same ▸ before
  | some .job, step =>
    change s.stepJob options = some next at step
    unfold stepJob testInit checkError at step
    cases phase : s.job <;> rw [phase] at step <;> dsimp only at step
    all_goals
      repeat' split at step
      all_goals cases step
    all_goals trivial
  | some (.wake _), step =>
    obtain ⟨-, after, toAfter, rfl⟩ := wake_spec step
    cases phase : s.job <;> rw [phase] at toAfter <;> cases toAfter
    · trivial
    · trivial
    · exact before.elim
  | some (.worker n _), step =>
    rwa [(step_worker_spec step).2.job] at before

end Waits

/-! ### Where a thread is -/

/-- **Where a thread is over its engine**, by its next access to the flags. -/
def WorkerPhase.At : WorkerPhase → Place → Prop
  | .setUp, place => place.SetsUp ∨ place = .outside .submit ∨ place = .submitting
  | .report, place | .notifyReport, place | .setInitialized, place | .loopTest, place
  | .throttle, place => place = .outside .work
  | .waited, place => place = .waiting ∨ ∃ op, place = .waited op
  | .record, place => (∃ op, place = .waited op) ∨ (∃ n, place = .requeue n) ∨
      place = .outside .submit ∨ place = .submitting
  | .abortRun, place | .abortError, place | .abortNotify, place | .aborted, place =>
    place = .outside .aborted ∨ place = .outside (.start 0)
  | .ended, place => place = .outside .ended

/-- A step within the set-up or within a round. -/
theorem PlaceStep.working {saw : Option Bool} {place place' : Place} {phase : WorkerPhase}
    (moved : PlaceStep saw place place') (works : phase = .setUp ∨ phase = .record)
    (isAt : phase.At place) (notSettled : ¬ place'.Settled) : phase.At place' := by
  rcases works with rfl | rfl
  · cases moved with
    | startOffset | construct | overlapDone | advance => exact Or.inl trivial
    | targetsDone => exact Or.inr (Or.inl rfl)
    | callSubmit | insideSubmit => exact Or.inr (Or.inr rfl)
    | submitReturns =>
      refine absurd ?_ notSettled
      split
      · exact Or.inl rfl
      · exact Or.inr (Or.inl rfl)
    | leave | throttle | callWait | insideWait | waitReturns | waitLast | fail | complete | enqueue =>
      rcases isAt with no | no | no
      · exact no.elim
      · cases no
      · cases no
  · cases moved with
    | complete => exact Or.inr (Or.inl ⟨_, rfl⟩)
    | enqueue => exact Or.inr (Or.inr (Or.inl rfl))
    | callSubmit | insideSubmit => exact Or.inr (Or.inr (Or.inr rfl))
    | submitReturns =>
      refine absurd ?_ notSettled
      split
      · exact Or.inl rfl
      · exact Or.inr (Or.inl rfl)
    | waitLast => exact absurd (Or.inr (Or.inr rfl)) notSettled
    | fail => exact absurd (Or.inr (Or.inl rfl)) notSettled
    | startOffset | targetsDone | construct | overlapDone | advance | leave | throttle | callWait
    | insideWait | waitReturns =>
      rcases isAt with ⟨_, no⟩ | ⟨_, no⟩ | no | no <;> cases no

theorem PlaceStep.not_start {saw : Option Bool} {place place' : Place}
    (moved : PlaceStep saw place place') : place' ≠ .outside (.start 0) := by
  cases moved with
  | submitReturns => split <;> simp
  | _ => simp

theorem goto_place {Op Engine : Type} {manager : IAsyncIOManager Op} (s : WorkState manager Engine)
    (k : Nat) (place : Place) : ((s.goto k place).workers k).place = place := by
  show (Function.update s.workers k _ k).place = place
  rw [Function.update_self]
  rfl

section Run

variable {Engine : Type} {job : JobOptions} {opened : UInt32 → Nat → JobOptions.Opened}
  {params : List ThreadParams} {dist : UniformInt Engine}
  {s next : Waits × WorkState job.ioManager.manager Engine} {w w' : Waits}
  {v v' : WorkState job.ioManager.manager Engine} {k : Nat} {th : ThreadParams}

theorem run_waits (label : WaitLabel) (waits : w.step job label = some w')
    (together : Together (w, v) (some label, none) (w', v)) :
    Run (job.runSystem dist params) (w, v) [(some label, none)] (w', v) :=
  .single ⟨waits, rfl, together⟩

theorem run_work {turn : Turn} (work : WorkStep job.ioManager.manager dist params v turn v')
    (together : Together (w, v) (none, some turn) (w, v')) :
    Run (job.runSystem dist params) (w, v) [(none, some turn)] (w, v') :=
  .single ⟨rfl, work, together⟩

/-- A step within the set-up of a thread. -/
theorem run_setsUp (work : WorkStep job.ioManager.manager dist params v (.thread k none) v')
    (phase : w.worker k = .setUp) (within : ¬ (v'.workers k).place.Settled) :
    Run (job.runSystem dist params) (w, v) [(none, some (.thread k none))] (w, v') :=
  run_work work (.working (Or.inl phase) (Or.inl rfl) within)

/-- A step within a round. -/
theorem run_records (work : WorkStep job.ioManager.manager dist params v (.thread k none) v')
    (phase : w.worker k = .record) (within : ¬ (v'.workers k).place.Settled) :
    Run (job.runSystem dist params) (w, v) [(none, some (.thread k none))] (w, v') :=
  run_work work (.working (Or.inr phase) (Or.inl rfl) within)

theorem run_both (label : WaitLabel) {turn : Turn} (waits : w.step job label = some w')
    (work : WorkStep job.ioManager.manager dist params v turn v')
    (together : Together (w, v) (some label, some turn) (w', v')) :
    Run (job.runSystem dist params) (w, v) [(some label, some turn)] (w', v') :=
  .single ⟨waits, work, together⟩

/-- The throttle check of a thread that is not over its limit. -/
theorem together_callWait (phase : w.worker k = .throttle) :
    Together (w, v) (some (.worker k false), some (.thread k (some w.recordResults)))
      (w', { v.goto k .waiting with
        engine := job.ioManager.manager.callWait v.engine th.groupId }) := by
  have place := goto_place v k .waiting
  have together := @Together.throttle _ _ _ (w, v) k (w', { v.goto k .waiting with
    engine := job.ioManager.manager.callWait v.engine th.groupId }) phase
  dsimp only at together
  rwa [place] at together

theorem run_callWait {round : Round} (waits : w.step job (.worker k false) = some w')
    (phase : w.worker k = .throttle) (isThread : params[k]? = some th)
    (isAt : (v.workers k).place = .outside .work) (sees : round.recordAtHead = w.recordResults)
    (full : th.throttles (v.workers k).threadBytesCount round = false) :
    Run (job.runSystem dist params) (w, v)
      [(some (.worker k false), some (.thread k (some w.recordResults)))]
      (w', { v.goto k .waiting with
        engine := job.ioManager.manager.callWait v.engine th.groupId }) := by
  refine run_both (.worker k false) waits ?_ (together_callWait phase)
  rw [← sees]
  exact .callWait isThread isAt full

/-- A step of one thread over the engine. -/
theorem at_of_here {m : Nat} (isAt : (w.worker k).At (v.workers k).place)
    (places : ∀ k ≠ m, v'.workers k = v.workers k)
    (here : (w.worker m).At (v.workers m).place → (w.worker m).At (v'.workers m).place) :
    (w.worker k).At (v'.workers k).place := by
  by_cases same : k = m
  · subst same
    exact here isAt
  · rw [places k same]
    exact isAt

/-- An access of one thread, which goes with its own step over the engine, or with none. -/
theorem at_of_access {m : Nat} {branch : Bool} (waits : w.step job (.worker m branch) = some w')
    (isAt : (w.worker k).At (v.workers k).place) (places : ∀ k ≠ m, v'.workers k = v.workers k)
    (here : ∀ after, Waits.WorkerAccess w branch (w.worker m) after →
      (w.worker m).At (v.workers m).place → after.At (v'.workers m).place) :
    (w'.worker k).At (v'.workers k).place := by
  obtain ⟨access, frame⟩ := Waits.step_worker_spec waits
  by_cases same : k = m
  · subst same
    exact here _ access isAt
  · rw [frame.others k same, places k same]
    exact isAt

/-- **A step of the run** leaves a thread where its next access is. -/
theorem runStep_at {label : Option WaitLabel × Option Turn}
    (step : (job.runSystem dist params).step s label next)
    (isAt : (s.1.worker k).At (s.2.workers k).place) :
    (next.1.worker k).At (next.2.workers k).place := by
  obtain ⟨w, v⟩ := s
  obtain ⟨w', v'⟩ := next
  obtain ⟨waits, work, together⟩ := step
  dsimp only at waits work
  cases together with
  | job =>
    cases work
    rw [(Waits.stepJob_effect waits).worker]
    exact isAt
  | wake =>
    cases work
    rw [(Waits.wake_effect waits).worker]
    exact isAt
  | device =>
    cases waits
    rw [workStep_device work]
    exact isAt
  | @setUpFails m _ phase place =>
    cases work
    refine at_of_access waits isAt (fun _ _ => rfl) fun after access _ => ?_
    dsimp only at phase place
    rw [phase] at access
    cases access
    exact Or.inr place
  | @working m saw _ phase _ notSettled =>
    cases waits
    obtain ⟨effect, -⟩ := workStep_effect work
    exact at_of_here isAt effect.others fun here => effect.place.working phase here notSettled
  | @settles m branch _ phase place =>
    refine at_of_access waits isAt (workStep_effect work).1.others fun after access _ => ?_
    dsimp only at phase place
    rw [place]
    rcases phase with phase | phase
    all_goals
      rw [phase] at access
      cases access
      cases branch
      · rfl
      · exact Or.inl rfl
  | @access m _ alone =>
    cases work
    refine at_of_access waits isAt (fun _ _ => rfl) fun after access here => ?_
    dsimp only at alone
    generalize w.worker m = before at *
    cases access with
    | setUp | loopTest | throttle | waited | record => exact alone.elim
    | report | notifyReport | setInitialized | abortRun | abortError | abortNotify => exact here
  | @stays m _ phase running =>
    cases work
    refine at_of_access waits isAt (fun _ _ => rfl) fun after access here => ?_
    dsimp only at phase running
    rw [phase] at access here
    cases access
    rw [running]
    exact here
  | @leaves m _ phase stopped place =>
    refine at_of_access waits isAt (workStep_effect work).1.others fun after access _ => ?_
    dsimp only at phase stopped place
    rw [place]
    rw [phase] at access
    cases access
    rw [stopped]
    rfl
  | @throttle m _ phase =>
    obtain ⟨effect, -⟩ := workStep_effect work
    refine at_of_access waits isAt effect.others fun after access here => ?_
    have moved := effect.place
    dsimp only at phase access
    rw [phase] at access here
    generalize (v'.workers m).place = place' at *
    rw [here] at moved
    generalize reads : some w.recordResults = saw at *
    cases access
    cases moved with
    | leave => cases reads
    | throttle =>
      rw [Option.some.inj reads]
      rfl
    | callWait =>
      rw [decide_eq_false (by simp), Bool.and_false]
      exact Or.inl rfl
  | @inWait m _ phase place =>
    cases waits
    obtain ⟨effect, -⟩ := workStep_effect work
    refine at_of_here isAt effect.others fun _ => ?_
    have moved := effect.place
    dsimp only at phase place moved ⊢
    rw [place] at moved
    rw [phase]
    generalize (v'.workers m).place = place' at *
    cases moved with
    | insideWait => exact Or.inl rfl
    | waitReturns => exact Or.inr ⟨_, rfl⟩
  | @goesOn m op _ phase place running =>
    cases work
    refine at_of_access waits isAt (fun _ _ => rfl) fun after access _ => ?_
    dsimp only at phase place running
    rw [phase] at access
    cases access
    rw [running]
    exact Or.inl ⟨op, place⟩
  | @breaks m op _ phase _ stopped place =>
    refine at_of_access waits isAt (workStep_effect work).1.others fun after access _ => ?_
    dsimp only at phase stopped place
    rw [place]
    rw [phase] at access
    cases access
    rw [stopped]
    rfl

/-- A step of the run leaves a thread as it is over its engine, or is one of its own steps and sees the
flags of the job. -/
theorem runStep_worker {label : Option WaitLabel × Option Turn}
    (step : (job.runSystem dist params).step s label next) (k : Nat) :
    next.2.workers k = s.2.workers k ∨ ∃ saw, (saw = none ∨ saw = some s.1.recordResults) ∧
      WorkEffect s.2 next.2 k saw := by
  have moved {m : Nat} {saw : Option Bool} (sees : saw = none ∨ saw = some s.1.recordResults)
      (work : WorkStep job.ioManager.manager dist params s.2 (.thread m saw) next.2) :
      next.2.workers k = s.2.workers k ∨ ∃ saw, (saw = none ∨ saw = some s.1.recordResults) ∧
        WorkEffect s.2 next.2 k saw := by
    obtain ⟨effect, -⟩ := workStep_effect work
    by_cases same : k = m
    · subst same
      exact Or.inr ⟨saw, sees, effect⟩
    · exact Or.inl (effect.others k same)
  obtain ⟨w, v⟩ := s
  obtain ⟨w', v'⟩ := next
  obtain ⟨-, work, together⟩ := step
  dsimp only at work
  cases together with
  | job | wake | setUpFails | access | stays | goesOn =>
    cases work
    exact Or.inl rfl
  | device => exact Or.inl (congrFun (workStep_device work) k)
  | working _ sees => exact moved sees work
  | settles | leaves | inWait | breaks => exact moved (Or.inl rfl) work
  | throttle => exact moved (Or.inr rfl) work

/-- What a thread sees of `record_results` is what the job has set. -/
theorem runStep_saw {waits : Option WaitLabel} {saw : Bool}
    (step : (job.runSystem dist params).step s (waits, some (.thread k (some saw))) next) :
    saw = s.1.recordResults := by
  obtain ⟨-, -, together⟩ := step
  cases together with
  | working _ sees =>
    rcases sees with no | seen
    · cases no
    · exact Option.some.inj seen
  | throttle => rfl

/-- Without `record_results` no thread counts anything. -/
theorem runStep_counts {label : Option WaitLabel × Option Turn}
    (step : (job.runSystem dist params).step s label next) (unseen : s.1.recordResults = false) :
    (next.2.workers k).results = (s.2.workers k).results ∧
      (next.2.workers k).threadBytesCount = (s.2.workers k).threadBytesCount := by
  rcases runStep_worker step k with same | ⟨saw, sees, effect⟩
  · rw [same]
    exact ⟨rfl, rfl⟩
  · refine effect.results ?_
    rintro rfl
    rcases sees with no | seen
    · cases no
    · rw [unseen] at seen
      cases seen

/-- A thread that has set `initialized` is not where it began. -/
theorem runStep_started {label : Option WaitLabel × Option Turn}
    (step : (job.runSystem dist params).step s label next)
    (isAt : (s.1.worker k).At (s.2.workers k).place)
    (started : s.1.initialized k = true → (s.2.workers k).place ≠ .outside (.start 0))
    (set : next.1.initialized k = true) : (next.2.workers k).place ≠ .outside (.start 0) := by
  rcases runStep_worker step k with same | ⟨_, _, effect⟩
  · rw [same]
    rcases Waits.maybe_initialized step.1 set with before | now
    · exact started before
    · rw [now] at isAt
      intro no
      rw [no] at isAt
      cases isAt
  · exact effect.place.not_start

/-! ### The run -/

/-- The thread has counted nothing. -/
def Worker.Fresh (th : ThreadParams) (worker : Worker Engine) : Prop :=
  worker.results = th.targets.map (fun _ =>
    { readBucketizer := th.bucketizer, writeBucketizer := th.bucketizer }) ∧
  worker.threadBytesCount = 0

/-- The invariant of a run, for one of its threads. -/
structure RunInv (th : ThreadParams) (k : Nat)
    (s : Waits × WorkState job.ioManager.manager Engine) : Prop where
  isAt : (s.1.worker k).At (s.2.workers k).place
  started : s.1.initialized k = true → (s.2.workers k).place ≠ .outside (.start 0)
  fresh : s.1.job.BeforeRecording → (s.2.workers k).Fresh th

theorem runInv_reachable (reached : Reachable (job.runSystem dist params) s)
    (isThread : params[k]? = some th) : RunInv th k s := by
  refine (reached.invariant (H := fun s => Reachable (job.runSystem dist params) s ∧ RunInv th k s)
    (fun first isInit => ?_) fun s label next before step => ?_).2
  · obtain ⟨rngEngine, initial⟩ := isInit.2.2.1 k th isThread
    refine ⟨.of_init isInit, ?_, ?_, fun _ => ?_⟩
    · rw [initial, isInit.1]
      exact Or.inl trivial
    · rw [isInit.1]
      exact fun no => absurd no Bool.false_ne_true
    · rw [initial]
      exact ⟨rfl, rfl⟩
  · obtain ⟨reached, inv⟩ := before
    refine ⟨reached.step step, runStep_at step inv.isAt, runStep_started step inv.isAt inv.started,
      fun before => ?_⟩
    have earlier := Waits.maybe_before step.1 before
    have window := Waits.windowInv_reachable reached.fst
    have unseen : s.1.recordResults = false := by
      rw [← Bool.not_eq_true, window.recording]
      exact earlier.not_records
    have counts := runStep_counts (k := k) step unseen
    unfold Worker.Fresh
    rw [counts.1, counts.2]
    exact inv.fresh earlier

/-- **The window of a run**, for one of its threads. -/
structure RunWindow (job : JobOptions) (dist : UniformInt Engine) (params : List ThreadParams)
    (th : ThreadParams) (k : Nat) (s : Waits × WorkState job.ioManager.manager Engine) : Prop where
  /-- the warm-up and the main duration come after the thread's first `submit` has succeeded -/
  barrier : s.1.job.PastBarrier →
    s.1.Reported k ∧ s.1.worker k ≠ .setUp ∧ ¬ (s.2.workers k).place.SetsUp
  fresh : s.1.job.BeforeRecording → (s.2.workers k).Fresh th
  /-- no test of `record_results` lets the thread into the recording block outside the main duration -/
  unseen : ∀ waits saw next, (job.runSystem dist params).step s
    (waits, some (.thread k (some saw))) next → ¬ s.1.job.Records → saw = false
  /-- and what is counted goes with such a test -/
  counts : ∀ label next, (job.runSystem dist params).step s label next → ¬ s.1.job.Records →
    (next.2.workers k).results = (s.2.workers k).results ∧
      (next.2.workers k).threadBytesCount = (s.2.workers k).threadBytesCount
  passed : s.1.job = .passed →
    (s.2.workers k).place = .outside .ended ∨ (s.2.workers k).place = .outside .aborted

/-- A worker that has reported is past its set-up. -/
theorem RunInv.reported (inv : RunInv th k s) (reported : s.1.Reported k)
    (agrees : (s.1.worker k).Agrees (s.1.initialized k)) :
    s.1.worker k ≠ .setUp ∧ s.1.worker k ≠ .report ∧ ¬ (s.2.workers k).place.SetsUp := by
  have isAt := inv.isAt
  have started := inv.started
  unfold Waits.Reported at reported
  generalize s.1.worker k = phase at *
  generalize (s.2.workers k).place = place at *
  generalize s.1.initialized k = set at *
  cases phase with
  | setUp | report =>
    change set = false at agrees
    rcases reported with now | no | no
    · rw [agrees] at now
      cases now
    · cases no
    · cases no
  | notifyReport | setInitialized | loopTest | throttle | ended =>
    rw [isAt]
    exact ⟨by decide, by decide, id⟩
  | waited =>
    refine ⟨by decide, by decide, ?_⟩
    rcases isAt with rfl | ⟨_, rfl⟩ <;> exact id
  | record =>
    refine ⟨by decide, by decide, ?_⟩
    rcases isAt with ⟨_, rfl⟩ | ⟨_, rfl⟩ | rfl | rfl <;> exact id
  | abortRun | abortError | abortNotify | aborted =>
    refine ⟨by decide, by decide, ?_⟩
    rcases isAt with rfl | atStart
    · exact id
    · rcases reported with now | no | no
      · exact absurd atStart (started now)
      · cases no
      · cases no

/-- The place of a thread in the job. -/
theorem thread_below (created : job.createThreads opened = some params)
    (isThread : params[k]? = some th) : k < job.totalThreads.toNat := by
  rw [← (createThreads_frame created).1]
  exact (List.getElem?_eq_some_iff.mp isThread).1

/-- Past the barrier every thread has reported, after its set-up. -/
theorem run_reported (created : job.createThreads opened = some params)
    (reached : Reachable (job.runSystem dist params) s) (isThread : params[k]? = some th)
    (past : s.1.job.PastBarrier) :
    s.1.Reported k ∧ s.1.worker k ≠ .setUp ∧ ¬ (s.2.workers k).place.SetsUp := by
  have window := Waits.windowInv_reachable reached.fst
  have reported := window.reported past k (thread_below created isThread)
  have after := (runInv_reachable reached isThread).reported reported (window.agrees k)
  exact ⟨reported, after.1, after.2.2⟩

/-- When the job has passed every thread is done. -/
theorem run_done (created : job.createThreads opened = some params)
    (reached : Reachable (job.runSystem dist params) s) (isThread : params[k]? = some th)
    (passed : s.1.job = .passed) :
    (s.2.workers k).place = .outside .ended ∨ (s.2.workers k).place = .outside .aborted := by
  have past : s.1.job.PastBarrier := by rw [passed]; trivial
  obtain ⟨_, _, notSetUp⟩ := run_reported created reached isThread past
  have isAt := (runInv_reachable reached isThread).isAt
  have window := Waits.windowInv_reachable reached.fst
  rcases window.passed passed k (thread_below created isThread) with done | done
  · rw [done] at isAt
    rcases isAt with aborted | atStart
    · exact Or.inr aborted
    · rw [atStart] at notSetUp
      exact absurd trivial notSetUp
  · rw [done] at isAt
    exact Or.inl isAt

/-- **No thread enters the recording block outside the main duration**, and the main duration comes after
every thread is at work. -/
theorem run_window (created : job.createThreads opened = some params)
    (reached : Reachable (job.runSystem dist params) s) (isThread : params[k]? = some th) :
    RunWindow job dist params th k s := by
  have inv := runInv_reachable reached isThread
  have window := Waits.windowInv_reachable reached.fst
  have unseen : ¬ s.1.job.Records → s.1.recordResults = false := fun notRecords => by
    rw [← Bool.not_eq_true, window.recording]
    exact notRecords
  exact ⟨run_reported created reached isThread, inv.fresh,
    fun _ _ _ step notRecords => (runStep_saw step).trans (unseen notRecords),
    fun _ _ step notRecords => runStep_counts step (unseen notRecords),
    run_done created reached isThread⟩

end Run

/-! ### Two threads with two slots each -/

/-- What a thread reads of an operation that has completed in the main duration. -/
def pairRound (percentage : UInt32) : Round :=
  { Round.quiet 65536 with recordAtHead := true, record := true, percentage := percentage }

/-- The results of a thread that has recorded one operation. -/
def pairResults (type : IopType) : TargetResults where
  bytesCount := 65536
  iopsCount := 1
  readBytesCount := if type = .read then 65536 else 0
  readIopsCount := if type = .read then 1 else 0
  writeBytesCount := if type = .write then 65536 else 0
  writeIopsCount := if type = .write then 1 else 0

/-- **A run of two threads.** In the main duration the first records a read and the second a write; the
second leaves its loop after another `wait`, and the first at its head. -/
theorem pairJob_passes : ∃ warm atHead passed : Waits × WorkState pairJob.ioManager.manager Int32,
    (Reachable (pairJob.runSystem heldValue pairThreads) warm ∧ warm.1.job = .warmupWait) ∧
    (Reachable (pairJob.runSystem heldValue pairThreads) atHead ∧ atHead.1.job = .mainWait ∧
      (atHead.2.workers 0).place = .outside .work ∧ (atHead.2.workers 1).place = .outside .work) ∧
    Reachable (pairJob.runSystem heldValue pairThreads) passed ∧ passed.1.job = .passed ∧
      (passed.2.workers 0).place = .outside .ended ∧ (passed.2.workers 1).place = .outside .ended ∧
      (passed.2.workers 0).results = [pairResults .read] ∧
      (passed.2.workers 1).results = [pairResults .write] ∧
      pairJob.ioManager.manager.requests passed.2.engine 0 = [1, 0] ∧
      pairJob.ioManager.manager.requests passed.2.engine 1 = [2] := by
  have isFirst : pairThreads[0]? = some (pairThread 0) := rfl
  have isSecond : pairThreads[1]? = some (pairThread 1) := rfl
  have accepted : IoSubmitReturns 2 2 := ⟨by decide, fun no => by cases no⟩
  have again : IoSubmitReturns 1 1 := ⟨by decide, fun no => by cases no⟩
  have start : Reachable (pairJob.runSystem heldValue pairThreads) ({}, pairFirst 0) :=
    .of_init ⟨rfl, pairFirst_init heldValue 0⟩
  -- the set-up of the first thread
  have run := start.run (run_setsUp (.startOffset isFirst rfl rfl rfl) rfl (by decide))
  have run := run.run (run_setsUp (@WorkStep.construct _ _ _ _ _ _ _ 0 0 (pairThread 0) 0 _ _ 100 0 0
    isFirst rfl rfl (by decide) (by decide) (by decide)) rfl (by decide))
  have run := run.run (run_setsUp (.advance isFirst rfl rfl rfl) rfl (by decide))
  have run := run.run (run_setsUp (@WorkStep.construct _ _ _ _ _ _ _ 0 0 (pairThread 0) 1 _ _ 100 0 0
    isFirst rfl rfl (by decide) (by decide) (by decide)) rfl (by decide))
  have run := run.run (run_setsUp (.advance isFirst rfl rfl rfl) rfl (by decide))
  have run := run.run (run_setsUp (.overlapDone isFirst rfl rfl (by decide)) rfl (by decide))
  have run := run.run (run_setsUp (.targetsDone isFirst rfl rfl) rfl (by decide))
  have run := run.run (run_setsUp (.callSubmit isFirst rfl) rfl (by decide))
  have run := run.run (run_both (.worker 0 false) rfl
    (.submitReturns isFirst rfl ⟨2, fun _ => false, accepted, rfl⟩) (.settles (Or.inl rfl) rfl))
  have run := run.run (run_waits (.worker 0 false) rfl (.access trivial))
  have run := run.run (run_waits (.worker 0 false) rfl (.access trivial))
  have run := run.run (run_waits (.worker 0 false) rfl (.access trivial))
  -- the set-up of the second
  have run := run.run (run_setsUp (.startOffset isSecond rfl rfl rfl) rfl (by decide))
  have run := run.run (run_setsUp (@WorkStep.construct _ _ _ _ _ _ _ 1 0 (pairThread 1) 0 _ _ 1 0 0
    isSecond rfl rfl (by decide) (by decide) (by decide)) rfl (by decide))
  have run := run.run (run_setsUp (.advance isSecond rfl rfl rfl) rfl (by decide))
  have run := run.run (run_setsUp (@WorkStep.construct _ _ _ _ _ _ _ 1 0 (pairThread 1) 1 _ _ 1 0 0
    isSecond rfl rfl (by decide) (by decide) (by decide)) rfl (by decide))
  have run := run.run (run_setsUp (.advance isSecond rfl rfl rfl) rfl (by decide))
  have run := run.run (run_setsUp (.overlapDone isSecond rfl rfl (by decide)) rfl (by decide))
  have run := run.run (run_setsUp (.targetsDone isSecond rfl rfl) rfl (by decide))
  have run := run.run (run_setsUp (.callSubmit isSecond rfl) rfl (by decide))
  have run := run.run (run_both (.worker 1 false) rfl
    (.submitReturns isSecond rfl ⟨2, fun _ => false, accepted, rfl⟩) (.settles (Or.inl rfl) rfl))
  have run := run.run (run_waits (.worker 1 false) rfl (.access trivial))
  have run := run.run (run_waits (.worker 1 false) rfl (.access trivial))
  have run := run.run (run_waits (.worker 1 false) rfl (.access trivial))
  -- the initialisation of the job and the warm-up
  have run := run.run (run_waits .job rfl .job)
  have run := run.run (run_waits .job rfl .job)
  have run := run.run (run_waits .job rfl .job)
  have warm := run.run (run_waits .job rfl .job)
  have run := warm.run (run_waits (.wake .timeout) rfl .wake)
  have run := run.run (run_waits .job rfl .job)
  have run := run.run (run_waits .job rfl .job)
  have run := run.run (run_waits .job rfl .job)
  -- in the main duration each thread records one operation
  have run := run.run (run_waits (.worker 0 false) rfl (.stays rfl rfl))
  have full : (pairThread 0).throttles 0 (pairRound 1) = false := rfl
  have run := run.run (run_callWait rfl rfl isFirst rfl rfl full)
  have run := run.run (run_work (.waitReturns isFirst rfl
    (@KernelWaitReturns.found _ _ _ [] _ 65536 _ _ rfl rfl rfl)) (.inWait rfl rfl))
  have run := run.run (run_waits (.worker 0 false) rfl (.goesOn rfl rfl rfl))
  have run := run.run (run_work (@WorkStep.complete _ _ _ _ _ _ _ 0 0 (pairThread 0) _ (pairRound 1) _ _ _
    isFirst rfl ⟨rfl, rfl⟩ rfl rfl rfl (by decide) (by decide) rfl rfl)
    (.working (Or.inr rfl) (Or.inr rfl) (by decide)))
  have run := run.run (run_records (.enqueue isFirst rfl) rfl (by decide))
  have run := run.run (run_records (.callSubmit isFirst rfl) rfl (by decide))
  have run := run.run (run_both (.worker 0 false) rfl
    (.submitReturns isFirst rfl ⟨1, fun _ => false, again, rfl⟩) (.settles (Or.inr rfl) rfl))
  have run := run.run (run_waits (.worker 1 false) rfl (.stays rfl rfl))
  have full : (pairThread 1).throttles 0 (pairRound 100) = false := rfl
  have run := run.run (run_callWait rfl rfl isSecond rfl rfl full)
  have run := run.run (run_work (.waitReturns isSecond rfl
    (@KernelWaitReturns.found _ _ _ [_] _ 65536 _ _ rfl rfl rfl)) (.inWait rfl rfl))
  have run := run.run (run_waits (.worker 1 false) rfl (.goesOn rfl rfl rfl))
  have run := run.run (run_work (@WorkStep.complete _ _ _ _ _ _ _ 1 2 (pairThread 1) _ (pairRound 100)
    _ _ _ isSecond rfl ⟨rfl, rfl⟩ rfl rfl rfl (by decide) (by decide) rfl rfl)
    (.working (Or.inr rfl) (Or.inr rfl) (by decide)))
  have run := run.run (run_records (.enqueue isSecond rfl) rfl (by decide))
  have run := run.run (run_records (.callSubmit isSecond rfl) rfl (by decide))
  have atHead := run.run (run_both (.worker 1 false) rfl
    (.submitReturns isSecond rfl ⟨1, fun _ => false, again, rfl⟩) (.settles (Or.inr rfl) rfl))
  -- the second thread waits again, and the main duration passes
  have run := atHead.run (run_waits (.worker 1 false) rfl (.stays rfl rfl))
  have full : (pairThread 1).throttles 65536 (pairRound 1) = false := rfl
  have run := run.run (run_callWait rfl rfl isSecond rfl rfl full)
  have run := run.run (run_work (.waitReturns isSecond rfl
    (@KernelWaitReturns.found _ _ _ [_] _ 65536 _ _ rfl rfl rfl)) (.inWait rfl rfl))
  have run := run.run (run_waits (.wake .timeout) rfl .wake)
  have run := run.run (run_waits .job rfl .job)
  have run := run.run (run_waits .job rfl .job)
  have run := run.run (run_waits .job rfl .job)
  have run := run.run (run_both (.worker 1 false) rfl (.waitLast isSecond rfl)
    (.breaks rfl rfl rfl rfl))
  have run := run.run (run_both (.worker 0 false) rfl (.leave isFirst rfl) (.leaves rfl rfl rfl))
  have run := run.run (run_waits .job rfl .job)
  exact ⟨_, _, _, ⟨warm, rfl⟩, ⟨atHead, rfl, rfl, rfl⟩, run, rfl, rfl, rfl, rfl, rfl, rfl, rfl⟩

/-- The second thread in the warm-up, and when the job has passed. -/
theorem pairJob_window : ∃ warm passed : Waits × WorkState pairJob.ioManager.manager Int32,
    warm.1.job = .warmupWait ∧
      RunWindow pairJob heldValue pairThreads (pairThread 1) 1 warm ∧
      passed.1.job = .passed ∧ (passed.2.workers 1).results = [pairResults .write] ∧
      RunWindow pairJob heldValue pairThreads (pairThread 1) 1 passed := by
  obtain ⟨warm, _, passed, ⟨reached, isWarm⟩, _, reached', isPassed, _, _, _, results, _⟩ :=
    pairJob_passes
  exact ⟨warm, passed, isWarm, run_window pairJob_created reached rfl, isPassed, results,
    run_window pairJob_created reached' rfl⟩

end DiskSpd
