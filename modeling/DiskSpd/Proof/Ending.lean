/-
**A job can always come to its end.**

* `hand_target` — an operation that `wait` has returned is for one of the thread's targets.
* `ProgramEnded`, `liveSystem` — the runs in which no `wait` ends the program; `workStep_exits` — only a
  step inside a call can.
* `callRun_run` — a call of the engine inside such a run of the job.
* `endSteps`, `thread_descends` — once `run_threads` is reset, a thread comes to its end by itself and
  with the device: it waits for no other thread, and not for the job.
* `join_ends`, `run_ends` — so the job can join its threads, one after the other, and `run_job` can return
  from each state of a run in which the program goes on.
-/

import DiskSpd.Proof.Progress
import DiskSpd.Proof.Run

namespace DiskSpd

open Transition IAsyncIop LawfulIop

section Work

variable {Op Engine : Type} [IAsyncIop Op] [LawfulIop Op] {manager : IAsyncIOManager Op}
  {lawful : LawfulManager manager} {dist : UniformInt Engine} {targets : List Target}
  {params : List ThreadParams} {s : WorkState manager Engine} {k : Nat} {th : ThreadParams}

/-- What `wait` has returned is an operation for one of the thread's targets. -/
theorem hand_target (lawful : LawfulManager manager) (distinct : DistinctGroups params)
    (reached : Reachable (workSystem manager dist targets params) s) (isThread : params[k]? = some th)
    {op : Option Nat} (atPlace : (s.workers k).place = .waited op) :
    ∃ n tData, op = some n ∧ th.targets[getTargetData (manager.ops s.engine n)]? = some tData := by
  obtain ⟨a, isReached, names, st, inv⟩ :=
    (workProphecy lawful dist targets distinct).reachable reached fun _ => false
  have follows := inv.follows k th isThread
  cases op with
  | none => exact absurd atPlace follows.notNull
  | some n =>
    obtain ⟨_, flight, _, _, isName, _⟩ := follows.flightOf atPlace
    obtain ⟨op, isOp, same⟩ := follows.named.find isName
    obtain ⟨_, tData, found, _⟩ :=
      (linked_reachable isReached isThread).sound op (List.mem_of_getElem? isOp)
    refine ⟨n, tData, rfl, ?_⟩
    rw [getTargetData_eq, same.view]
    exact found

omit [LawfulIop Op] in
/-- A step that takes its thread somewhere else ends no program. -/
theorem workStep_exits {next : WorkState manager Engine} {turn : Turn} {g : Int32}
    (inside : ExitsInside manager) (step : WorkStep manager dist params s turn next)
    (moved : ∀ k saw, turn = .thread k saw → (next.workers k).place ≠ (s.workers k).place)
    (exits : manager.exits next.engine g) : manager.exits s.engine g := by
  cases step with
  | startOffset | targetsDone | overlapDone | advance | leave | throttle | waitLast | fail => exact exits
  | construct => exact inside.store (inside.enqueue exits)
  | callSubmit => exact inside.callSubmit exits
  | callWait => exact inside.callWait exits
  | inside => exact absurd rfl (moved _ _ rfl)
  | submitReturns _ _ taken => exact inside.submitReturns taken exits
  | waitReturns _ _ taken => exact inside.waitReturns taken exits
  | complete => exact inside.store exits
  | enqueue => exact inside.enqueue exits
  | device step => exact inside.device step exits

end Work

/-! ### Without the flags of the job -/

/-- The access after this one, when `run_threads` and `record_results` are reset. -/
def WorkerPhase.whenStopped (branch : Bool) : WorkerPhase → WorkerPhase
  | .setUp => if branch then .abortRun else .report
  | .report => .notifyReport
  | .notifyReport => .setInitialized
  | .setInitialized => .loopTest
  | .loopTest => .ended
  | .throttle => .waited
  | .waited => .ended
  | .record => if branch then .abortRun else .loopTest
  | .abortRun => .abortError
  | .abortError => .abortNotify
  | .abortNotify => .aborted
  | .aborted => .aborted
  | .ended => .ended

/-- Until it is done a worker always has an access, but for the mutex. -/
theorem Waits.step_whenStopped {options : JobOptions} {s : Waits} {n : Nat} (branch : Bool)
    (below : n < options.totalThreads.toNat) (free : s.worker n ≠ .report)
    (notDone : ¬ (s.worker n).Done) (stopped : s.runThreads = false)
    (unseen : s.recordResults = false) :
    ∃ next, s.step options (.worker n branch) = some next ∧ next.job = s.job ∧
      (∀ m ≠ n, next.worker m = s.worker m) ∧ next.worker n = (s.worker n).whenStopped branch := by
  obtain ⟨next, step⟩ : ∃ next, s.stepWorker n branch = some next := by
    unfold stepWorker
    cases phase : s.worker n with
    | report => exact absurd phase free
    | aborted => exact absurd (Or.inl phase) notDone
    | ended => exact absurd (Or.inr phase) notDone
    | _ => exact ⟨_, rfl⟩
  obtain ⟨access, frame⟩ := stepWorker_spec step
  refine ⟨next, (if_pos below).trans step, frame.job, frame.others, ?_⟩
  generalize s.worker n = before at access ⊢
  generalize next.worker n = after at access ⊢
  cases access with
  | loopTest | waited =>
    rw [stopped]
    rfl
  | throttle =>
    rw [unseen]
    rfl
  | _ => rfl

theorem afterOffset_place {Op Engine : Type} {manager : IAsyncIOManager Op}
    (s : WorkState manager Engine) (k : Nat) (tData : TargetData) (state : OffsetState Engine)
    (place : Place) : ((s.afterOffset k tData state place).workers k).place = place := by
  show (Function.update s.workers k _ k).place = place
  rw [Function.update_self]

section Run

variable {Engine : Type} {job : JobOptions} {opened : UInt32 → Nat → JobOptions.Opened}
  {params : List ThreadParams} {dist : UniformInt Engine} {w w' : Waits}
  {v v' : WorkState job.ioManager.manager Engine} {k : Nat} {th : ThreadParams}

/-- A `wait` of one of the threads has ended the program. -/
def ProgramEnded (params : List ThreadParams)
    (s : Waits × WorkState job.ioManager.manager Engine) : Prop :=
  ∃ (k : Nat) (th : ThreadParams), params[k]? = some th ∧
    job.ioManager.manager.exits s.2.engine th.groupId

/-- **The runs in which no `wait` ends the program.** -/
def JobOptions.liveSystem (job : JobOptions) (dist : UniformInt Engine) (params : List ThreadParams) :
    System (Waits × WorkState job.ioManager.manager Engine) (Option WaitLabel × Option Turn) :=
  (job.runSystem dist params).where fun s _ => ¬ ProgramEnded params s

theorem live_waits (goesOn : ¬ ProgramEnded params (w, v)) (label : WaitLabel)
    (waits : w.step job label = some w') (together : Together (w, v) (some label, none) (w', v)) :
    Run (job.liveSystem dist params) (w, v) [(some label, none)] (w', v) :=
  .single ⟨goesOn, waits, rfl, together⟩

theorem live_work {turn : Turn} (goesOn : ¬ ProgramEnded params (w, v))
    (work : WorkStep job.ioManager.manager dist params v turn v')
    (together : Together (w, v) (none, some turn) (w, v')) :
    Run (job.liveSystem dist params) (w, v) [(none, some turn)] (w, v') :=
  .single ⟨goesOn, rfl, work, together⟩

theorem live_both {turn : Turn} (goesOn : ¬ ProgramEnded params (w, v)) (label : WaitLabel)
    (waits : w.step job label = some w')
    (work : WorkStep job.ioManager.manager dist params v turn v')
    (together : Together (w, v) (some label, some turn) (w', v')) :
    Run (job.liveSystem dist params) (w, v) [(some label, some turn)] (w', v') :=
  .single ⟨goesOn, waits, work, together⟩

/-- A step over the engine that takes its thread somewhere else. -/
theorem goesOn_work {saw : Option Bool} {place place' : Place} (goesOn : ¬ ProgramEnded params (w, v))
    (work : WorkStep job.ioManager.manager dist params v (.thread k saw) v')
    (isAt : (v.workers k).place = place) (placed : (v'.workers k).place = place')
    (moved : place' ≠ place) : ¬ ProgramEnded params (w', v') := by
  rintro ⟨m, th, isThread, exits⟩
  refine goesOn ⟨m, th, isThread, workStep_exits job.ioManager.exitsInside work ?_ exits⟩
  rintro m saw isTurn
  cases isTurn
  rwa [isAt, placed]

theorem goesOn_device {engine : job.ioManager.manager.State} (goesOn : ¬ ProgramEnded params (w, v))
    (device : job.ioManager.manager.device v.engine engine) :
    ¬ ProgramEnded params (w, { v with engine }) := by
  rintro ⟨m, th, isThread, exits⟩
  exact goesOn ⟨m, th, isThread, job.ioManager.exitsInside.device device exits⟩

/-- **A call of the engine inside a run.** The thread is in its set-up or a round, or in `wait`. -/
theorem callRun_run (isThread : params[k]? = some th)
    (inCall : (w.worker k = .setUp ∨ w.worker k = .record) ∧ (v.workers k).place = .submitting ∨
      w.worker k = .waited ∧ (v.workers k).place = .waiting)
    (goesOn : ¬ ProgramEnded params (w, v)) {turns : List Turn}
    {engine : job.ioManager.manager.State}
    (run : Run (job.ioManager.manager.callSystem th.groupId k) v.engine turns engine) :
    (∃ labels, Run (job.liveSystem dist params) (w, v) labels (w, { v with engine })) ∧
      ¬ ProgramEnded params (w, { v with engine }) := by
  induction run with
  | refl => exact ⟨⟨[], .refl⟩, goesOn⟩
  | @snoc middle last _ _ _ step ih =>
    obtain ⟨⟨labels, before⟩, atMiddle⟩ := ih
    rcases step with ⟨rfl, step, runs⟩ | ⟨rfl, step⟩
    · have works : WorkStep job.ioManager.manager dist params { v with engine := middle }
          (.thread k none) { v with engine := last } :=
        .inside isThread (inCall.imp And.right And.right) step
      have together : Together (w, ({ v with engine := middle } : WorkState _ Engine))
          (none, some (.thread k none)) (w, { v with engine := last }) := by
        rcases inCall with ⟨phase, place⟩ | ⟨phase, place⟩
        · refine .working phase (Or.inl rfl) ?_
          show ¬ (v.workers k).place.Settled
          rw [place]
          rintro (no | no | no) <;> cases no
        · exact .inWait phase place
      refine ⟨⟨_, before.trans (live_work atMiddle works together)⟩, ?_⟩
      rintro ⟨m, th', isThread', exits⟩
      by_cases same : th'.groupId = th.groupId
      · exact runs (same ▸ exits)
      · exact atMiddle ⟨m, th', isThread', job.ioManager.exitsInside.inside same step exits⟩
    · have works : WorkStep job.ioManager.manager dist params { v with engine := middle }
          .device { v with engine := last } := .device step
      exact ⟨⟨_, before.trans (live_work atMiddle works .device)⟩,
        goesOn_device (v := { v with engine := middle }) atMiddle step⟩

/-! ### A thread comes to its end -/

/-- What a thread still has to do without `run_threads`. -/
def endSteps : WorkerPhase → Place → Nat
  | .record, .waited _ => 18
  | .record, .requeue _ => 17
  | .record, .outside .submit => 16
  | .record, _ => 15
  | .notifyReport, _ => 12
  | .setInitialized, _ => 11
  | .loopTest, _ => 10
  | .throttle, _ => 9
  | .waited, .waiting => 8
  | .waited, _ => 7
  | .abortRun, _ => 3
  | .abortError, _ => 2
  | .abortNotify, _ => 1
  | _, _ => 0

/-- A round takes longer than what comes after it. -/
theorem endSteps_record (place : Place) : 10 < endSteps .record place := by
  unfold endSteps
  split <;> first | decide | contradiction

/-- Some run in which the program goes on brings the thread on, and moves no other. -/
def Descends (dist : UniformInt Engine) (params : List ThreadParams) (k : Nat)
    (s : Waits × WorkState job.ioManager.manager Engine) : Prop :=
  ∃ labels next, Run (job.liveSystem dist params) s labels next ∧ ¬ ProgramEnded params next ∧
    next.1.job = s.1.job ∧ (∀ m ≠ k, next.1.worker m = s.1.worker m) ∧
    endSteps (next.1.worker k) (next.2.workers k).place <
      endSteps (s.1.worker k) (s.2.workers k).place

/-- The flags of the job are reset, and the thread is past its set-up. -/
structure Stopped (job : JobOptions) (k : Nat) (w : Waits) : Prop where
  below : k < job.totalThreads.toNat
  runThreads : w.runThreads = false
  recordResults : w.recordResults = false
  notReport : w.worker k ≠ .report

theorem Stopped.goes (stopped : Stopped job k w) (branch : Bool) (notDone : ¬ (w.worker k).Done) :
    ∃ w', w.step job (.worker k branch) = some w' ∧ w'.job = w.job ∧
      (∀ m ≠ k, w'.worker m = w.worker m) ∧ w'.worker k = (w.worker k).whenStopped branch :=
  Waits.step_whenStopped branch stopped.below stopped.notReport notDone stopped.runThreads
    stopped.recordResults

/-- A thread with accesses that nothing else goes with. -/
theorem alone_descends (goesOn : ¬ ProgramEnded params (w, v)) (stopped : Stopped job k w)
    (alone : (w.worker k).Alone) : Descends dist params k (w, v) := by
  have notReport := stopped.notReport
  obtain ⟨w', taken, same, others, moved⟩ := stopped.goes false fun done => by
    rcases done with done | done <;> exact absurd alone (by rw [done]; exact id)
  refine ⟨_, (w', v), live_waits goesOn _ taken (.access alone), goesOn, same, others, ?_⟩
  dsimp only
  rw [moved]
  generalize w.worker k = phase at *
  cases phase with
  | report => exact absurd rfl notReport
  | notifyReport | setInitialized | abortRun | abortError | abortNotify => exact Nat.lt_succ_self _
  | setUp | loopTest | throttle | waited | record | aborted | ended => exact alone.elim

/-- A thread at the head of its loop leaves it. -/
theorem loop_descends (goesOn : ¬ ProgramEnded params (w, v)) (stopped : Stopped job k w)
    (isThread : params[k]? = some th) (phase : w.worker k = .loopTest)
    (isAt : (v.workers k).place = .outside .work) :
    Descends dist params k (w, v) := by
  obtain ⟨w', taken, same, others, moved⟩ := stopped.goes false (by rw [phase]; decide)
  have place := goto_place v k (.outside .ended)
  have work : WorkStep job.ioManager.manager dist params v (.thread k none) _ := .leave isThread isAt
  refine ⟨_, (w', _), live_both goesOn _ taken work (.leaves phase stopped.runThreads place),
    goesOn_work goesOn work isAt place (by simp), same, others, ?_⟩
  dsimp only
  rw [moved, phase]
  exact Nat.zero_lt_succ _

/-- A thread that checks its throughput goes to `wait`. -/
theorem throttle_descends (goesOn : ¬ ProgramEnded params (w, v)) (stopped : Stopped job k w)
    (isThread : params[k]? = some th) (phase : w.worker k = .throttle)
    (isAt : (v.workers k).place = .outside .work) : Descends dist params k (w, v) := by
  obtain ⟨w', taken, same, others, moved⟩ := stopped.goes false (by rw [phase]; decide)
  have full : th.throttles (v.workers k).threadBytesCount (.quiet 0) = false := rfl
  have work : WorkStep job.ioManager.manager dist params v (.thread k (some w.recordResults))
      { v.goto k .waiting with engine := job.ioManager.manager.callWait v.engine th.groupId } := by
    rw [stopped.recordResults]
    exact .callWait isThread isAt full
  have place := goto_place v k .waiting
  refine ⟨_, _, live_both goesOn _ taken work (together_callWait phase),
    goesOn_work goesOn work isAt place (by simp), same, others, ?_⟩
  dsimp only
  rw [moved, phase, place]
  exact Nat.lt_succ_self _

/-- A thread that `wait` has returned to leaves the loop. -/
theorem waited_descends (goesOn : ¬ ProgramEnded params (w, v)) (stopped : Stopped job k w)
    (isThread : params[k]? = some th) (phase : w.worker k = .waited) {op : Option Nat}
    (isAt : (v.workers k).place = .waited op) :
    Descends dist params k (w, v) := by
  obtain ⟨w', taken, same, others, moved⟩ := stopped.goes false (by rw [phase]; decide)
  have place := goto_place v k (.outside .ended)
  have work : WorkStep job.ioManager.manager dist params v (.thread k none) _ :=
    .waitLast isThread isAt
  refine ⟨_, (w', _), live_both goesOn _ taken work (.breaks phase isAt stopped.runThreads place),
    goesOn_work goesOn work isAt place (by simp), same, others, ?_⟩
  dsimp only
  rw [moved, phase, isAt]
  exact Nat.zero_lt_succ _

/-- A step over the engine that moves the thread on within a round. -/
theorem working_descends {saw : Option Bool} (goesOn : ¬ ProgramEnded params (w, v))
    (stopped : Stopped job k w) (phase : w.worker k = .record)
    (sees : saw = none ∨ saw = some false)
    (work : WorkStep job.ioManager.manager dist params v (.thread k saw) v')
    (notSettled : ¬ (v'.workers k).place.Settled)
    (less : endSteps .record (v'.workers k).place < endSteps .record (v.workers k).place) :
    Descends dist params k (w, v) := by
  have moved : (v'.workers k).place ≠ (v.workers k).place := fun same => by
    rw [same] at less
    exact absurd less (lt_irrefl _)
  refine ⟨_, _, live_work goesOn work (.working (Or.inr phase) ?_ notSettled),
    goesOn_work goesOn work rfl rfl moved, rfl, fun _ _ => rfl, ?_⟩
  · exact stopped.recordResults ▸ sees
  · dsimp only
    rw [phase]
    exact less

/-- `submit` returns, or the operation has failed. -/
theorem settles_descends (branch : Bool) (goesOn : ¬ ProgramEnded params (w, v))
    (stopped : Stopped job k w) (phase : w.worker k = .record)
    (unsettled : ¬ (v.workers k).place.Settled)
    (work : WorkStep job.ioManager.manager dist params v (.thread k none) v')
    (settled : (v'.workers k).place = .outside (if branch then .aborted else .work)) :
    Descends dist params k (w, v) := by
  obtain ⟨w', taken, same, others, moves⟩ := stopped.goes branch (by rw [phase]; decide)
  have moved : (v'.workers k).place ≠ (v.workers k).place := fun same => unsettled (by
    rw [← same, settled]
    cases branch
    · exact Or.inl rfl
    · exact Or.inr (Or.inl rfl))
  refine ⟨_, _, live_both goesOn _ taken work (.settles (Or.inr phase) settled),
    goesOn_work goesOn work rfl rfl moved, same, others, ?_⟩
  dsimp only
  rw [moves, phase]
  refine lt_of_le_of_lt ?_ (endSteps_record _)
  cases branch
  · exact le_refl 10
  · show 3 ≤ 10
    decide

/-- A run that moves neither the job nor a thread's accesses, before the thread goes on. -/
theorem Descends.after {labels : List (Option WaitLabel × Option Turn)}
    (before : Run (job.liveSystem dist params) (w, v) labels (w, v'))
    (place : (v'.workers k).place = (v.workers k).place)
    (descends : Descends dist params k (w, v')) : Descends dist params k (w, v) := by
  obtain ⟨labels', next, run, goesOn, same, others, less⟩ := descends
  refine ⟨_, next, before.trans run, goesOn, same, others, ?_⟩
  dsimp only at less ⊢
  rwa [place] at less

section Thread

variable (created : job.createThreads opened = some params) (isThread : params[k]? = some th)
  (reached : Reachable (job.runSystem dist params) (w, v)) (goesOn : ¬ ProgramEnded params (w, v))

include created isThread reached goesOn

/-- `submit` returns. -/
theorem submit_descends (stopped : Stopped job k w) (few : operationCount params < 2 ^ 31)
    (phase : w.worker k = .record) (isAt : (v.workers k).place = .submitting) :
    Descends dist params k (w, v) := by
  obtain ⟨a, isReached, names, st, inv⟩ := (workProphecy job.ioManager.lawful dist job.targets
    (createThreads_distinctGroups created)).reachable reached.snd fun _ => false
  obtain ⟨turns, engine, after, run, returns⟩ :=
    inv.submitReturns job.ioManager.live isReached isThread few isAt
  obtain ⟨⟨labels, before⟩, after⟩ :=
    callRun_run (w := w) isThread (Or.inl ⟨Or.inr phase, isAt⟩) goesOn run
  have work : WorkStep job.ioManager.manager dist params { v with engine } (.thread k none) _ :=
    .submitReturns isThread isAt returns
  refine .after before rfl (settles_descends false after stopped phase ?_ work
    (goto_place { v with engine } k _))
  show ¬ (v.workers k).place.Settled
  rw [isAt]
  rintro (no | no | no) <;> cases no

/-- `wait` returns. -/
theorem wait_descends (few : operationCount params < 2 ^ 31) (some_ : th.slots ≠ [])
    (phase : w.worker k = .waited) (isAt : (v.workers k).place = .waiting) :
    Descends dist params k (w, v) := by
  obtain ⟨a, isReached, names, st, inv⟩ := (workProphecy job.ioManager.lawful dist job.targets
    (createThreads_distinctGroups created)).reachable reached.snd fun _ => false
  obtain ⟨turns, engine, after, n, run, returns⟩ :=
    inv.waitReturns job.ioManager.live isReached isThread few some_ isAt
      fun exits => goesOn ⟨k, th, isThread, exits⟩
  obtain ⟨⟨labels, before⟩, after⟩ :=
    callRun_run (w := w) isThread (Or.inr ⟨phase, isAt⟩) goesOn run
  have work : WorkStep job.ioManager.manager dist params { v with engine } (.thread k none) _ :=
    .waitReturns isThread isAt returns
  refine .after before rfl ⟨_, _, live_work after work (.inWait phase isAt),
    goesOn_work after work isAt (goto_place { v with engine } k _) (by simp), rfl,
    fun _ _ => rfl, ?_⟩
  dsimp only
  rw [phase, goto_place, isAt]
  exact Nat.lt_succ_self _

/-- The operation in the thread's hand has failed, or it is issued again. -/
theorem round_descends (stopped : Stopped job k w)
    (can : ∀ tData ∈ th.targets, tData.target.CanIssue) (phase : w.worker k = .record)
    {op : Option Nat} (isAt : (v.workers k).place = .waited op) : Descends dist params k (w, v) := by
  obtain ⟨n, _, rfl, _⟩ := hand_target job.ioManager.lawful (createThreads_distinctGroups created)
    reached.snd isThread isAt
  obtain ⟨engine, err, ret, same, outcome⟩ := job.ioManager.live.outcome v.engine n
  obtain ⟨⟨labels, before⟩, after⟩ : (∃ labels, Run (job.liveSystem dist params) (w, v) labels
      (w, { v with engine })) ∧ ¬ ProgramEnded params (w, { v with engine }) := by
    rcases same with rfl | device
    · exact ⟨⟨[], .refl⟩, goesOn⟩
    · exact ⟨⟨_, live_work goesOn (.device device) .device⟩, goesOn_device goesOn device⟩
  obtain ⟨_, tData, isOp, found⟩ := hand_target job.ioManager.lawful
    (createThreads_distinctGroups created) (reached.run before.of_where).snd isThread isAt
  cases isOp
  refine .after before rfl ?_
  by_cases wrong : err ≠ 0 ∨ ret.toInt64.toUInt64 ≠ tData.target.blockSize
  · have work : WorkStep job.ioManager.manager dist params { v with engine } (.thread k none) _ :=
      .fail isThread isAt outcome found wrong
    refine settles_descends true after stopped phase ?_ work (goto_place { v with engine } k _)
    show ¬ (v.workers k).place.Settled
    rw [isAt]
    rintro (no | no | no) <;> cases no
  · rw [not_or, not_not, not_not] at wrong
    let round : Round := { Round.quiet tData.target.blockSize with err := err, ret := ret }
    have outcome : job.ioManager.manager.outcome engine n round.err round.ret := outcome
    obtain ⟨offset, state, call, _⟩ := getNextOffset_some dist
      (can tData (List.mem_of_getElem? found)) th.relThreadId
      (({ v with engine } : WorkState _ Engine).offsetState k tData)
      (getOffset (job.ioManager.manager.ops engine n))
    have work : WorkStep job.ioManager.manager dist params { v with engine }
        (.thread k (some round.record)) _ :=
      .complete isThread isAt outcome found wrong.1 wrong.2 (show (1 : UInt32) ≤ 1 by decide)
        (show (1 : UInt32) ≤ 100 by decide) rfl call
    refine working_descends after stopped phase (Or.inr rfl) work ?_ ?_
    · rw [afterOffset_place]
      rintro (no | no | no) <;> cases no
    · rw [afterOffset_place]
      dsimp only
      rw [isAt]
      exact Nat.lt_succ_self _

end Thread

/-- **A thread of a job that joins its threads comes to its end** by itself and with the device. -/
theorem thread_descends (created : job.createThreads opened = some params)
    (isThread : params[k]? = some th) (few : operationCount params < 2 ^ 31)
    (some_ : th.slots ≠ []) (can : ∀ tData ∈ th.targets, tData.target.CanIssue)
    {s : Waits × WorkState job.ioManager.manager Engine}
    (reached : Reachable (job.runSystem dist params) s) (atJoin : s.1.job = .join)
    (notDone : ¬ (s.1.worker k).Done) (goesOn : ¬ ProgramEnded params s) :
    Descends dist params k s := by
  have window := Waits.windowInv_reachable reached.fst
  have inv := runInv_reachable reached isThread
  have past : s.1.job.PastBarrier := by rw [atJoin]; trivial
  have below : k < job.totalThreads.toNat := by
    rw [← (createThreads_frame created).1]
    exact (List.getElem?_eq_some_iff.mp isThread).1
  have notSetUp := inv.reported (window.reported past k below) (window.agrees k)
  have stopped : Stopped job k s.1 := by
    refine ⟨below, window.running.mpr (Or.inl (by rw [atJoin]; trivial)), ?_, notSetUp.2.1⟩
    rw [← Bool.not_eq_true, window.recording, atJoin]
    exact id
  have isAt := inv.isAt
  obtain ⟨w, v⟩ := s
  dsimp only at *
  cases phase : w.worker k with
  | setUp => exact absurd phase notSetUp.1
  | report => exact absurd phase notSetUp.2.1
  | aborted => exact absurd (Or.inl phase) notDone
  | ended => exact absurd (Or.inr phase) notDone
  | notifyReport | setInitialized | abortRun | abortError | abortNotify =>
    exact alone_descends goesOn stopped (by rw [phase]; trivial)
  | loopTest => exact loop_descends goesOn stopped isThread phase (by rwa [phase] at isAt)
  | throttle => exact throttle_descends goesOn stopped isThread phase (by rwa [phase] at isAt)
  | waited =>
    rw [phase] at isAt
    rcases isAt with isAt | ⟨op, isAt⟩
    · exact wait_descends created isThread reached goesOn few some_ phase isAt
    · exact waited_descends goesOn stopped isThread phase isAt
  | record =>
    rw [phase] at isAt
    rcases isAt with ⟨op, isAt⟩ | ⟨n, isAt⟩ | isAt | isAt
    · exact round_descends created isThread reached goesOn stopped can phase isAt
    · have place := goto_place v k (.outside .submit)
      have work : WorkStep job.ioManager.manager dist params v (.thread k none) _ :=
        .enqueue isThread isAt
      refine working_descends goesOn stopped phase (Or.inl rfl) work ?_ ?_
      · dsimp only
        rw [place]
        rintro (no | no | no) <;> cases no
      · dsimp only
        rw [place, isAt]
        exact Nat.lt_succ_self _
    · have place := goto_place v k .submitting
      have work : WorkStep job.ioManager.manager dist params v (.thread k none) _ :=
        .callSubmit isThread isAt
      refine working_descends goesOn stopped phase (Or.inl rfl) work ?_ ?_
      · dsimp only
        rw [place]
        rintro (no | no | no) <;> cases no
      · dsimp only
        rw [place, isAt]
        exact Nat.lt_succ_self _
    · exact submit_descends created isThread reached goesOn stopped few phase isAt

/-! ### The end of a run -/

/-- `run_job` has returned, and no `wait` has ended the program. -/
structure RunReturned (params : List ThreadParams)
    (s : Waits × WorkState job.ioManager.manager Engine) : Prop where
  returned : s.1.job = .passed ∨ ∃ error, s.1.job = .failed error
  goesOn : ¬ ProgramEnded params s

/-- What the ends of the threads rest on. -/
structure CanEnd (job : JobOptions) (params : List ThreadParams) : Prop where
  created : ∃ opened, job.createThreads opened = some params
  /-- each operation is an object in memory -/
  few : operationCount params < 2 ^ 31
  busy : ∀ th ∈ params, th.slots ≠ []
  /-- no offset function divides by 0 -/
  can : ∀ th ∈ params, ∀ tData ∈ th.targets, tData.target.CanIssue

variable {s : Waits × WorkState job.ioManager.manager Engine}

/-- **One thread after the other.** -/
theorem thread_ends (canEnd : CanEnd job params) (isThread : params[k]? = some th)
    (reached : Reachable (job.runSystem dist params) s) (atJoin : s.1.job = .join)
    (goesOn : ¬ ProgramEnded params s) :
    ∃ labels last, Run (job.liveSystem dist params) s labels last ∧ ¬ ProgramEnded params last ∧
      last.1.job = .join ∧ (∀ m ≠ k, last.1.worker m = s.1.worker m) ∧ (last.1.worker k).Done := by
  obtain ⟨opened, created⟩ := canEnd.created
  have member := List.mem_of_getElem? isThread
  have down : ∀ t, (Reachable (job.runSystem dist params) t ∧ ¬ ProgramEnded params t ∧
        t.1.job = .join ∧ ∀ m ≠ k, t.1.worker m = s.1.worker m) →
      (t.1.worker k).Done ∨ ∃ labels next,
        Run (job.liveSystem dist params) t labels next ∧
          (Reachable (job.runSystem dist params) next ∧ ¬ ProgramEnded params next ∧
            next.1.job = .join ∧ ∀ m ≠ k, next.1.worker m = s.1.worker m) ∧
          endSteps (next.1.worker k) (next.2.workers k).place <
            endSteps (t.1.worker k) (t.2.workers k).place := by
    rintro t ⟨reached, goesOn, atJoin, others⟩
    by_cases done : (t.1.worker k).Done
    · exact Or.inl done
    obtain ⟨labels, next, run, goesOn', same, others', less⟩ := thread_descends created isThread
      canEnd.few (canEnd.busy th member) (canEnd.can th member) reached atJoin done goesOn
    exact Or.inr ⟨labels, next, run, ⟨reached.run run.of_where, goesOn', same.trans atJoin,
      fun m differs => (others' m differs).trans (others m differs)⟩, less⟩
  obtain ⟨labels, last, run, inv, stops⟩ :=
    Run.leads (fun t : Waits × WorkState job.ioManager.manager Engine =>
      endSteps (t.1.worker k) (t.2.workers k).place) down ⟨reached, goesOn, atJoin, fun _ _ => rfl⟩
  exact ⟨labels, last, run, inv.2.1, inv.2.2.1, inv.2.2.2, stops⟩

/-- How many threads are not done. -/
def running (job : JobOptions) (w : Waits) : Nat :=
  ((Finset.range job.totalThreads.toNat).filter fun n => ¬ (w.worker n).Done).card

theorem running_less (atMost : ∀ m ≠ k, w'.worker m = w.worker m) (below : k < job.totalThreads.toNat)
    (notDone : ¬ (w.worker k).Done) (done : (w'.worker k).Done) : running job w' < running job w := by
  refine Finset.card_lt_card ((Finset.ssubset_iff_of_subset fun m member => ?_).mpr
    ⟨k, Finset.mem_filter.mpr ⟨Finset.mem_range.mpr below, notDone⟩, fun member => ?_⟩)
  · obtain ⟨inRange, goesOn⟩ := Finset.mem_filter.mp member
    by_cases same : m = k
    · exact absurd done (same ▸ goesOn)
    · exact Finset.mem_filter.mpr ⟨inRange, atMost m same ▸ goesOn⟩
  · exact (Finset.mem_filter.mp member).2 done

/-- **A job that joins its threads can pass.** -/
theorem join_ends (canEnd : CanEnd job params) (reached : Reachable (job.runSystem dist params) s)
    (atJoin : s.1.job = .join) (goesOn : ¬ ProgramEnded params s) :
    ∃ labels last, Run (job.liveSystem dist params) s labels last ∧ RunReturned params last := by
  obtain ⟨opened, created⟩ := canEnd.created
  have down : ∀ t, (Reachable (job.runSystem dist params) t ∧ ¬ ProgramEnded params t ∧
        t.1.job = .join) →
      (∃ labels last, Run (job.liveSystem dist params) t labels last ∧ RunReturned params last) ∨
        ∃ labels next, Run (job.liveSystem dist params) t labels next ∧
          (Reachable (job.runSystem dist params) next ∧ ¬ ProgramEnded params next ∧
            next.1.job = .join) ∧
          running job next.1 < running job t.1 := by
    rintro t ⟨reached, goesOn, atJoin⟩
    by_cases all : ∀ n < job.totalThreads.toNat, (t.1.worker n).Done
    · have passes : t.1.step job .job = some { t.1 with job := .passed } := by
        show t.1.stepJob job = _
        unfold Waits.stepJob
        rw [atJoin]
        exact if_pos all
      exact Or.inl ⟨_, _, live_waits (v := t.2) goesOn _ passes .job, Or.inl rfl, goesOn⟩
    · simp only [not_forall] at all
      obtain ⟨k, below, notDone⟩ := all
      have isThread := List.getElem?_eq_getElem ((createThreads_frame created).1 ▸ below)
      obtain ⟨labels, next, run, goesOn', atJoin', others, done⟩ :=
        thread_ends canEnd isThread reached atJoin goesOn
      exact Or.inr ⟨labels, next, run, ⟨reached.run run.of_where, goesOn', atJoin'⟩,
        running_less others below notDone done⟩
  obtain ⟨labels, last, run, _, labels', last', run', returned⟩ :=
    Run.leads (fun t : Waits × WorkState job.ioManager.manager Engine => running job t.1) down
      ⟨reached, goesOn, atJoin⟩
  exact ⟨_, last', run.trans run', returned⟩

/-- A job that has no access and no timeout left has passed or failed. -/
theorem ended_of_stepsAt {timeoutCounter : Int} {phase : JobPhase}
    (none : Waits.stepsAt timeoutCounter phase = 0) :
    phase = .passed ∨ ∃ error, phase = .failed error := by
  cases phase with
  | passed => exact Or.inl rfl
  | failed error => exact Or.inr ⟨error, rfl⟩
  | testInit status =>
    exfalso
    cases status <;> simp [Waits.stepsAt] at none
  | _ =>
    exfalso
    simp [Waits.stepsAt] at none

end Run

section Job

variable {Engine : Type} {job : JobOptions} {opened : UInt32 → Nat → JobOptions.Opened}
  {params : List ThreadParams} {dist : UniformInt Engine}
  {s : Waits × WorkState job.ioManager.manager Engine}
  {calls : List (Key × Option CString)} {stat : CString → Stat}

/-- **No run of a job comes to a deadlock.** From each state that the job, its threads and the device can
reach and in which the program goes on, there is a run to the return of `run_job` in which it always does. -/
theorem run_ends (ok : parseCommandLine calls stat = .ok job)
    (created : job.createThreads opened = some params)
    (reached : Reachable (job.runSystem dist params) s) (goesOn : ¬ ProgramEnded params s)
    -- each operation is an object in memory
    (few : operationCount params < 2 ^ 31) (can : ∀ target ∈ job.targets, target.CanIssue) :
    ∃ labels last, Run (job.liveSystem dist params) s labels last ∧ RunReturned params last := by
  have canEnd : CanEnd job params := by
    refine ⟨⟨opened, created⟩, few, fun th member => ?_, fun th member tData isTarget => ?_⟩
    · obtain ⟨k, isThread⟩ := List.getElem?_of_mem member
      exact createThreads_slots ok created isThread
    · have serves := (createThreads_serves created th member tData isTarget).1
      exact can _ (List.mem_of_getElem? serves)
  have down : ∀ t, (Reachable (job.runSystem dist params) t ∧ ¬ ProgramEnded params t) →
      (t.1.job = .join ∨ t.1.jobSteps = 0) ∨ ∃ labels next,
        Run (job.liveSystem dist params) t labels next ∧
          (Reachable (job.runSystem dist params) next ∧ ¬ ProgramEnded params next) ∧
          next.1.jobSteps < t.1.jobSteps := by
    rintro t ⟨reached, goesOn⟩
    by_cases atJoin : t.1.job = .join
    · exact Or.inl (Or.inl atJoin)
    by_cases none : t.1.jobSteps = 0
    · exact Or.inl (Or.inr none)
    obtain ⟨label, w', ofJob, step, less⟩ : ∃ label w', label.ofJob = true ∧
        t.1.step job label = some w' ∧ w'.jobSteps < t.1.jobSteps :=
      Waits.job_descends atJoin none
    have together : Together t (some label, Option.none) (w', t.2) := by
      cases label with
      | job => exact .job
      | wake => exact .wake
      | worker => cases ofJob
    have taken : Run (job.liveSystem dist params) t [(some label, Option.none)] (w', t.2) :=
      live_waits (v := t.2) goesOn _ step together
    exact Or.inr ⟨_, _, taken, ⟨reached.run taken.of_where, goesOn⟩, less⟩
  obtain ⟨labels, last, run, ⟨reached', goesOn'⟩, goal⟩ :=
    Run.leads (fun t : Waits × WorkState job.ioManager.manager Engine => t.1.jobSteps) down
      ⟨reached, goesOn⟩
  rcases goal with atJoin | none
  · obtain ⟨labels', last', run', returned⟩ := join_ends canEnd reached' atJoin goesOn'
    exact ⟨_, last', run.trans run', returned⟩
  · exact ⟨labels, last, run, ended_of_stepsAt none, goesOn'⟩

end Job

/-- From the main duration on, with both threads at the heads of their loops, the job can come to its
end. -/
theorem pairJob_ends : ∃ s : Waits × WorkState pairJob.ioManager.manager Int32,
    s.1.job = .mainWait ∧ ∃ labels last,
      Run (pairJob.liveSystem heldValue pairThreads) s labels last ∧ RunReturned pairThreads last := by
  obtain ⟨_, s, _, _, ⟨reached, inMain, _⟩, _⟩ := pairJob_passes
  have goesOn : ¬ ProgramEnded pairThreads s := fun ⟨_, _, _, exits⟩ => exits
  refine ⟨s, inMain, run_ends pairJob_parsed pairJob_created reached goesOn (by decide)
    fun target member => ?_⟩
  rw [List.mem_singleton.mp member]
  exact .of_sequential rfl

end DiskSpd
