/-
**The time of an operation and the latency samples.**

* `getTime_setters` — after any setters, `get_time` returns the last value of `set_time`, or, before
  the first one, what memory held when the operation was constructed: no constructor stores its time
  stamp (`keepsTime_iff`).
* `TimesKept` — the invariant of a thread: the time that each recorded completion read is the one of
  its own flight, or, on the first flight of the operation, what memory held.
* `latencySamples_iff` — so in each state of each run the samples are right exactly when memory held
  the time stamp of each operation whose first flight was recorded.
-/

import DiskSpd.Model.Job
import DiskSpd.Proof.Startup

namespace DiskSpd

open IAsyncIop LawfulIop Transition

/-! ### The time of an operation -/

/-- The time that is set last. -/
def Setter.lastTime (time : UInt64) : Setter → UInt64
  | .setTime timeStamp => timeStamp
  | _ => time

section Time

variable {Op : Type} [IAsyncIop Op] [LawfulIop Op]

/-- **`get_time` after any setters.** -/
theorem getTime_setters (op : Op) (setters : List Setter) :
    getTime (setters.foldl Setter.apply op) = setters.foldl Setter.lastTime (getTime op) := by
  induction setters generalizing op with
  | nil => rfl
  | cons setter rest ih =>
    have one : getTime (Setter.apply op setter) = Setter.lastTime (getTime op) setter := by
      cases setter <;> simp [Setter.apply, Setter.lastTime]
    rw [List.foldl_cons, ih, one, List.foldl_cons]

/-- `get_time` returns the time stamp given to `construct` until the first `set_time`, and afterwards
the last value set. -/
def KeepsTime (Op : Type) [IAsyncIop Op] (uninit : UInt64) (args : IopArgs) : Prop :=
  ∀ setters : List Setter, getTime (setters.foldl Setter.apply (construct uninit args : Op)) =
    setters.foldl Setter.lastTime args.timeStamp

/-- **An operation keeps its time stamp exactly when memory already held it.** -/
theorem keepsTime_iff (uninit : UInt64) (args : IopArgs) :
    KeepsTime Op uninit args ↔ uninit = args.timeStamp := by
  have fresh : getTime (construct uninit args : Op) = uninit := by
    rw [getTime_eq, view_construct]
  constructor
  · intro keeps
    have first := keeps []
    rwa [List.foldl_nil, List.foldl_nil, fresh] at first
  · intro same setters
    rw [getTime_setters, fresh, same]

end Time

/-! ### The samples of a thread -/

section Samples

variable {Op Engine : Type}

/-- Each sample is the completion time read for a flight minus the time at which that flight was
issued. -/
def SamplesRight (th : ThreadParams) (s : ThreadState Op Engine) : Prop :=
  th.measure.latency = true → ∀ r ∈ s.recorded,
    r.completion.opTimeUs th.measure = r.completion.absTimeUs - r.flight.time

/-- For each operation whose first flight was recorded, memory held the time of that flight. -/
def MemoryHeldTimes (th : ThreadParams) (s : ThreadState Op Engine) : Prop :=
  th.measure.latency = true → ∀ r ∈ s.recorded, r.flight.first = true →
    s.uninit[r.flight.op]? = some r.flight.time

/-- Each completion has read the time that the operation of its flight had stored. -/
def TimesKept (s : ThreadState Op Engine) : Prop :=
  ∀ r ∈ s.recorded, s.storedTime r.flight.toIssue = some r.completion.opTime

variable {th : ThreadParams} {s s' : ThreadState Op Engine}

/-- What memory held stays in the history. -/
theorem storedTime_append {issue : Issue} {time more : UInt64}
    (grows : s'.uninit = s.uninit ++ [more]) (stored : s.storedTime issue = some time) :
    s'.storedTime issue = some time := by
  unfold ThreadState.storedTime at *
  split_ifs at * with first
  · rw [grows]
    exact (List.getElem?_append_left (List.getElem?_eq_some_iff.mp stored).1).trans stored
  · exact stored

theorem TimesKept.of_same (kept : TimesKept s) (recorded : s'.recorded = s.recorded)
    (uninit : s'.uninit = s.uninit) : TimesKept s' := by
  unfold TimesKept ThreadState.storedTime at *
  rwa [recorded, uninit]

/-- **A step keeps the times.** -/
theorem timesKept_step [IAsyncIop Op] [LawfulIop Op] {dist : UniformInt Engine}
    {interlocked interlocked' : Interlocked} (linked : Linked th s) (kept : TimesKept s)
    (step : Step dist th interlocked s interlocked' s') : TimesKept s' := by
  cases step with
  | startOffset => exact kept
  | targetsDone => exact kept
  | construct => exact fun r member => storedTime_append rfl (kept r member)
  | overlapDone => exact kept
  | advance => exact kept
  | submit =>
    exact kept.of_same (ThreadState.afterSubmit_recorded _ _) (ThreadState.afterSubmit_uninit _ _)
  | leave => exact kept
  | throttle => exact kept
  | waitLast => exact kept
  | fail => exact kept
  | @complete recorded round before after flight op tData offset state _ _ inFlight hasOp _ _ _ _ _
      done =>
    refine TimesKept.of_same (s := recorded) ?_ (ThreadState.afterSubmit_recorded _ _)
      (ThreadState.afterSubmit_uninit _ _)
    rcases ThreadState.record_cases done with ⟨_, rfl⟩ | ⟨_, _, _, _, _, rfl⟩
    · exact kept
    · intro r member
      rcases List.mem_append.mp member with old | new
      · exact kept r old
      · rw [List.mem_singleton.mp new]
        obtain ⟨op', hasOp', _, _, stored⟩ := (linked.flight_carries inFlight).1
        rw [hasOp, Option.some.injEq] at hasOp'
        subst hasOp'
        show s.storedTime flight.toIssue = some (getTime op)
        rw [stored, getTime_eq]

/-- **The samples are right exactly when memory held the times.** -/
theorem samplesRight_iff (kept : TimesKept s) : SamplesRight th s ↔ MemoryHeldTimes th s := by
  refine imp_congr_right fun measured => forall_congr' fun r => imp_congr_right fun member => ?_
  have stored := kept r member
  have sample : r.completion.opTimeUs th.measure =
      r.completion.absTimeUs - r.completion.opTime := by
    unfold Completion.opTimeUs
    rw [measured, Bool.or_true, if_pos rfl]
  rw [sample, UInt64.sub_right_inj]
  unfold ThreadState.storedTime at stored
  split_ifs at stored with first
  · rw [stored, Option.some.injEq]
    exact ⟨fun same _ => same, fun same => same first⟩
  · rw [Option.some.injEq] at stored
    exact ⟨fun _ yes => absurd yes first, fun _ => stored.symm⟩

end Samples

/-! ### All runs of a job -/

theorem timesKept_reachable {Op Engine : Type} [IAsyncIop Op] [LawfulIop Op]
    {dist : UniformInt Engine} {targets : List Target} {params : List ThreadParams}
    {state : JobState Op Engine} (reached : Reachable (jobSystem Op dist targets params) state)
    {n : Nat} {th : ThreadParams} (isThread : params[n]? = some th) :
    TimesKept (state.threads n) := by
  refine (jobSystem_thread (fun s => Linked th s ∧ TimesKept s) isThread ?_ ?_ reached).2
  · exact fun rngEngine => ⟨linked_initial rngEngine, fun _ member => by cases member⟩
  · exact fun _ _ _ _ before step =>
      ⟨linked_step before.1 step, timesKept_step before.1 before.2 step⟩

/-- **The times and the latency samples of either engine.** An operation keeps the time stamp of its
construction exactly when memory already held it; and in every state of every run, the samples of a
thread are right exactly when memory held the time of each recorded first flight. -/
theorem latencySamples_iff (job : JobOptions) (params : List ThreadParams) :
    (∀ uninit args, KeepsTime job.ioManager.Op uninit args ↔ uninit = args.timeStamp) ∧
      ∀ (Engine : Type) (dist : UniformInt Engine) (state : JobState job.ioManager.Op Engine),
        Reachable (job.system dist params) state → ∀ (n : Nat) (th : ThreadParams),
          params[n]? = some th →
          (SamplesRight th (state.threads n) ↔ MemoryHeldTimes th (state.threads n)) :=
  ⟨keepsTime_iff, fun _ _ _ reached _ _ isThread =>
    samplesRight_iff (timesKept_reachable reached isThread)⟩

/-! ### One recorded flight -/

/-- The job of `-L -o1 f` on a file of one block. -/
def latencyJob : JobOptions where
  totalThreads := 1
  measureLatency := true
  targets := [{ path := "f".toList, size := 65536, maxSize := 65536, overlap := 1 }]

/-- What its thread works on. -/
def latencyData : TargetData where
  target := { path := "f".toList, size := 65536, maxSize := 65536, overlap := 1 }
  targetIndex := 0
  fd := 3
  buffer := 0
  writeBuffer := 0

def latencyThread : ThreadParams where
  threadId := 0
  measure := { latency := true }
  targets := [latencyData]

/-- The round in which the flight of the block completes at 7 µs and is recorded. -/
def latencyRound : Round :=
  { Round.quiet 65536 with absTimeUs := 7, record := true }

/-- The run of a thread on one block: the flight issued at 5 µs completes at 7 µs. -/
theorem latencyThread_run (shared : Interlocked) (uninit : UInt64) :
    ∃ shared' s', ThreadRun KernelAsyncIop (fun a _ (engine : Unit) => (a, engine)) latencyThread
        (shared, .initial latencyThread ()) (shared', s') ∧
      ∃ r, s'.recorded = [r] ∧ r.flight.first = true ∧ r.flight.time = 5 ∧
        s'.uninit[r.flight.op]? = some uninit := by
  let dist : UniformInt Unit := fun a _ engine => (a, engine)
  let s : ThreadState KernelAsyncIop Unit := .initial latencyThread ()
  let started := { s with phase := .issue 0 0 0 }
  let built := started.construct latencyThread latencyData 0 0 0 1 5 uninit
  let advanced := { built with phase := .issue 0 (0 + 1) 0 }
  let working := ({ advanced with phase := .start 1 } : ThreadState KernelAsyncIop Unit).submit
  let shared' := shared.after latencyData (s.offsetState shared latencyData)
  let shared'' := shared'.after latencyData (built.offsetState shared' latencyData)
  have start : Step dist latencyThread shared s shared' started := .startOffset rfl rfl rfl
  have construct : Step dist latencyThread shared' started shared' built :=
    .construct rfl rfl (by decide) (by decide) (by decide)
  have advance : Step dist latencyThread shared' built shared'' advanced := .advance rfl rfl rfl
  have done : Step dist latencyThread shared'' advanced shared''
      { advanced with phase := .start 1 } := .overlapDone rfl rfl (by decide)
  have work : ThreadRun KernelAsyncIop dist latencyThread
      (shared'', { advanced with phase := .start 1 }) (shared'', working) := run_submit _ _ rfl
  let flight : Flight :=
    { op := 0, target := 0, offset := 0, time := 5, first := true,
      cb := { type := .read, fd := 3, buf := 0, nbytes := 65536, offset := 0 } }
  have inFlight : working.inFlight = [] ++ flight :: [] := rfl
  have noError : latencyRound.err = 0 := rfl
  have complete : Step dist latencyThread shared'' working _ _ :=
    .complete rfl rfl inFlight rfl rfl noError rfl (by decide) (by decide) rfl rfl
  exact ⟨_, _, (threadRun_step start).trans ((threadRun_step construct).trans
    ((threadRun_step advance).trans ((threadRun_step done).trans (work.trans
      (threadRun_step complete))))), _, rfl, rfl, rfl, rfl⟩
/-- The same as a run of the job. -/
theorem latencyJob_run (uninit : UInt64) :
    ∃ (state : JobState KernelAsyncIop Unit), Reachable (jobSystem KernelAsyncIop
        (fun a _ engine => (a, engine)) latencyJob.targets [latencyThread]) state ∧
      ∃ r, (state.threads 0).recorded = [r] ∧ r.flight.first = true ∧ r.flight.time = 5 ∧
        (state.threads 0).uninit[r.flight.op]? = some uninit := by
  obtain ⟨first, isInit, initial⟩ := exists_initial KernelAsyncIop
    (fun a _ engine => (a, engine)) latencyJob.targets [latencyThread] ()
  obtain ⟨shared, s, run, recorded⟩ := latencyThread_run first.interlocked uninit
  rw [← initial 0 latencyThread rfl] at run
  refine ⟨_, threadRun_reachable (.of_init isInit) rfl run, ?_⟩
  simp only [Function.update_self]
  exact recorded

/-- Where memory held 0, the sample of the flight issued at 5 µs is wrong, and an operation of either
engine does not keep its time stamp. -/
theorem latencyJob_not_samplesRight :
    parseCommandLine [(.option 'L', none), (.option 'o', some "1".toList),
        (.keyArg, some "f".toList)] (fun _ => .file 65536) = .ok latencyJob ∧
      latencyJob.createThreads (fun _ _ => ⟨3, 0, 0⟩) = some [latencyThread] ∧
      (∃ (state : JobState latencyJob.ioManager.Op Unit), Reachable (latencyJob.system
          (fun a _ engine => (a, engine)) [latencyThread]) state ∧
        ¬ SamplesRight latencyThread (state.threads 0)) ∧
      ∀ (engine : IoEngine) (args : IopArgs), args.timeStamp = 5 →
        ¬ KeepsTime engine.Op 0 args := by
  refine ⟨rfl, rfl, ?_, fun engine args stamp keeps => ?_⟩
  · obtain ⟨state, reached, r, recorded, first, time, held⟩ := latencyJob_run 0
    refine ⟨state, reached, fun right => ?_⟩
    have times := (samplesRight_iff (timesKept_reachable reached rfl)).mp right rfl r
      (by rw [recorded]; exact List.mem_singleton.mpr rfl) first
    rw [held, time] at times
    exact absurd times (by decide)
  · have same := (keepsTime_iff 0 args).mp keeps
    rw [stamp] at same
    exact absurd same (by decide)

/-- Where memory held 5, it is right. -/
theorem latencyJob_samplesRight :
    ∃ (state : JobState latencyJob.ioManager.Op Unit), Reachable (latencyJob.system
        (fun a _ engine => (a, engine)) [latencyThread]) state ∧
      (state.threads 0).recorded.length = 1 ∧ SamplesRight latencyThread (state.threads 0) := by
  obtain ⟨state, reached, r, recorded, _, time, held⟩ := latencyJob_run 5
  refine ⟨state, reached, by rw [recorded]; rfl, ?_⟩
  refine ((latencySamples_iff latencyJob [latencyThread]).2 Unit _ state reached 0 latencyThread
    rfl).mpr fun _ r' member _ => ?_
  rw [recorded, List.mem_singleton] at member
  rw [member, time, held]

end DiskSpd
