/-
**Where the operations of a sequential target land.**

* `region_closed` — one call of an offset function keeps the offsets in the region, so the shared
  offset, the running offset of each initialisation, the offset in each operation and each offset
  issued are in the region.
* `offsetsInRegion_iff` — for an accepted target in sequential or interlocked mode: every offset that
  any run of the job issues is in the region exactly when the product that `run_job` compares, over
  the integers, fits its 64-bit type. The product can wrap, and then the check lets a thread through
  whose base offset is past the end of the target (`wrappingJob_not_inRegion`).
-/

import DiskSpd.Proof.Offsets
import DiskSpd.Proof.Startup
import DiskSpd.Proof.ThreadOffsets
import DiskSpd.Proof.Threads

namespace DiskSpd

open IAsyncIop Transition

/-- The shared offset of an interlocked target is in the region. -/
def SharedInRegion (target : Target) (offset : Int64) : Prop :=
  target.useInterlocked = true → target.InRegion offset

/-- **The offset functions keep the offsets in the region**, from base offsets that are in it. -/
theorem region_closed {Engine : Type} (dist : UniformInt Engine) {target : Target}
    (accepted : target.Accepted) (sequential : target.useRandomAlignment = false) :
    OffsetsClosed dist target
      (fun relThreadId => target.InRegion (target.getThreadBaseOffset relThreadId))
      target.InRegion (SharedInRegion target) := by
  refine .of_steps (fun random => ?_) (fun _ _ threadBase => threadBase)
    fun _ _ _ threadBase inside => Target.correctOverflow_inRegion accepted threadBase inside
  rw [sequential] at random
  cases random

/-! ### All runs of a job -/

/-- **The bound on the offsets of a target**: in every run of the threads of the job, each offset
issued to the target is in its region. -/
def OffsetsInRegion (job : JobOptions) (params : List ThreadParams) (k : Nat) (target : Target) :
    Prop :=
  ∀ (Engine : Type) (dist : UniformInt Engine) (state : JobState job.ioManager.Op Engine),
    Reachable (job.system dist params) state →
    ∀ (n : Nat) (th : ThreadParams), params[n]? = some th →
      ∀ issue ∈ (state.threads n).issued, ∀ tData, th.targets[issue.target]? = some tData →
        tData.targetIndex = k → target.InRegion issue.offset

section Run

variable {calls : List (Key × Option CString)} {stat : CString → Stat} {job : JobOptions}
  {opened : UInt32 → Nat → JobOptions.Opened} {params : List ThreadParams} {k : Nat}
  {target : Target}

theorem offsetsInRegion_of_threadBases (ok : parseCommandLine calls stat = .ok job)
    (created : job.createThreads opened = some params) (found : job.targets[k]? = some target)
    (sequential : target.useRandomAlignment = false)
    (threadBases : ∀ relThreadId : UInt32, relThreadId.toNat < (job.noThreads target).toNat →
      target.InRegion (target.getThreadBaseOffset relThreadId)) :
    OffsetsInRegion job params k target := by
  have accepted := parseCommandLine_accepted ok target (List.mem_of_getElem? found)
  have serves : ∀ th ∈ params, th.ServesUnder k target
      (fun relThreadId => target.InRegion (target.getThreadBaseOffset relThreadId)) := by
    intro th isThread tData member index
    obtain ⟨isTarget, below⟩ :=
      serves_target (createThreads_serves created th isThread) found member index
    exact ⟨isTarget, threadBases _ below⟩
  intro Engine dist state reached n th isThread issue member tData found' index
  refine (((region_closed dist accepted sequential).reachable serves ?_ reached).2 n th
    isThread).issued issue member tData found' index
  rw [found, Option.map_some, Option.getD_some]
  intro interlocked
  rw [accepted.interlockedOffset interlocked]
  exact Target.baseOffset_inRegion accepted

/-- **The first offset a thread issues to a target in default mode is its base offset.** The run
initialises the targets before it. -/
theorem threadBases_of_offsetsInRegion (ok : parseCommandLine calls stat = .ok job)
    (created : job.createThreads opened = some params) (found : job.targets[k]? = some target)
    (sequential : target.useRandomAlignment = false)
    (inside : OffsetsInRegion job params k target) (relThreadId : UInt32)
    (below : relThreadId.toNat < (job.noThreads target).toNat) :
    target.InRegion (target.getThreadBaseOffset relThreadId) := by
  have accepted := parseCommandLine_accepted ok target (List.mem_of_getElem? found)
  cases interlocked : target.useInterlocked with
  | true =>
    refine Target.threadBase_inRegion accepted ?_
    rw [accepted.interlocked interlocked, Int64.toInt_zero, mul_zero]
    exact Target.room_nonneg accepted
  | false =>
    obtain ⟨n, th, t, tData, isThread, rfl, isT, rfl, index⟩ :=
      createThreads_covers created found below
    have serves := createThreads_serves created th (List.mem_of_getElem? isThread)
    let dist : UniformInt Unit := fun a _ engine => (a, engine)
    obtain ⟨state, reached, phase, _⟩ := reach_start job.ioManager.Op dist
      (fun tData member => .of_sequential (thread_sequential ok found sequential serves tData member))
      job.targets isThread ()
      (List.getElem?_eq_some_iff.mp isT).1.le
    obtain ⟨offset, next, call, isStart⟩ := getStartOffset_some dist
      (.of_sequential sequential)
      th.relThreadId ((state.threads n).offsetState state.interlocked tData)
    rw [isStart ⟨sequential, interlocked⟩] at call
    let started := { state.threads n with
      phase := .issue t 0 (tData.target.getThreadBaseOffset th.relThreadId)
      rngEngine := next.rngEngine }
    have start : Step dist th state.interlocked (state.threads n)
        (state.interlocked.after tData next) started := .startOffset phase isT call
    have construct : Step dist th (state.interlocked.after tData next) started
        (state.interlocked.after tData next) (started.construct th tData t 0
          (tData.target.getThreadBaseOffset th.relThreadId) 1 0 0) :=
      .construct rfl isT accepted.overlap (by decide) (by decide)
    have issued := threadRun_reachable reached isThread
      ((threadRun_step start).trans (threadRun_step construct))
    refine inside Unit dist _ issued n th isThread
      { op := started.ops.length, target := t, time := 0, first := true
        offset := tData.target.getThreadBaseOffset th.relThreadId } ?_ tData isT index
    simp only [Function.update_self]
    exact List.mem_append_right _ (List.mem_singleton.mpr rfl)

/-- **The offsets of a target stay in its region exactly when the product that `run_job` compares
does not wrap.** -/
theorem offsetsInRegion_iff (ok : parseCommandLine calls stat = .ok job)
    (created : job.createThreads opened = some params) (found : job.targets[k]? = some target)
    (sequential : target.useRandomAlignment = false)
    (checked : target.checkSetUp (job.noThreads target) = .ok ()) :
    OffsetsInRegion job params k target ↔
      (((job.noThreads target).toNat : Int) - 1) * target.threadOffset.toInt < 2 ^ 63 := by
  have accepted := parseCommandLine_accepted ok target (List.mem_of_getElem? found)
  rw [← Target.lastThread_le_iff accepted checked, ← Target.threadBases_inRegion_iff accepted]
  exact ⟨threadBases_of_offsetsInRegion ok created found sequential,
    offsetsInRegion_of_threadBases ok created found sequential⟩

end Run

/-! ### Two command lines -/

/-- `-T4611686018427387904 -t5 f`: four times the stride is 0 in 64 bits. -/
def wrappingCalls : List (Key × Option CString) :=
  [(.option 'T', some "4611686018427387904".toList), (.option 't', some "5".toList),
    (.keyArg, some "f".toList)]

def wrappingTarget : Target where
  path := "f".toList
  size := 1048576
  maxSize := 1048576
  threadsPerTarget := 5
  threadOffset := 4611686018427387904

def wrappingJob : JobOptions where
  totalThreads := 5
  targets := [wrappingTarget]

/-- On a file of 1 MiB the checks pass, and the second thread starts at 2^62. -/
theorem wrappingJob_not_inRegion :
    parseCommandLine wrappingCalls (fun _ => .file 1048576) = .ok wrappingJob ∧
      wrappingTarget.checkSetUp (wrappingJob.noThreads wrappingTarget) = .ok () ∧
      ∃ params, wrappingJob.createThreads (fun _ _ => ⟨3, 0, 0⟩) = some params ∧
        ¬ OffsetsInRegion wrappingJob params 0 wrappingTarget := by
  have ok : parseCommandLine wrappingCalls (fun _ => .file 1048576) = .ok wrappingJob := rfl
  refine ⟨ok, rfl, _, rfl, fun inside => ?_⟩
  have created : wrappingJob.createThreads (fun _ _ => ⟨3, 0, 0⟩) = some _ := rfl
  have second := threadBases_of_offsetsInRegion ok created rfl rfl inside 1 (by decide)
  exact absurd second (by decide)

/-- `-T64K -t5 f` -/
def strideCalls : List (Key × Option CString) :=
  [(.option 'T', some "64K".toList), (.option 't', some "5".toList),
    (.keyArg, some "f".toList)]

def strideJob : JobOptions where
  totalThreads := 5
  targets := [{ wrappingTarget with threadOffset := 65536 }]

theorem strideJob_inRegion :
    parseCommandLine strideCalls (fun _ => .file 1048576) = .ok strideJob ∧
      ∃ params, strideJob.createThreads (fun _ _ => ⟨3, 0, 0⟩) = some params ∧
        OffsetsInRegion strideJob params 0 { wrappingTarget with threadOffset := 65536 } := by
  have ok : parseCommandLine strideCalls (fun _ => .file 1048576) = .ok strideJob := rfl
  have created : strideJob.createThreads (fun _ _ => ⟨3, 0, 0⟩) = some _ := rfl
  exact ⟨ok, _, created, (offsetsInRegion_iff ok created rfl rfl rfl).mpr (by decide)⟩

end DiskSpd
