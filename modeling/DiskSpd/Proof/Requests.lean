/-
**What the kernel has at any moment of a job.**

The facts about the threads of the job, read through the refinement: they hold of the control blocks that
`io_submit`, `aio_read` and `aio_write` have accepted, whatever the threads and the device have done so
far.

* `jobWork_depth` — a thread never has more requests than its group was created for; at the head of its
  work loop and in `wait` each target has exactly its overlap.
* `leavesFlights_reachable` — a thread of the job that ends leaves its flights behind.
* `Target.KeepsRegion`, `ops_inRegion` — the offsets of a target stay in its region, in all three modes.
* `jobWork_requests` — each request is for a target of its thread: the file, the length, a buffer of one
  of its slots, a direction that the write percentage allows, and an offset in the region.
-/

import DiskSpd.Proof.Depth
import DiskSpd.Proof.RandomOffsets
import DiskSpd.Proof.Region
import DiskSpd.Proof.Workers

namespace DiskSpd

open IAsyncIop LawfulIop Transition

section Requests

variable {Engine : Type} {job : JobOptions} {opened : UInt32 → Nat → JobOptions.Opened}
  {params : List ThreadParams} {dist : UniformInt Engine} {k : Nat} {th : ThreadParams}

/-! ### How many -/

/-- **The depth of a thread in the kernel.** -/
structure KernelDepth {Op : Type} [IAsyncIop Op] {manager : IAsyncIOManager Op} (th : ThreadParams)
    (s : WorkState manager Engine) (k : Nat) : Prop where
  /-- an operation has one request at most -/
  distinct : (manager.requests s.engine th.groupId).Nodup
  /-- `create_group` has room for them -/
  bounded : (manager.requests s.engine th.groupId).length ≤ th.totalOverlap.toNat
  atHead : (s.workers k).place = .outside .work ∨ (s.workers k).place = .waiting →
    ∀ t tData, th.targets[t]? = some tData →
      (manager.requests s.engine th.groupId).countP (fun n => (s.request n).1 == t) =
        tData.target.overlap.toNat

/-- The depth of the thread of the job is that of the thread over the engine. -/
theorem StandsFor.depth {Op : Type} [IAsyncIop Op] [LawfulIop Op] {manager : IAsyncIOManager Op}
    {s : WorkState manager Engine} {t : ThreadState Op Engine} (standsFor : StandsFor th s k t)
    (deep : Deep th t) : KernelDepth th s k where
  distinct := standsFor.distinct
  bounded := by
    have count := standsFor.count
    have bounded := deep.bounded
    unfold ThreadState.pending at count
    rw [List.length_append, List.length_map] at count
    omega
  atHead atPlace i tData found := by
    have phase : t.phase = .work := by
      rcases atPlace with atPlace | atPlace <;> rw [standsFor.phase, atPlace] <;> rfl
    have submitted : (s.workers k).place.Submitted := by
      rcases atPlace with atPlace | atPlace <;> rw [atPlace] <;> trivial
    have counted := (standsFor.flights submitted).countP_eq fun request => request.1 == i
    rw [List.countP_map, List.countP_map] at counted
    exact counted.trans ((deep.atHead phase).2 i tData found)

/-- **Over either engine, a thread has its depth in the kernel**, however the threads interleave and
whichever submits fail. -/
theorem jobWork_depth (created : job.createThreads opened = some params)
    {s : WorkState job.ioManager.manager Engine}
    (reached : Reachable (job.workSystem dist params) s) (isThread : params[k]? = some th)
    -- the paths are arguments of main, and their number is an int
    (few : th.targets.length ≤ 2 ^ 32) : KernelDepth th s k := by
  obtain ⟨a, isReached, standsFor⟩ := jobWork_alone created reached
  obtain ⟨linked, inv⟩ := depthInv_reachable isReached isThread
  exact (standsFor k th isThread).depth (deep_of_inv few linked inv)

/-! ### When a thread ends -/

section Ended

variable {Op : Type} [IAsyncIop Op] [LawfulIop Op] {s s' : ThreadState Op Engine}

/-- A thread of the job that has ended leaves its flights behind, but for one at most. -/
def LeavesFlights (th : ThreadParams) (s : ThreadState Op Engine) : Prop :=
  s.phase = .ended →
    s.inFlight.length = th.slots.length ∨ s.inFlight.length + 1 = th.slots.length

theorem inFlight_length (inv : DepthInv th s) (phase : s.phase = .work) :
    s.inFlight.length = th.slots.length := by
  have count := inv.count
  have all := (inv.all (by rw [phase]; rfl)).length_eq
  unfold ThreadState.pending at all
  rw [inv.submitted phase, List.nil_append, List.length_map, List.length_map, List.length_range] at all
  rw [phase] at count
  exact all.trans count

omit [LawfulIop Op] in
theorem afterSubmit_not_ended (s : ThreadState Op Engine) (err : Int32) :
    (s.afterSubmit err).phase ≠ .ended := by
  rcases s.afterSubmit_phase err with phase | phase <;> rw [phase] <;> decide

theorem leavesFlights_step {interlocked interlocked' : Interlocked} (inv : DepthInv th s)
    (leaves : LeavesFlights th s) (step : Step dist th interlocked s interlocked' s') :
    LeavesFlights th s' := by
  intro ended
  cases step with
  | leave phase =>
    have length := inFlight_length inv phase
    exact Or.inl length
  | @waitLast _ before after flight phase _ inFlight =>
    have length := inFlight_length inv phase
    rw [inFlight, List.length_append, List.length_cons] at length
    refine Or.inr ?_
    show (before ++ after).length + 1 = th.slots.length
    rw [List.length_append]
    omega
  | throttle => exact leaves ended
  | submit => exact absurd ended (afterSubmit_not_ended _ _)
  | complete => exact absurd ended (afterSubmit_not_ended _ _)
  | startOffset | targetsDone | construct | overlapDone | advance | fail => cases ended

theorem leavesFlights_reachable {targets : List Target} {state : JobState Op Engine}
    (reached : Reachable (jobSystem Op dist targets params) state) (isThread : params[k]? = some th) :
    LeavesFlights th (state.threads k) := by
  refine (jobSystem_thread (fun s => (Linked th s ∧ DepthInv th s) ∧ LeavesFlights th s) isThread
    (fun rngEngine => ⟨⟨linked_initial rngEngine, depthInv_initial rngEngine⟩, ?_⟩)
    (fun _ _ _ _ before step => ⟨⟨linked_step before.1.1 step,
      depthInv_step before.1.1 before.1.2 step⟩, leavesFlights_step before.1.2 before.2 step⟩)
    reached).2
  exact fun ended => by cases ended

end Ended

/-! ### Where -/

/-- The condition under which the offsets of a target stay in its region: nothing that the set-up or the
random draw computes wraps. -/
def Target.KeepsRegion (target : Target) (noThreads : UInt32) : Prop :=
  if target.useRandomAlignment then target.lastSlot < 2 ^ 31
  else ((noThreads.toNat : Int) - 1) * target.threadOffset.toInt < 2 ^ 63

/-- A slot is in the region. -/
theorem Target.IsSlot.inRegion {target : Target} (accepted : target.Accepted) {offset : Int64}
    (slot : target.IsSlot offset) : target.InRegion offset := by
  obtain ⟨i, same, fits⟩ := slot
  have product : 0 ≤ (i : Int) * target.stride.toInt := mul_nonneg (Int.natCast_nonneg i) accepted.stride
  unfold Target.InRegion
  omega

/-- What a random target draws is in the region. -/
theorem randomOffset_inRegion {target : Target} (accepted : target.Accepted)
    (small : target.lastSlot < 2 ^ 31) (lawful : dist.Lawful) {engine next : Engine} {offset : Int64}
    (drawn : target.randomOffset dist engine = some (offset, next)) : target.InRegion offset := by
  by_cases zero : target.stride = 0
  · rw [Target.randomOffset_zero_stride zero] at drawn
    cases drawn
  · have exactly := Target.drawsExactly_of_lastSlot accepted zero small
    exact ((exactly Engine dist lawful offset).mp ⟨engine, next, drawn⟩).inRegion accepted

section Accepted

variable {calls : List (Key × Option CString)} {stat : CString → Stat}

/-- **The offset of each operation is in the region of its target**, in random, interlocked and default
mode alike. -/
theorem ops_inRegion (ok : parseCommandLine calls stat = .ok job)
    (created : job.createThreads opened = some params)
    (checked : ∀ target ∈ job.targets, target.checkSetUp (job.noThreads target) = .ok ())
    (keeps : ∀ target ∈ job.targets, target.KeepsRegion (job.noThreads target))
    (lawful : dist.Lawful) {a : JobState job.ioManager.Op Engine}
    (reached : Reachable (job.system dist params) a) (isThread : params[k]? = some th)
    {op : job.ioManager.Op} (isOp : op ∈ (a.threads k).ops) {tData : TargetData}
    (found : th.targets[getTargetData op]? = some tData) :
    tData.target.InRegion (getOffset op) := by
  have serves := createThreads_serves created
  have isTarget := (serves th (List.mem_of_getElem? isThread) tData (List.mem_of_getElem? found)).1
  have member := List.mem_of_getElem? isTarget
  have accepted := parseCommandLine_accepted ok tData.target member
  have bound := keeps tData.target member
  have first : SharedInRegion tData.target
      ((job.targets[tData.targetIndex]?.map (·.interlockedOffset)).getD 0) := by
    rw [isTarget, Option.map_some, Option.getD_some]
    intro interlocked
    rw [accepted.interlockedOffset interlocked]
    exact Target.baseOffset_inRegion accepted
  unfold Target.KeepsRegion at bound
  cases random : tData.target.useRandomAlignment with
  | true =>
    rw [random, if_pos rfl] at bound
    have closed : OffsetsClosed dist tData.target (fun _ => True) tData.target.InRegion
        (SharedInRegion tData.target) := by
      refine .of_steps (fun _ _ _ _ drawn => randomOffset_inRegion accepted bound lawful drawn) ?_ ?_
      · intro no
        rw [random] at no
        cases no
      · intro no
        rw [random] at no
        cases no
    have servesUnder : ∀ th' ∈ params,
        th'.ServesUnder tData.targetIndex tData.target fun _ => True :=
      fun th' isTh' tData' isTData' index =>
        ⟨(serves_target (serves th' isTh') isTarget isTData' index).1, trivial⟩
    exact ((closed.reachable servesUnder first reached).2 k th isThread).ops op isOp tData found rfl
  | false =>
    rw [random, if_neg Bool.false_ne_true, ← Target.lastThread_le_iff accepted (checked _ member),
      ← Target.threadBases_inRegion_iff accepted] at bound
    have servesUnder : ∀ th' ∈ params, th'.ServesUnder tData.targetIndex tData.target fun id =>
        tData.target.InRegion (tData.target.getThreadBaseOffset id) :=
      fun th' isTh' tData' isTData' index => by
        obtain ⟨same, below⟩ := serves_target (serves th' isTh') isTarget isTData' index
        exact ⟨same, bound _ below⟩
    exact (((region_closed dist accepted random).reachable servesUnder first reached).2 k th
      isThread).ops op isOp tData found rfl

/-- **A request for a target of the thread**: for its file, with its block size, between memory that is
a slot of the target's buffers and a block of the region. -/
structure RequestSound (th : ThreadParams) (request : Nat × ControlBlock) : Prop where
  block : ∃ tData args, th.targets[request.1]? = some tData ∧ ArgsSound tData args ∧
    request.2 = args.controlBlock ∧ tData.target.InRegion request.2.offset

/-- **Every request the kernel has is sound**, over either engine, at any moment of any run, for a
thread that works, has ended or has failed. -/
theorem jobWork_requests (ok : parseCommandLine calls stat = .ok job)
    (created : job.createThreads opened = some params)
    (checked : ∀ target ∈ job.targets, target.checkSetUp (job.noThreads target) = .ok ())
    (keeps : ∀ target ∈ job.targets, target.KeepsRegion (job.noThreads target))
    (lawful : dist.Lawful) {s : WorkState job.ioManager.manager Engine}
    (reached : Reachable (job.workSystem dist params) s) (isThread : params[k]? = some th) :
    ∀ n ∈ job.ioManager.manager.requests s.engine th.groupId, RequestSound th (s.request n) := by
  intro n member
  obtain ⟨a, isReached, standsFor⟩ := jobWork_alone created reached
  obtain ⟨_, named⟩ := (standsFor k th isThread).requests
  obtain ⟨issue, _, _, op, isOp, same⟩ := named n member
  obtain ⟨inStep, tData, found, args⟩ :=
    (linked_reachable isReached isThread).sound op (List.mem_of_getElem? isOp)
  have inRegion := ops_inRegion ok created checked keeps lawful isReached isThread
    (List.mem_of_getElem? isOp) (by rw [getTargetData_eq]; exact found)
  refine ⟨tData, view op, ?_, args, ?_, ?_⟩
  · rw [same, getTargetData_eq]
    exact found
  · rw [same, controlBlock_eq op inStep]
  · rw [getOffset_eq] at inRegion
    rw [same, controlBlock_eq op inStep]
    exact inRegion

end Accepted

end Requests

/-- Each thread has both of its requests. -/
theorem pairJob_depth : ∃ s : WorkState pairJob.ioManager.manager Int32,
    (s.workers 0).place = .outside .work ∧ (s.workers 1).place = .outside .work ∧
      KernelDepth (pairThread 0) s 0 ∧ KernelDepth (pairThread 1) s 1 := by
  obtain ⟨s, _, _, ⟨reached, first, second, _⟩, _⟩ := pairJob_works heldValue 0
  exact ⟨s, first, second, jobWork_depth pairJob_created reached rfl (by decide),
    jobWork_depth pairJob_created reached rfl (by decide)⟩

theorem pairTargets_checked : ∀ target ∈ pairJob.targets,
    target.checkSetUp (pairJob.noThreads target) = .ok () := by
  intro target member
  rw [List.mem_singleton.mp member]
  rfl

/-- A read of the first thread and a write of the second. -/
theorem pairJob_requests : ∃ s : WorkState pairJob.ioManager.manager Int32,
    (s.request 1).2.type = .read ∧ RequestSound (pairThread 0) (s.request 1) ∧
      (s.request 2).2.type = .write ∧ RequestSound (pairThread 1) (s.request 2) := by
  obtain ⟨s, _, _, ⟨reached, _, _, first, second, read, write⟩, _⟩ := pairJob_works heldValue 0
  have keeps : ∀ target ∈ pairJob.targets, target.KeepsRegion (pairJob.noThreads target) := by
    intro target member
    rw [List.mem_singleton.mp member]
    show _ < (2 : Int) ^ 63
    decide
  have sound : ∀ k th, pairThreads[k]? = some th →
      ∀ op ∈ kernelAsyncIOManager.requests s.engine th.groupId, RequestSound th (s.request op) :=
    fun _ _ isThread => jobWork_requests pairJob_parsed pairJob_created pairTargets_checked keeps
      heldValue_lawful reached isThread
  refine ⟨s, read, sound 0 _ rfl 1 ?_, write, sound 1 _ rfl 2 ?_⟩
  · show 1 ∈ kernelAsyncIOManager.requests s.engine 0
    rw [first]
    decide
  · show 2 ∈ kernelAsyncIOManager.requests s.engine 1
    rw [second]
    decide

end DiskSpd
