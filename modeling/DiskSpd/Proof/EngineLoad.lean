/-
**The load of the engine.**

* `JobOptions.overlaps` — the operations of all rounds of the assignment.
* `assigned_overlaps`, `created_slots` — the threads have that many slots between them, and `run_job` counts
  them in an `unsigned int`, with which it starts its engine.
* `jobWork_total` — the kernel never has more requests than that from all threads together, and it has all
  of them when no thread is in the middle of a round.
* `run_total` — so from the warm-up on, as long as no thread fails, it lacks one for each thread at most.
-/

import DiskSpd.Proof.Assignment
import DiskSpd.Proof.Load

namespace DiskSpd

open Transition

/-! ### The assignment -/

section Assignment

variable {job : JobOptions} {opened : UInt32 → Nat → JobOptions.Opened} {final : AssignState}
  {params : List ThreadParams}

/-- The operations of some rounds. -/
def roundOverlaps (rounds : List ((Target × Nat) × Nat)) : Nat :=
  (rounds.map fun round => round.1.1.overlap.toNat).sum

def JobOptions.overlaps (job : JobOptions) : Nat := roundOverlaps job.rounds

/-- A target adds its overlap to the slots of a thread. -/
theorem slots_addTarget (th : ThreadParams) (target : Target × Nat) (innerIndex : Nat) :
    (JobOptions.addTarget opened th target innerIndex).slots.length =
      th.slots.length + target.1.overlap.toNat := by
  rw [slots_length, slots_length]
  unfold JobOptions.addTarget
  rw [List.map_append, List.sum_append, List.map_singleton, List.sum_singleton]

/-- The slots of the threads of a state of the loops. -/
def AssignState.slots (state : AssignState) : List Nat :=
  state.threads.map fun th => th.params.slots.length

/-- A round of the loops adds the overlap of its target to the slots. -/
theorem assignRound_slots {state next : AssignState} {round : (Target × Nat) × Nat}
    (step : job.assignRound opened state round = some next) :
    next.slots.sum = state.slots.sum + round.1.1.overlap.toNat := by
  obtain ⟨th, found, rfl⟩ := assignRound_some step
  have isSlots : state.slots[if job.useTotalThreads then round.2 else state.index.toNat]? =
      some th.params.slots.length := by
    unfold AssignState.slots
    rw [List.getElem?_map, found]
    rfl
  have changed := Tally.sum_set (y := th.params.slots.length + round.1.1.overlap.toNat) isSlots
  have after : AssignState.slots {
      threads := state.threads.set (if job.useTotalThreads then round.2 else state.index.toNat)
        (JobOptions.pushTarget opened th round state.results.length)
      index := if job.useTotalThreads then state.index else state.index + 1
      totalOverlap := state.totalOverlap + round.1.1.overlap
      results := state.results ++ [round.1.2] } =
      state.slots.set (if job.useTotalThreads then round.2 else state.index.toNat)
        (th.params.slots.length + round.1.1.overlap.toNat) := by
    unfold AssignState.slots
    rw [List.map_set]
    congr 1
    exact slots_addTarget th.params round.1 round.2
  rw [after]
  omega

/-- **The loops count the slots** that they give out, in an `unsigned int`. -/
theorem assigned_overlaps (done : job.assignThreads opened = some final) :
    final.slots.sum = job.overlaps ∧ final.totalOverlap.toNat = job.overlaps % 2 ^ 32 := by
  refine Loop.foldlM_history (fun past state => state.slots.sum = roundOverlaps past ∧
    state.totalOverlap.toNat = roundOverlaps past % 2 ^ 32) done ⟨?_, rfl⟩ ?_
  · unfold AssignState.slots JobOptions.initialThreads
    rw [List.map_map]
    refine List.sum_eq_zero fun n member => ?_
    obtain ⟨id, _, rfl⟩ := List.mem_map.mp member
    exact slots_length
  · rintro past state round next _ ⟨slots, counted⟩ step
    have added := assignRound_slots step
    obtain ⟨_, _, rfl⟩ := assignRound_some step
    have sum : roundOverlaps (past ++ [round]) = roundOverlaps past + round.1.1.overlap.toNat := by
      unfold roundOverlaps
      rw [List.map_append, List.sum_append, List.map_singleton, List.sum_singleton]
    refine ⟨by rw [added, slots, sum], ?_⟩
    dsimp only
    rw [UInt32.toNat_add, counted, sum, Nat.mod_add_mod]

/-- The set-up of the threads leaves them their slots. -/
theorem created_slots (done : job.assignThreads opened = some final)
    (created : job.createThreads opened = some params) :
    params.map (fun th => th.slots.length) = final.slots := by
  rw [assignThreads_created done] at created
  have length := Loop.mapM_length created
  have entry := Loop.mapM_getElem? created
  refine List.ext_getElem? fun n => ?_
  unfold AssignState.slots
  rw [List.getElem?_map, List.getElem?_map, entry, List.getElem?_map]
  cases isThread : final.threads[n]? with
  | none => rfl
  | some th =>
    have member : th.params ∈ final.threads.map (·.params) :=
      List.mem_map_of_mem (List.mem_of_getElem? isThread)
    obtain ⟨th', setUp⟩ := Loop.mapM_total created _ member
    show (job.setUpThread th.params).map _ = _
    rw [setUp, Option.map_some, Option.map_some, slots_length, slots_length,
      (setUpThread_frame setUp).1]

end Assignment

/-! ### All threads -/

section Total

variable {Engine : Type} {job : JobOptions} {opened : UInt32 → Nat → JobOptions.Opened}
  {params : List ThreadParams} {dist : UniformInt Engine} {final : AssignState}

/-- **The load of the engine.** -/
structure EngineLoad (job : JobOptions) (final : AssignState) (params : List ThreadParams)
    (s : WorkState job.ioManager.manager Engine) : Prop where
  /-- what `start` is called with -/
  started : final.totalOverlap.toNat = job.overlaps % 2 ^ 32
  slots : (params.map fun th => th.slots.length).sum = job.overlaps
  bounded : (params.map s.load).sum ≤ job.overlaps
  full : (∀ (k : Nat) (th : ThreadParams), params[k]? = some th →
      (s.workers k).place = .outside .work ∨ (s.workers k).place = .waiting) →
    (params.map s.load).sum = job.overlaps

/-- **The load of the engine at any moment of any run** of the threads. -/
theorem jobWork_total (assigned : job.assignThreads opened = some final)
    (created : job.createThreads opened = some params)
    -- the paths are arguments of main, and their number is an int
    (few : ∀ th ∈ params, th.targets.length ≤ 2 ^ 32)
    {s : WorkState job.ioManager.manager Engine}
    (reached : Reachable (job.workSystem dist params) s) : EngineLoad job final params s := by
  obtain ⟨slots, counted⟩ := assigned_overlaps assigned
  rw [← created_slots assigned created] at slots
  have each : ∀ th ∈ params, s.load th ≤ th.slots.length := by
    intro th member
    obtain ⟨k, isThread⟩ := List.getElem?_of_mem member
    rw [← totalOverlap_toNat (few th member)]
    exact load_atMost created reached isThread (few th member)
  refine ⟨counted, slots, ?_, fun atPlace => ?_⟩
  · rw [← slots]
    exact List.sum_le_sum each
  · rw [← slots]
    refine congrArg List.sum (List.map_congr_left fun th member => ?_)
    obtain ⟨k, isThread⟩ := List.getElem?_of_mem member
    rw [← totalOverlap_toNat (few th member)]
    have submitted : (s.workers k).place.Submitted := by
      rcases atPlace k th isThread with here | here <;> rw [here] <;> trivial
    refine (jobWork_submitted created reached isThread (few th member) submitted).2 ?_
    rcases atPlace k th isThread with here | here <;> rw [here] <;> simp

/-- **The load of the engine in a whole run**: once the job is past its barrier, at most one operation of
each thread is not with the kernel, until a thread fails. -/
theorem run_total (assigned : job.assignThreads opened = some final)
    (created : job.createThreads opened = some params)
    (few : ∀ th ∈ params, th.targets.length ≤ 2 ^ 32)
    {s : Waits × WorkState job.ioManager.manager Engine}
    (reached : Reachable (job.runSystem dist params) s) :
    EngineLoad job final params s.2 ∧ (s.1.job.PastBarrier →
      (∀ (k : Nat) (th : ThreadParams), params[k]? = some th →
        (s.2.workers k).place ≠ .outside .aborted) →
      job.overlaps ≤ (params.map s.2.load).sum + params.length) := by
  have load := jobWork_total assigned created few reached.snd
  refine ⟨load, fun past alive => ?_⟩
  have each : ∀ th ∈ params, th.slots.length ≤ s.2.load th + 1 := by
    intro th member
    obtain ⟨k, isThread⟩ := List.getElem?_of_mem member
    rw [← totalOverlap_toNat (few th member)]
    exact load_past created reached isThread (few th member) past (alive k th isThread)
  calc job.overlaps = (params.map fun th => th.slots.length).sum := load.slots.symm
    _ ≤ (params.map fun th => s.2.load th + 1).sum := List.sum_le_sum each
    _ = (params.map s.2.load).sum + params.length := by
        rw [List.sum_map_add, List.map_const', List.sum_replicate, smul_eq_mul, mul_one]

end Total

/-- The engine is started for the four slots of the two threads, which are in use while both are at the
heads of their loops; three are left when the job has passed. -/
theorem pairJob_total : ∃ (final : AssignState)
    (atHead passed : Waits × WorkState pairJob.ioManager.manager Int32),
    final.totalOverlap = 4 ∧ atHead.1.job = .mainWait ∧ (pairThreads.map atHead.2.load).sum = 4 ∧
      passed.1.job = .passed ∧ (pairThreads.map passed.2.load).sum = 3 ∧
      EngineLoad pairJob final pairThreads passed.2 ∧
      pairJob.overlaps ≤ (pairThreads.map passed.2.load).sum + pairThreads.length := by
  obtain ⟨_, atHead, s, _, ⟨reached, inMain, head, head'⟩, reached', passed, ended, ended', _, _, first,
    second⟩ := pairJob_passes
  have assigned : pairJob.assignThreads pairOpened = some _ := rfl
  have few : ∀ th ∈ pairThreads, th.targets.length ≤ 2 ^ 32 := by decide
  have full : (pairThreads.map atHead.2.load).sum = pairJob.overlaps := by
    refine (run_total assigned pairJob_created few reached).1.full fun k th isThread => Or.inl ?_
    rcases k with _ | _ | k
    · exact head
    · exact head'
    · cases isThread
  have lacks : (pairThreads.map s.2.load).sum = 3 := by
    show (pairJob.ioManager.manager.requests s.2.engine 0).length +
      ((pairJob.ioManager.manager.requests s.2.engine 1).length + 0) = 3
    rw [first, second]
    rfl
  have total := run_total assigned pairJob_created few reached'
  refine ⟨_, atHead, s, rfl, inMain, full, passed, lacks, total.1, total.2 ?_ ?_⟩
  · rw [passed]
    trivial
  · intro k th isThread
    rcases k with _ | _ | k
    · rw [ended]
      simp
    · rw [ended']
      simp
    · cases isThread

end DiskSpd
