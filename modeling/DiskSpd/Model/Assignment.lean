/-
**The assignment loops of `run_job`, with the results objects.**

* `ThreadSetUp` — a thread as the loops build it: what it works on, the results object each of its
  `TargetData` points to, and the objects in its `target_results`. An object is named by the order
  in which it is made.
* `assignRound` — one round of the two loops, with the running index in `unsigned int`.
* `assignThreads` — the creation of the threads and both loops. `none` is an index past the end of
  `thread_params`, or the failed check that `rel_thread_id` is `thread_id` with `-F`.

`createThreads` runs the same loops on what the threads work on alone.
-/

import DiskSpd.Model.Job

namespace DiskSpd

/-- A thread with its results objects, entry by entry of its targets. -/
structure ThreadSetUp where
  params : ThreadParams
  dataResults : List Nat := []    -- t_data->results
  targetResults : List Nat := []  -- th->results->target_results
  deriving DecidableEq, Repr

/-- The state of the loops. -/
structure AssignState where
  threads : List ThreadSetUp
  index : UInt32 := 0
  totalOverlap : UInt32 := 0
  /-- the target each results object made so far names -/
  results : List Nat := []
  deriving DecidableEq, Repr

namespace JobOptions

variable (job : JobOptions) (opened : UInt32 → Nat → Opened)

/-- The thread with one more target, whose data and results share a new results object. -/
def pushTarget (th : ThreadSetUp) (round : (Target × Nat) × Nat) (tResults : Nat) : ThreadSetUp where
  params := addTarget opened th.params round.1 round.2
  dataResults := th.dataResults ++ [tResults]
  targetResults := th.targetResults ++ [tResults]

/-- One round of the loops. -/
def assignRound (state : AssignState) (round : (Target × Nat) × Nat) : Option AssignState := do
  let n := if job.useTotalThreads then round.2 else state.index.toNat
  let th ← state.threads[n]?
  let next := pushTarget opened th round state.results.length
  if job.useTotalThreads && next.params.relThreadId != next.params.threadId then none
  else some {
    threads := state.threads.set n next
    index := if job.useTotalThreads then state.index else state.index + 1
    totalOverlap := state.totalOverlap + round.1.1.overlap
    results := state.results ++ [round.1.2] }

/-- The threads before the loops. -/
def initialThreads : AssignState where
  threads := (List.range job.totalThreads.toNat).map fun id => { params := job.newThread id }

def assignThreads : Option AssignState :=
  job.rounds.foldlM (job.assignRound opened) job.initialThreads

end JobOptions

end DiskSpd
