/-
**What a step of a thread changes.**

* The frame lemmas of `enqueue`, `submit`, `record` and `reissue`: one lemma for each field that
  stays, tagged for `simp`.
* `record_cases`, `record_frame` — what recording does: it changes the results, the byte count and the
  history of records only.
* `jobSystem_thread` — what holds of a thread's initial state and is kept by each of its own steps,
  whatever the shared offsets are, holds of that thread in every reachable state of the job.
* `Serves` — a thread that `run_job` may have created: each target it has is a target of the job,
  and its relative id is below the number of threads of that target.
-/

import DiskSpd.Model.Thread
import DiskSpd.Proof.Iop

namespace DiskSpd

open IAsyncIop Transition

section Frame

variable {Op Engine : Type} [IAsyncIop Op]

namespace ThreadState

variable (s : ThreadState Op Engine) (err : Int32)

@[simp] theorem afterSubmit_ops : (s.afterSubmit err).ops = s.ops := by
  unfold afterSubmit submit
  split <;> rfl

@[simp] theorem afterSubmit_issued : (s.afterSubmit err).issued = s.issued := by
  unfold afterSubmit submit
  split <;> rfl

@[simp] theorem afterSubmit_results : (s.afterSubmit err).results = s.results := by
  unfold afterSubmit submit
  split <;> rfl

@[simp] theorem afterSubmit_rngEngine : (s.afterSubmit err).rngEngine = s.rngEngine := by
  unfold afterSubmit submit
  split <;> rfl

@[simp] theorem afterSubmit_threadBytesCount :
    (s.afterSubmit err).threadBytesCount = s.threadBytesCount := by
  unfold afterSubmit submit
  split <;> rfl

@[simp] theorem afterSubmit_recorded : (s.afterSubmit err).recorded = s.recorded := by
  unfold afterSubmit submit
  split <;> rfl

@[simp] theorem afterSubmit_uninit : (s.afterSubmit err).uninit = s.uninit := by
  unfold afterSubmit submit
  split <;> rfl

/-- After `submit` the thread is in the work loop or has aborted. -/
theorem afterSubmit_phase : (s.afterSubmit err).phase = .work ∨
    (s.afterSubmit err).phase = .aborted := by
  unfold afterSubmit
  split
  · exact Or.inl rfl
  · exact Or.inr rfl

/-- **What recording does**: nothing outside the main duration, else one update of the results of the
operation's target, noted in the history. -/
theorem record_cases {th : ThreadParams} {s recorded : ThreadState Op Engine} {flight : Flight}
    {op : Op} {tData : TargetData} {round : Round}
    (done : s.record th flight op tData round = some recorded) :
    (round.record = false ∧ recorded = s) ∨
      (round.record = true ∧ ∃ results updated, s.results[getTargetData op]? = some results ∧
        results.record th.measure (completion op round) = some updated ∧
        recorded = { s with
          threadBytesCount := (s.threadBytesCount.toUInt64 + tData.target.blockSize).toInt64
          results := s.results.set (getTargetData op) updated
          recorded := s.recorded ++ [⟨flight, completion op round⟩] }) := by
  unfold record at done
  split_ifs at done with measured
  · simp only [bind, Option.bind_eq_some_iff] at done
    obtain ⟨results, found, updated, isUpdated, done⟩ := done
    cases done
    exact Or.inr ⟨measured, results, updated, found, isUpdated, rfl⟩
  · cases done
    exact Or.inl ⟨eq_false_of_ne_true measured, rfl⟩

/-- **Recording changes results, byte count and records only.** -/
theorem record_frame {th : ThreadParams} {s recorded : ThreadState Op Engine} {flight : Flight}
    {op : Op} {tData : TargetData} {round : Round}
    (done : s.record th flight op tData round = some recorded) :
    ∃ bytes results records, recorded =
      { s with threadBytesCount := bytes, results := results, recorded := records } := by
  rcases record_cases done with ⟨_, rfl⟩ | ⟨_, results, updated, _, _, rfl⟩
  · exact ⟨_, _, _, rfl⟩
  · exact ⟨_, _, _, rfl⟩

end ThreadState

end Frame

/-! ### The threads of a job -/

/-- **The shared offsets change in calls of the offset functions only.** -/
theorem step_interlocked {Op Engine : Type} [IAsyncIop Op] {dist : UniformInt Engine}
    {th : ThreadParams} {interlocked interlocked' : Interlocked} {s s' : ThreadState Op Engine}
    (step : Step dist th interlocked s interlocked' s') :
    interlocked' = interlocked ∨ ∃ tData ∈ th.targets, ∃ offset state,
      (tData.target.getStartOffset dist th.relThreadId (s.offsetState interlocked tData) =
          some (offset, state) ∨
        ∃ curr, tData.target.getNextOffset dist th.relThreadId
          (s.offsetState interlocked tData) curr = some (offset, state)) ∧
      interlocked' = interlocked.after tData state := by
  cases step with
  | startOffset _ found call =>
    exact Or.inr ⟨_, List.mem_of_getElem? found, _, _, Or.inl call, rfl⟩
  | advance _ found call =>
    exact Or.inr ⟨_, List.mem_of_getElem? found, _, _, Or.inr ⟨_, call⟩, rfl⟩
  | complete _ _ _ _ found _ _ _ _ _ call =>
    exact Or.inr ⟨_, List.mem_of_getElem? found, _, _, Or.inr ⟨_, call⟩, rfl⟩
  | _ => exact Or.inl rfl

/-- A thread that `run_job` may have created for the job. -/
def ThreadParams.Serves (th : ThreadParams) (job : JobOptions) : Prop :=
  ∀ tData ∈ th.targets, job.targets[tData.targetIndex]? = some tData.target ∧
    th.relThreadId.toNat < (job.noThreads tData.target).toNat

section Job

variable {Op Engine : Type} [IAsyncIop Op] {dist : UniformInt Engine} {targets : List Target}
  {params : List ThreadParams}

theorem jobSystem_step {state : JobState Op Engine} {k : Nat} {th : ThreadParams}
    (isThread : params[k]? = some th) {interlocked : Interlocked} {s : ThreadState Op Engine}
    (step : Step dist th state.interlocked (state.threads k) interlocked s) :
    (jobSystem Op dist targets params).step state k
      { interlocked := interlocked, threads := Function.update state.threads k s } :=
  ⟨th, interlocked, s, isThread, step, rfl⟩

/-- **Invariants of one thread**, kept by its own steps over any shared offsets. -/
theorem jobSystem_thread (holds : ThreadState Op Engine → Prop) {k : Nat} {th : ThreadParams}
    (isThread : params[k]? = some th) (start : ∀ rngEngine, holds (.initial th rngEngine))
    (keep : ∀ interlocked s interlocked' s', holds s →
      Step dist th interlocked s interlocked' s' → holds s')
    {state : JobState Op Engine} (reached : Reachable (jobSystem Op dist targets params) state) :
    holds (state.threads k) := by
  refine Reachable.invariant (H := fun state => holds (state.threads k)) reached ?_ ?_
  · intro first isInit
    obtain ⟨rngEngine, same⟩ := isInit.2 k th isThread
    rw [same]
    exact start rngEngine
  · rintro state other next before ⟨th', interlocked, thread, isOther, step, rfl⟩
    by_cases same : k = other
    · subst same
      rw [isThread, Option.some.injEq] at isOther
      subst isOther
      simp only [Function.update_self]
      exact keep _ _ _ _ before step
    · simp only [Function.update_of_ne same]
      exact before

end Job

end DiskSpd
