/-
**Predicates on the offsets of a thread.**

* `Phase.running`, `Phase.notYet` — where the initialisation of a thread is; it does not go back
  (`notYet_step`).
* `OffsetsSatisfy` — the running offset of the initialisation, the offset in each operation and each
  offset issued satisfy a predicate of the target they are for.
* `offsetsSatisfy_step` — what each call of an offset function has to return for a step to keep that.
* `OffsetsClosed` — a predicate on the offsets of one target that its offset functions keep
  (`OffsetsClosed.of_steps`); `OffsetsClosed.reachable` — it holds of all its offsets, in every
  state of a job.
-/

import DiskSpd.Proof.ThreadSteps

namespace DiskSpd

open IAsyncIop

section Offsets

variable {Op Engine : Type} [IAsyncIop Op] [LawfulIop Op] {dist : UniformInt Engine}

/-- The target and the running offset of the overlap loop, while the thread is in it. -/
def Phase.running : Phase → Option (Nat × Int64)
  | .issue t _ curr => some (t, curr)
  | .advance t _ curr => some (t, curr)
  | _ => none

theorem afterSubmit_running {Op Engine : Type} [IAsyncIop Op] (s : ThreadState Op Engine)
    (err : Int32) : (s.afterSubmit err).phase.running = none := by
  rcases s.afterSubmit_phase err with phase | phase <;> rw [phase] <;> rfl

/-- The initialisation has not reached the target yet. -/
def Phase.notYet (t : Nat) : Phase → Prop
  | .start m => m ≤ t
  | .issue m _ _ => m < t
  | .advance m _ _ => m < t
  | _ => False

theorem afterSubmit_not_notYet {Op Engine : Type} [IAsyncIop Op] (s : ThreadState Op Engine)
    (err : Int32) (t : Nat) : ¬ (s.afterSubmit err).phase.notYet t := by
  rcases s.afterSubmit_phase err with phase | phase <;> rw [phase] <;> exact id

/-- **The initialisation does not go back**: a target it has reached stays reached. -/
theorem notYet_step {Op Engine : Type} [IAsyncIop Op] {dist : UniformInt Engine}
    {th : ThreadParams} {interlocked interlocked' : Interlocked} {s s' : ThreadState Op Engine}
    (step : Step dist th interlocked s interlocked' s') {t : Nat} (after : s'.phase.notYet t) :
    s.phase.notYet t := by
  cases step with
  | startOffset phase =>
    rw [phase]
    exact Nat.le_of_lt after
  | targetsDone => exact after.elim
  | construct phase =>
    rw [phase]
    exact after
  | overlapDone phase =>
    rw [phase]
    exact after
  | advance phase =>
    rw [phase]
    exact after
  | submit => exact absurd after (afterSubmit_not_notYet _ _ _)
  | leave => exact after.elim
  | throttle => exact after
  | waitLast => exact after.elim
  | fail => exact after.elim
  | complete => exact absurd after (afterSubmit_not_notYet _ _ _)

/-- A thread's offsets satisfy a predicate of the thread's target: the running offset of the
initialisation, the offset in each operation, and each offset issued. -/
structure OffsetsSatisfy (holds : Nat → Int64 → Prop) (s : ThreadState Op Engine) : Prop where
  running : ∀ t curr, s.phase.running = some (t, curr) → holds t curr
  ops : ∀ op ∈ s.ops, holds (getTargetData op) (getOffset op)
  issued : ∀ issue ∈ s.issued, holds issue.target issue.offset

variable {holds : Nat → Int64 → Prop} {th : ThreadParams}

omit [LawfulIop Op] in
theorem offsetsSatisfy_initial (rngEngine : Engine) :
    OffsetsSatisfy holds (.initial th rngEngine : ThreadState Op Engine) where
  running _ _ phase := by cases phase
  ops _ member := by cases member
  issued _ member := by cases member

/-- An operation is constructed at the running offset. -/
theorem OffsetsSatisfy.construct {s : ThreadState Op Engine} (before : OffsetsSatisfy holds s)
    {t : Nat} {i : UInt32} {curr : Int64} (tData : TargetData) (percentage : UInt32)
    (now uninit : UInt64) (phase : s.phase = .issue t i curr) :
    OffsetsSatisfy holds (s.construct th tData t i curr percentage now uninit) := by
  have here := before.running _ _ (congrArg Phase.running phase)
  refine ⟨?_, ?_, ?_⟩
  · intro t curr same
    cases same
    exact here
  · intro op member
    rcases List.mem_append.mp member with member | member
    · exact before.ops op member
    · rw [List.mem_singleton.mp member]
      simp only [LawfulIop.getTargetData_eq, LawfulIop.getOffset_eq, LawfulIop.view_construct]
      exact here
  · intro issue member
    rcases List.mem_append.mp member with member | member
    · exact before.issued issue member
    · rw [List.mem_singleton.mp member]
      exact here

/-- **What a step of a thread needs of the offset functions** to keep a predicate on its offsets:
each call returns an offset that satisfies it. -/
theorem offsetsSatisfy_step {interlocked interlocked' : Interlocked}
    {s s' : ThreadState Op Engine} (before : OffsetsSatisfy holds s)
    (start : ∀ t tData, th.targets[t]? = some tData → ∀ offset state,
      tData.target.getStartOffset dist th.relThreadId (s.offsetState interlocked tData) =
        some (offset, state) → holds t offset)
    (next : ∀ t tData, th.targets[t]? = some tData → ∀ curr offset state, holds t curr →
      tData.target.getNextOffset dist th.relThreadId (s.offsetState interlocked tData) curr =
        some (offset, state) → holds t offset)
    (step : Step dist th interlocked s interlocked' s') : OffsetsSatisfy holds s' := by
  cases step with
  | startOffset phase found call =>
    refine ⟨?_, before.ops, before.issued⟩
    intro t curr same
    cases same
    exact start _ _ found _ _ call
  | targetsDone => exact ⟨fun _ _ same => (by cases same), before.ops, before.issued⟩
  | construct phase => exact before.construct _ _ _ _ phase
  | overlapDone => exact ⟨fun _ _ same => (by cases same), before.ops, before.issued⟩
  | advance phase found call =>
    refine ⟨?_, before.ops, before.issued⟩
    intro t curr same
    cases same
    exact next _ _ found _ _ _ (before.running _ _ (congrArg Phase.running phase)) call
  | submit =>
    refine ⟨?_, by simpa using before.ops, by simpa using before.issued⟩
    intro _ _ same
    rw [afterSubmit_running] at same
    cases same
  | leave => exact ⟨fun _ _ same => (by cases same), before.ops, before.issued⟩
  | throttle => exact before
  | waitLast => exact ⟨fun _ _ same => (by cases same), before.ops, before.issued⟩
  | fail => exact ⟨fun _ _ same => (by cases same), before.ops, before.issued⟩
  | complete _ _ _ hasOp found _ _ _ _ done call =>
    obtain ⟨bytes, results, records, rfl⟩ := ThreadState.record_frame done
    have fresh := next _ _ found _ _ _ (before.ops _ (List.mem_of_getElem? hasOp)) call
    refine ⟨?_, ?_, ?_⟩
    · intro _ _ same
      rw [afterSubmit_running] at same
      cases same
    · intro op' member
      rw [ThreadState.afterSubmit_ops] at member
      rcases List.mem_or_eq_of_mem_set member with member | rfl
      · exact before.ops op' member
      · simpa only [ThreadState.recycled, LawfulIop.getTargetData_eq, LawfulIop.getOffset_eq,
          LawfulIop.view_setType, LawfulIop.view_setOffset, LawfulIop.view_setTime] using fresh
    · intro issue member
      rw [ThreadState.afterSubmit_issued] at member
      rcases List.mem_append.mp member with member | member
      · exact before.issued issue member
      · rw [List.mem_singleton.mp member]
        exact fresh

end Offsets

/-! ### One target of a job -/

/-- **The offset functions keep a predicate**: of the offsets of a target, and of its shared offset,
for the threads whose relative ids are of a kind. -/
structure OffsetsClosed {Engine : Type} (dist : UniformInt Engine) (target : Target)
    (isId : UInt32 → Prop) (holds shared : Int64 → Prop) : Prop where
  start : ∀ relThreadId state offset after, isId relThreadId → shared state.interlockedOffset →
    target.getStartOffset dist relThreadId state = some (offset, after) →
    holds offset ∧ shared after.interlockedOffset
  next : ∀ relThreadId state curr offset after, isId relThreadId →
    shared state.interlockedOffset →
    target.getNextOffset dist relThreadId state curr = some (offset, after) →
    (holds curr → holds offset) ∧ shared after.interlockedOffset

/-- **The rule for the three modes**: a predicate that holds of what is drawn at random, or else of the
base offsets and of each step from an offset where it holds. In interlocked mode it holds of the
shared offset. -/
theorem OffsetsClosed.of_steps {Engine : Type} {dist : UniformInt Engine} {target : Target}
    {isId : UInt32 → Prop} {holds : Int64 → Prop}
    (drawn : target.useRandomAlignment = true → ∀ engine offset next,
      target.randomOffset dist engine = some (offset, next) → holds offset)
    (base : target.useRandomAlignment = false → ∀ relThreadId, isId relThreadId →
      holds (target.getThreadBaseOffset relThreadId))
    (stepped : target.useRandomAlignment = false → ∀ relThreadId curr, isId relThreadId →
      holds curr → holds (target.correctOverflow relThreadId (curr + target.stride))) :
    OffsetsClosed dist target isId holds
      (fun offset => target.useInterlocked = true → holds offset) where
  start relThreadId state offset after id shared call := by
    unfold Target.getStartOffset at call
    cases random : target.useRandomAlignment with
    | true =>
      rw [random, if_pos rfl] at call
      obtain ⟨⟨offset', next⟩, draw, call⟩ := Option.map_eq_some_iff.mp call
      cases call
      exact ⟨drawn random _ _ _ draw, shared⟩
    | false =>
      rw [random, if_neg Bool.false_ne_true] at call
      cases interlocked : target.useInterlocked with
      | true =>
        unfold Target.getNextOffset at call
        rw [interlocked, if_pos rfl, random, if_neg Bool.false_ne_true, if_pos rfl] at call
        cases call
        have step := stepped random relThreadId _ id (shared interlocked)
        exact ⟨step, fun _ => step⟩
      | false =>
        rw [interlocked, if_neg Bool.false_ne_true] at call
        cases call
        exact ⟨base random relThreadId id, nofun⟩
  next relThreadId state curr offset after id shared call := by
    unfold Target.getNextOffset at call
    cases random : target.useRandomAlignment with
    | true =>
      rw [random, if_pos rfl] at call
      obtain ⟨⟨offset', next⟩, draw, call⟩ := Option.map_eq_some_iff.mp call
      cases call
      exact ⟨fun _ => drawn random _ _ _ draw, shared⟩
    | false =>
      rw [random, if_neg Bool.false_ne_true] at call
      cases interlocked : target.useInterlocked with
      | true =>
        rw [interlocked, if_pos rfl] at call
        cases call
        have step := stepped random relThreadId _ id (shared interlocked)
        exact ⟨fun _ => step, fun _ => step⟩
      | false =>
        rw [interlocked, if_neg Bool.false_ne_true] at call
        cases call
        exact ⟨stepped random relThreadId curr id, nofun⟩

/-- The thread's data with index `k` is for the target, under an id of the kind. -/
def ThreadParams.ServesUnder (th : ThreadParams) (k : Nat) (target : Target)
    (isId : UInt32 → Prop) : Prop :=
  ∀ tData ∈ th.targets, tData.targetIndex = k → tData.target = target ∧ isId th.relThreadId

/-- An offset the thread uses for the target with index `k` satisfies the predicate. -/
def HoldsAt (holds : Int64 → Prop) (k : Nat) (th : ThreadParams) (t : Nat) (offset : Int64) :
    Prop :=
  ∀ tData, th.targets[t]? = some tData → tData.targetIndex = k → holds offset

section Closed

variable {Op Engine : Type} [IAsyncIop Op] [LawfulIop Op] {dist : UniformInt Engine}
  {target : Target} {isId : UInt32 → Prop} {holds shared : Int64 → Prop} {th : ThreadParams}
  {k : Nat} {interlocked interlocked' : Interlocked} {s s' : ThreadState Op Engine}

omit [IAsyncIop Op] [LawfulIop Op] in
theorem offsetState_shared {tData : TargetData} (index : tData.targetIndex = k)
    (here : shared (interlocked k)) :
    shared (s.offsetState interlocked tData).interlockedOffset := by
  unfold ThreadState.offsetState
  rwa [index]

omit [LawfulIop Op] in
/-- A step keeps the predicate of the shared offset. -/
theorem OffsetsClosed.shared_step (closed : OffsetsClosed dist target isId holds shared)
    (serves : th.ServesUnder k target isId) (here : shared (interlocked k))
    (step : Step dist th interlocked s interlocked' s') : shared (interlocked' k) := by
  rcases step_interlocked step with same | ⟨tData, member, offset, after, call, same⟩
  · rwa [same]
  · rw [same, Interlocked.after]
    by_cases index : tData.targetIndex = k
    · obtain ⟨isTarget, id⟩ := serves tData member index
      have before := offsetState_shared (s := s) index here
      rw [isTarget] at call
      rw [index, Function.update_self]
      rcases call with call | ⟨curr, call⟩
      · exact (closed.start _ _ _ _ id before call).2
      · exact (closed.next _ _ _ _ _ id before call).2
    · rwa [Function.update_of_ne (Ne.symm index)]

/-- A step keeps the predicate of the thread's offsets. -/
theorem OffsetsClosed.offsets_step (closed : OffsetsClosed dist target isId holds shared)
    (serves : th.ServesUnder k target isId) (here : shared (interlocked k))
    (before : OffsetsSatisfy (HoldsAt holds k th) s)
    (step : Step dist th interlocked s interlocked' s') :
    OffsetsSatisfy (HoldsAt holds k th) s' := by
  refine offsetsSatisfy_step before ?_ ?_ step
  · intro t tData found offset after call tData' found' index
    rw [found, Option.some.injEq] at found'
    subst found'
    obtain ⟨isTarget, id⟩ := serves tData (List.mem_of_getElem? found) index
    rw [isTarget] at call
    exact (closed.start _ _ _ _ id (offsetState_shared index here) call).1
  · intro t tData found curr offset after satisfied call tData' found' index
    rw [found, Option.some.injEq] at found'
    subst found'
    obtain ⟨isTarget, id⟩ := serves tData (List.mem_of_getElem? found) index
    rw [isTarget] at call
    exact (closed.next _ _ _ _ _ id (offsetState_shared index here) call).1
      (satisfied tData found index)

/-- **The predicate holds in every state of a job.** -/
theorem OffsetsClosed.reachable (closed : OffsetsClosed dist target isId holds shared)
    {targets : List Target} {params : List ThreadParams}
    (serves : ∀ th ∈ params, th.ServesUnder k target isId)
    (first : shared ((targets[k]?.map (·.interlockedOffset)).getD 0)) {state : JobState Op Engine}
    (reached : Transition.Reachable (jobSystem Op dist targets params) state) :
    shared (state.interlocked k) ∧ ∀ n th, params[n]? = some th →
      OffsetsSatisfy (HoldsAt holds k th) (state.threads n) := by
  refine Transition.Reachable.invariant (H := fun state => shared (state.interlocked k) ∧
    ∀ n th, params[n]? = some th → OffsetsSatisfy (HoldsAt holds k th) (state.threads n))
    reached ?_ ?_
  · intro initial isInit
    refine ⟨by rw [isInit.1 k]; exact first, fun n th isThread => ?_⟩
    obtain ⟨rngEngine, same⟩ := isInit.2 n th isThread
    rw [same]
    exact offsetsSatisfy_initial rngEngine
  · rintro state n next ⟨here, before⟩ ⟨th, interlocked, thread, isThread, step, rfl⟩
    have servesHere := serves th (List.mem_of_getElem? isThread)
    refine ⟨closed.shared_step servesHere here step, fun other th' isOther => ?_⟩
    by_cases same : other = n
    · subst same
      rw [isThread, Option.some.injEq] at isOther
      subst isOther
      simp only [Function.update_self]
      exact closed.offsets_step servesHere here (before other th isThread) step
    · simp only [Function.update_of_ne same]
      exact before other th' isOther

end Closed

end DiskSpd
