/-
**The pattern of a target in default mode.**

* `FollowsPattern` — the offsets issued to a target are an orbit of its stride, and the running offset
  of the initialisation is the next entry of it. A completion keeps that as long as the completed
  operation is the one issued last (`followsPattern_step`).
* `OneOp` — with an overlap of 1 it always is.
* `sequentialPattern_iff` — the offsets that any run issues to the target follow its stride exactly
  when the overlap is 1, or the first step from the base offset returns to it, or no completion is
  ever accepted, since the block size does not fit the type of `get_ret`. With two operations
  outside these cases, one completion repeats a block: each goes on from its own offset.
-/

import DiskSpd.Lib.Orbit
import DiskSpd.Proof.Offsets
import DiskSpd.Proof.Startup
import DiskSpd.Proof.ThreadOffsets
import DiskSpd.Proof.Threads

namespace DiskSpd

open IAsyncIop MachineWord Orbit Transition

section Pattern

variable {Op Engine : Type} [IAsyncIop Op]

/-- The offsets issued to a target of the thread, in the order of issue. -/
def ThreadState.issuedOffsets (s : ThreadState Op Engine) (t : Nat) : List Int64 :=
  (s.issued.filter (·.target = t)).map (·.offset)

omit [IAsyncIop Op] in
theorem issuedOffsets_same {s s' : ThreadState Op Engine} {t : Nat} {issue : Issue}
    (issued : s'.issued = s.issued ++ [issue]) (target : issue.target = t) :
    s'.issuedOffsets t = s.issuedOffsets t ++ [issue.offset] := by
  unfold ThreadState.issuedOffsets
  rw [issued, List.filter_append, List.map_append, List.filter_singleton, target,
    decide_eq_true rfl]
  rfl

omit [IAsyncIop Op] in
theorem issuedOffsets_other {s s' : ThreadState Op Engine} {t : Nat} {issue : Issue}
    (issued : s'.issued = s.issued ++ [issue]) (target : issue.target ≠ t) :
    s'.issuedOffsets t = s.issuedOffsets t := by
  unfold ThreadState.issuedOffsets
  rw [issued, List.filter_append, List.map_append, List.filter_singleton,
    decide_eq_false target]
  exact List.append_nil _

omit [IAsyncIop Op] in
theorem issuedOffsets_congr {s s' : ThreadState Op Engine} (issued : s'.issued = s.issued)
    (t : Nat) : s'.issuedOffsets t = s.issuedOffsets t := by
  unfold ThreadState.issuedOffsets
  rw [issued]

/-- The issue of a constructed operation. -/
theorem ThreadState.construct_issued (s : ThreadState Op Engine) (th : ThreadParams)
    (tData : TargetData) (t : Nat) (i : UInt32) (offset : Int64) (percentage : UInt32)
    (now uninit : UInt64) :
    (s.construct th tData t i offset percentage now uninit).issued = s.issued ++
      [{ op := s.ops.length, target := t, offset := offset, time := now, first := true }] :=
  rfl

/-- **The issued offsets follow a step from a base offset.** -/
structure FollowsPattern (t : Nat) (next : Int64 → Int64) (base : Int64)
    (s : ThreadState Op Engine) : Prop where
  orbit : IsOrbit next base (s.issuedOffsets t)
  issue : ∀ i curr, s.phase = .issue t i curr → IsOrbit next base (s.issuedOffsets t ++ [curr])
  advance : ∀ i curr, s.phase = .advance t i curr → (s.issuedOffsets t).getLast? = some curr
  before : s.phase.notYet t → s.issuedOffsets t = []

variable {th : ThreadParams} {t : Nat} {next : Int64 → Int64} {base : Int64}
  {s s' : ThreadState Op Engine}

omit [IAsyncIop Op] in
theorem followsPattern_initial (rngEngine : Engine) :
    FollowsPattern t next base (.initial th rngEngine : ThreadState Op Engine) where
  orbit := .nil
  issue _ _ phase := by cases phase
  advance _ _ phase := by cases phase
  before _ := rfl

omit [IAsyncIop Op] in
/-- After the initialisation only the orbit counts. -/
theorem FollowsPattern.of_orbit (orbit : IsOrbit next base (s.issuedOffsets t))
    (phase : s.phase.running = none) (past : ¬ s.phase.notYet t) :
    FollowsPattern t next base s where
  orbit := orbit
  issue _ _ here := by rw [here] at phase; cases phase
  advance _ _ here := by rw [here] at phase; cases phase
  before here := absurd here past

/-- A constructed operation is issued at the offset that was next. -/
theorem FollowsPattern.construct (follows : FollowsPattern t next base s) {m : Nat} {i : UInt32}
    {curr : Int64} (tData : TargetData) (percentage : UInt32) (now uninit : UInt64)
    (phase : s.phase = .issue m i curr) :
    FollowsPattern t next base (s.construct th tData m i curr percentage now uninit) := by
  have grows := s.construct_issued th tData m i curr percentage now uninit
  by_cases here : m = t
  · subst here
    have issued := issuedOffsets_same grows rfl
    refine ⟨?_, fun _ _ same => (by cases same), ?_, fun here => absurd here (lt_irrefl m)⟩
    · rw [issued]
      exact follows.issue i curr phase
    · intro _ _ same
      cases same
      rw [issued]
      exact List.getLast?_concat
  · have issued := issuedOffsets_other grows here
    refine ⟨?_, fun _ _ same => (by cases same), ?_, fun before => ?_⟩
    · rw [issued]
      exact follows.orbit
    · intro _ _ same
      cases same
      exact absurd rfl here
    · rw [issued]
      exact follows.before (by rw [phase]; exact before)

section Step

variable [LawfulIop Op] {dist : UniformInt Engine} {interlocked interlocked' : Interlocked}

/-- **A step keeps the pattern**, when each flight of the target that may complete is the one issued
last. -/
theorem followsPattern_step (linked : Linked th s) (follows : FollowsPattern t next base s)
    (start : ∀ tData, th.targets[t]? = some tData → ∀ offset state,
      tData.target.getStartOffset dist th.relThreadId (s.offsetState interlocked tData) =
        some (offset, state) → offset = base)
    (isNext : ∀ tData, th.targets[t]? = some tData → ∀ curr offset state,
      tData.target.getNextOffset dist th.relThreadId (s.offsetState interlocked tData) curr =
        some (offset, state) → offset = next curr)
    (again : ∀ flight ∈ s.inFlight, flight.target = t → ∀ tData, th.targets[t]? = some tData →
      (∃ round : Round, round.ret.toInt64.toUInt64 = tData.target.blockSize) →
      (s.issuedOffsets t).getLast? = some flight.offset)
    (step : Step dist th interlocked s interlocked' s') : FollowsPattern t next base s' := by
  cases step with
  | @startOffset m tData offset state phase found call =>
    refine ⟨follows.orbit, ?_, fun _ _ same => (by cases same), fun here => ?_⟩
    · intro i curr same
      cases same
      have none := follows.before (by rw [phase]; exact le_rfl)
      show IsOrbit next base (s.issuedOffsets t ++ [offset])
      rw [none, start tData found offset state call]
      exact .singleton
    · exact follows.before (by rw [phase]; exact Nat.le_of_lt here)
  | targetsDone => exact .of_orbit follows.orbit rfl id
  | @construct m i curr tData percentage now uninit phase =>
    exact follows.construct tData percentage now uninit phase
  | overlapDone phase =>
    refine ⟨follows.orbit, fun _ _ same => (by cases same), fun _ _ same => (by cases same),
      fun here => ?_⟩
    exact follows.before (by rw [phase]; exact here)
  | @advance m i curr offset tData state phase found call =>
    refine ⟨follows.orbit, ?_, fun _ _ same => (by cases same), fun here => ?_⟩
    · intro _ _ same
      cases same
      show IsOrbit next base (s.issuedOffsets t ++ [offset])
      rw [isNext tData found curr offset state call]
      exact follows.orbit.append_next (follows.advance i curr phase)
    · exact follows.before (by rw [phase]; exact here)
  | submit =>
    refine .of_orbit ?_ (afterSubmit_running _ _) (afterSubmit_not_notYet _ _ _)
    rw [issuedOffsets_congr (ThreadState.afterSubmit_issued _ _)]
    exact follows.orbit
  | leave => exact .of_orbit follows.orbit rfl id
  | throttle => exact follows
  | waitLast => exact .of_orbit follows.orbit rfl id
  | fail => exact .of_orbit follows.orbit rfl id
  | @complete recorded round _ _ flight op tData offset state _ _ inFlight hasOp found _ size _ _
      done call =>
    obtain ⟨bytes, results, records, rfl⟩ := ThreadState.record_frame done
    obtain ⟨target, isOffset⟩ := linked.flight_op inFlight hasOp
    refine .of_orbit ?_ (afterSubmit_running _ _) (afterSubmit_not_notYet _ _ _)
    rw [issuedOffsets_congr (ThreadState.afterSubmit_issued _ _)]
    by_cases here : getTargetData op = t
    · rw [issuedOffsets_same (s := s) rfl here]
      rw [here] at found
      show IsOrbit next base (s.issuedOffsets t ++ [offset])
      rw [isNext tData found _ offset state call, isOffset]
      refine follows.orbit.append_next (again flight ?_ (target ▸ here) tData found ⟨round, size⟩)
      rw [inFlight]
      exact List.mem_append_cons_self
    · rw [issuedOffsets_other (s := s) rfl here]
      exact follows.orbit

/-! ### One operation -/

/-- The first operation of the target is not constructed yet. -/
def Phase.beforeFirst (t : Nat) (phase : Phase) : Prop :=
  phase.notYet t ∨ ∃ curr, phase = .issue t 0 curr

theorem not_beforeFirst {phase : Phase} (work : phase = .work) : ¬ phase.beforeFirst t := by
  rw [work]
  rintro (before | ⟨_, same⟩)
  · exact before
  · cases same

/-- At most one operation of the target is queued or in flight, and it is the one issued last. -/
structure OneOp (t : Nat) (s : ThreadState Op Engine) : Prop where
  last : ∀ issue ∈ s.pending, issue.target = t →
    (s.issuedOffsets t).getLast? = some issue.offset
  one : s.pending.countP (·.target = t) ≤ 1
  fresh : s.phase.beforeFirst t → s.pending.countP (·.target = t) = 0
  slot : ∀ i curr, s.phase = .advance t i curr → i = 0

omit [IAsyncIop Op] [LawfulIop Op] in
theorem oneOp_initial (rngEngine : Engine) :
    OneOp t (.initial th rngEngine : ThreadState Op Engine) where
  last _ member := by cases member
  one := Nat.zero_le _
  fresh _ := rfl
  slot _ _ phase := by cases phase

omit [IAsyncIop Op] [LawfulIop Op] in
/-- A step that leaves what is pending and issued, and does not go back before the first
operation. -/
theorem OneOp.of_perm (one : OneOp t s) (pending : s'.pending.Perm s.pending)
    (issued : s'.issued = s.issued) (fresh : s'.phase.beforeFirst t → s.phase.beforeFirst t)
    (slot : ∀ i curr, s'.phase = .advance t i curr → i = 0) : OneOp t s' where
  last issue member target := by
    rw [issuedOffsets_congr issued]
    exact one.last issue (pending.mem_iff.mp member) target
  one := by
    rw [pending.countP_eq]
    exact one.one
  fresh here := by
    rw [pending.countP_eq]
    exact one.fresh (fresh here)
  slot := slot

omit [IAsyncIop Op] [LawfulIop Op] in
/-- A step that leaves the initialisation. -/
theorem OneOp.of_past (one : OneOp t s) (pending : s'.pending.Perm s.pending)
    (issued : s'.issued = s.issued) (running : s'.phase.running = none)
    (past : ¬ s'.phase.notYet t) : OneOp t s' := by
  refine one.of_perm pending issued ?_ ?_
  · rintro (before | ⟨curr, same⟩)
    · exact absurd before past
    · rw [same] at running
      cases running
  · intro i curr same
    rw [same] at running
    cases running

omit [IAsyncIop Op] [LawfulIop Op] in
/-- A completed flight is not pending any more; no other one of its target is. -/
theorem OneOp.wait (one : OneOp t s) (phase : s.phase = .work) {before after : List Flight}
    {flight : Flight} (inFlight : s.inFlight = before ++ flight :: after) :
    OneOp t { s with inFlight := before ++ after } ∧ (flight.target = t →
      ({ s with inFlight := before ++ after } : ThreadState Op Engine).pending.countP
        (·.target = t) = 0) := by
  have pending := ThreadState.pending_of_inFlight inFlight
  have count := one.one
  rw [pending.countP_eq, List.countP_cons] at count
  refine ⟨⟨fun issue member target => ?_, by omega, ?_, fun i curr same => ?_⟩, fun here => ?_⟩
  · exact one.last issue (pending.mem_iff.mpr (List.mem_cons_of_mem _ member)) target
  · exact fun here => absurd here (not_beforeFirst phase)
  · rw [phase] at same
    cases same
  · rw [if_pos (decide_eq_true here)] at count
    omega

omit [IAsyncIop Op] [LawfulIop Op] in
/-- Another issue joins the pending ones. -/
theorem OneOp.add (one : OneOp t s) {issue : Issue}
    (pending : s'.pending.Perm (issue :: s.pending)) (issued : s'.issued = s.issued ++ [issue])
    (none : issue.target = t → s.pending.countP (·.target = t) = 0)
    (fresh : s'.phase.beforeFirst t → issue.target ≠ t ∧ s.phase.beforeFirst t)
    (slot : ∀ i curr, s'.phase = .advance t i curr → i = 0) : OneOp t s' := by
  refine ⟨fun other member target => ?_, ?_, fun here => ?_, slot⟩
  · by_cases here : issue.target = t
    · rw [issuedOffsets_same issued here]
      rcases List.mem_cons.mp (pending.mem_iff.mp member) with rfl | member
      · exact List.getLast?_concat
      · have := List.countP_eq_zero.mp (none here) other member
        exact absurd target (by simpa using this)
    · rw [issuedOffsets_other issued here]
      rcases List.mem_cons.mp (pending.mem_iff.mp member) with rfl | member
      · exact absurd target here
      · exact one.last other member target
  · rw [pending.countP_eq, List.countP_cons]
    by_cases here : issue.target = t
    · rw [none here, if_pos (decide_eq_true here)]
    · rw [if_neg (by simpa using here)]
      exact one.one
  · obtain ⟨other, before⟩ := fresh here
    rw [pending.countP_eq, List.countP_cons, one.fresh before, if_neg (by simpa using other)]

omit [LawfulIop Op] in
/-- The operation of a target is constructed in the first slot. -/
theorem OneOp.construct (one : OneOp t s) {m : Nat} {i : UInt32} {curr : Int64} (tData : TargetData)
    (percentage : UInt32) (now uninit : UInt64) (phase : s.phase = .issue m i curr)
    (first : m = t → i = 0) : OneOp t (s.construct th tData m i curr percentage now uninit) := by
  refine one.add (s.construct_pending th tData m i curr percentage now uninit)
    (s.construct_issued th tData m i curr percentage now uninit) ?_ ?_ ?_
  · intro here
    refine one.fresh (Or.inr ⟨curr, ?_⟩)
    rw [phase, first here]
    exact congrArg (Phase.issue · 0 curr) here
  · rintro (before | ⟨_, same⟩)
    · exact ⟨Nat.ne_of_lt before, by rw [phase]; exact Or.inl before⟩
    · cases same
  · intro _ _ same
    cases same
    exact first rfl

omit [LawfulIop Op] in
/-- The operation of a target is issued again. -/
theorem OneOp.reissue (one : OneOp t s) (phase : s.phase = .work) (flight : Flight) (op : Op)
    (tData : TargetData) (offset : Int64) (round : Round)
    (none : getTargetData op = t → s.pending.countP (·.target = t) = 0) :
    OneOp t (s.reissue flight op tData offset round) := by
  refine one.add (ThreadState.reissue_pending _ flight op tData offset round) rfl none ?_ ?_
  · exact fun here => absurd (show s.phase.beforeFirst t from here) (not_beforeFirst phase)
  · intro i curr same
    have same : s.phase = .advance t i curr := same
    rw [phase] at same
    cases same

/-- **With an overlap of 1 the target has one operation.** -/
theorem oneOp_step (linked : Linked th s) (one : OneOp t s)
    (overlap : ∀ tData, th.targets[t]? = some tData → tData.target.overlap = 1)
    (step : Step dist th interlocked s interlocked' s') : OneOp t s' := by
  cases step with
  | startOffset phase =>
    refine one.of_perm (List.Perm.refl _) rfl ?_ (fun _ _ same => (by cases same))
    intro here
    rw [phase]
    rcases here with before | ⟨_, same⟩
    · exact Or.inl (Nat.le_of_lt before)
    · cases same
      exact Or.inl le_rfl
  | targetsDone => exact one.of_past (List.Perm.refl _) rfl rfl id
  | @construct m i curr tData percentage now uninit phase found below =>
    refine one.construct tData percentage now uninit phase ?_
    rintro rfl
    rw [overlap tData found, UInt32.lt_iff_toNat_lt] at below
    exact UInt32.toNat_inj.mp (Nat.lt_one_iff.mp below)
  | overlapDone phase =>
    refine one.of_perm (List.Perm.refl _) rfl ?_ (fun _ _ same => (by cases same))
    rintro (before | ⟨_, same⟩)
    · rw [phase]
      exact Or.inl before
    · cases same
  | @advance m i curr offset tData state phase =>
    refine one.of_perm (List.Perm.refl _) rfl ?_ (fun _ _ same => (by cases same))
    rintro (before | ⟨_, same⟩)
    · rw [phase]
      exact Or.inl before
    · rw [Phase.issue.injEq] at same
      obtain ⟨rfl, wraps, _⟩ := same
      rw [one.slot i curr phase] at wraps
      cases wraps
  | submit =>
    exact one.of_past (linked.afterSubmit_pending _) (ThreadState.afterSubmit_issued _ _)
      (afterSubmit_running _ _) (afterSubmit_not_notYet _ _ _)
  | leave => exact one.of_past (List.Perm.refl _) rfl rfl id
  | throttle => exact one
  | waitLast phase _ inFlight =>
    exact (one.wait phase inFlight).1.of_past (List.Perm.refl _) rfl rfl id
  | fail phase _ inFlight => exact (one.wait phase inFlight).1.of_past (List.Perm.refl _) rfl rfl id
  | @complete recorded round before after flight op tData offset state phase _ inFlight hasOp found
      _ _ low high done =>
    have linked' : Linked th (ThreadState.reissue _ flight op tData offset round) :=
      linked.complete inFlight hasOp found low high done state.rngEngine
    obtain ⟨bytes, results, records, rfl⟩ := ThreadState.record_frame done
    obtain ⟨one, none⟩ := one.wait phase inFlight
    have target := (linked.flight_op inFlight hasOp).1
    have kept : OneOp t
        { s with
          inFlight := before ++ after
          threadBytesCount := bytes
          results := results
          recorded := records
          rngEngine := state.rngEngine } :=
      one.of_perm (List.Perm.refl _) rfl id one.slot
    have added := kept.reissue phase flight op tData offset round
      fun here => none (target.symm.trans here)
    exact added.of_past (linked'.afterSubmit_pending _) (ThreadState.afterSubmit_issued _ _)
      (afterSubmit_running _ _) (afterSubmit_not_notYet _ _ _)

end Step

end Pattern

/-! ### All runs of a job -/

/-- **The pattern of a target**: in every run, what the thread issues to it follows a step from a base
offset. -/
def IssuesInSequence (job : JobOptions) (params : List ThreadParams) (n t : Nat)
    (next : Int64 → Int64) (base : Int64) : Prop :=
  ∀ (Engine : Type) (dist : UniformInt Engine) (state : JobState job.ioManager.Op Engine),
    Reachable (job.system dist params) state →
    IsOrbit next base ((state.threads n).issuedOffsets t)

section Run

variable {calls : List (Key × Option CString)} {stat : CString → Stat} {job : JobOptions}
  {opened : UInt32 → Nat → JobOptions.Opened} {params : List ThreadParams} {n t : Nat}
  {th : ThreadParams} {tData : TargetData}

/-- **An overlap of 1, or no completion.** -/
theorem issuesInSequence_of_again (isThread : params[n]? = some th)
    (found : th.targets[t]? = some tData)
    (sequential : tData.target.useRandomAlignment = false)
    (default : tData.target.useInterlocked = false)
    (quiet : tData.target.overlap = 1 ∨
      ∀ round : Round, round.ret.toInt64.toUInt64 ≠ tData.target.blockSize) :
    IssuesInSequence job params n t (tData.target.nextBlock th.relThreadId)
      (tData.target.getThreadBaseOffset th.relThreadId) := by
  intro Engine dist state reached
  have inv := jobSystem_thread (fun s => Linked th s ∧
      (tData.target.overlap = 1 → OneOp t s) ∧
      FollowsPattern t (tData.target.nextBlock th.relThreadId)
        (tData.target.getThreadBaseOffset th.relThreadId) s) isThread
    (fun rngEngine => ⟨linked_initial rngEngine, fun _ => oneOp_initial rngEngine,
      followsPattern_initial rngEngine⟩) ?_ reached
  · exact inv.2.2.orbit
  · rintro interlocked s interlocked' s' ⟨linked, one, follows⟩ step
    refine ⟨linked_step linked step, fun single => oneOp_step linked (one single) ?_ step,
      followsPattern_step linked follows ?_ ?_ ?_ step⟩
    · intro tData' found'
      rw [found, Option.some.injEq] at found'
      rw [← found', single]
    · intro tData' found' offset next call
      rw [found, Option.some.injEq] at found'
      subst found'
      rw [getStartOffset_default sequential default, Option.some.injEq, Prod.mk.injEq] at call
      exact call.1.symm
    · intro tData' found' curr offset next call
      rw [found, Option.some.injEq] at found'
      subst found'
      rw [getNextOffset_default sequential default, Option.some.injEq, Prod.mk.injEq] at call
      exact call.1.symm
    · rintro flight inFlight target tData' found' ⟨round, size⟩
      rw [found, Option.some.injEq] at found'
      subst found'
      rcases quiet with single | never
      · exact (one single).last flight.toIssue
          (List.mem_append_right _ (List.mem_map_of_mem inFlight)) target
      · exact absurd size (never round)

/-- **A target whose first step returns to the base offset** gets nothing else. -/
theorem issuesInSequence_of_fixed (isThread : params[n]? = some th)
    (found : th.targets[t]? = some tData)
    (sequential : tData.target.useRandomAlignment = false)
    (default : tData.target.useInterlocked = false)
    (fixed : tData.target.nextBlock th.relThreadId
      (tData.target.getThreadBaseOffset th.relThreadId) =
        tData.target.getThreadBaseOffset th.relThreadId) :
    IssuesInSequence job params n t (tData.target.nextBlock th.relThreadId)
      (tData.target.getThreadBaseOffset th.relThreadId) := by
  intro Engine dist state reached
  have inv : OffsetsSatisfy (fun t' offset => t' = t →
      offset = tData.target.getThreadBaseOffset th.relThreadId) (state.threads n) := by
    refine jobSystem_thread (OffsetsSatisfy _) isThread
      (fun rngEngine => offsetsSatisfy_initial rngEngine) ?_ reached
    intro interlocked s interlocked' s' before step
    refine offsetsSatisfy_step before ?_ ?_ step
    · rintro t' tData' found' offset next call rfl
      rw [found, Option.some.injEq] at found'
      subst found'
      rw [getStartOffset_default sequential default, Option.some.injEq, Prod.mk.injEq] at call
      exact call.1.symm
    · rintro t' tData' found' curr offset next atBase call rfl
      rw [found, Option.some.injEq] at found'
      subst found'
      rw [getNextOffset_default sequential default, Option.some.injEq, Prod.mk.injEq,
        atBase rfl, fixed] at call
      exact call.1.symm
  refine IsOrbit.of_fixed fixed fun offset member => ?_
  obtain ⟨issue, issued, rfl⟩ := List.mem_map.mp member
  obtain ⟨issued, target⟩ := List.mem_filter.mp issued
  exact inv.issued issue issued (of_decide_eq_true target)

/-- The first step returns to the base offset when the second block would pass the maximal size. -/
theorem nextBlock_eq_base_iff {target : Target} {relThreadId : UInt32} :
    target.nextBlock relThreadId (target.getThreadBaseOffset relThreadId) =
        target.getThreadBaseOffset relThreadId ↔
      target.stride = 0 ∨
        target.overflows (target.getThreadBaseOffset relThreadId + target.stride) = true := by
  unfold Target.nextBlock Target.correctOverflow
  split_ifs with past
  · exact ⟨fun _ => Or.inr past, fun _ => rfl⟩
  · rw [Int64.add_eq_left]
    exact ⟨Or.inl, fun either => either.elim id fun yes => absurd yes past⟩

/-- A step goes back to the base offset or adds the stride. -/
theorem nextBlock_cases (target : Target) (relThreadId : UInt32) (offset : Int64) :
    target.nextBlock relThreadId offset = target.getThreadBaseOffset relThreadId ∨
      target.nextBlock relThreadId offset = offset + target.stride := by
  unfold Target.nextBlock Target.correctOverflow
  split_ifs
  · exact Or.inl rfl
  · exact Or.inr rfl

/-- **What the completion of any of the first operations shows**: its next offset is issued after all
the initial ones. -/
theorem next_of_issuesInSequence (isThread : params[n]? = some th)
    (found : th.targets[t]? = some tData)
    (all : ∀ tData ∈ th.targets, tData.target.useRandomAlignment = false)
    (default : tData.target.useInterlocked = false)
    (small : tData.target.blockSize.toNat < 2 ^ 31)
    (inSequence : IssuesInSequence job params n t (tData.target.nextBlock th.relThreadId)
      (tData.target.getThreadBaseOffset th.relThreadId)) {i : Nat}
    (below : i < tData.target.overlap.toNat) :
    (tData.target.nextBlock th.relThreadId)^[i + 1]
        (tData.target.getThreadBaseOffset th.relThreadId) =
      (tData.target.nextBlock th.relThreadId)^[tData.target.overlap.toNat]
        (tData.target.getThreadBaseOffset th.relThreadId) := by
  let dist : UniformInt Unit := fun a _ engine => (a, engine)
  have mode : tData.target.DefaultMode := ⟨all tData (List.mem_of_getElem? found), default⟩
  obtain ⟨state, before, new, after, reached, phase, issued, inFlight, earlier, target, later, count,
    offsets⟩ := reach_work job.ioManager.Op dist
      (fun tData member => .of_sequential (all tData member)) job.targets isThread () found
  have initial : (state.threads n).issuedOffsets t = List.iterate
      (tData.target.nextBlock th.relThreadId)
      (tData.target.getThreadBaseOffset th.relThreadId) tData.target.overlap.toNat := by
    have left : before.filter (·.target = t) = [] :=
      List.filter_eq_nil_iff.mpr fun issue member => by
        simpa using (earlier issue member).ne
    have middle : new.filter (·.target = t) = new :=
      List.filter_eq_self.mpr fun issue member => decide_eq_true (target issue member)
    have right : after.filter (·.target = t) = [] :=
      List.filter_eq_nil_iff.mpr fun issue member => by
        simpa using (later issue member).ne'
    unfold ThreadState.issuedOffsets
    rw [issued, List.filter_append, List.filter_append, left, middle, right, List.nil_append,
      List.append_nil, offsets mode]
  have isNew : i < new.length := count ▸ below
  have atSlot : (new[i]).offset = (tData.target.nextBlock th.relThreadId)^[i]
      (tData.target.getThreadBaseOffset th.relThreadId) := by
    have same := congrArg (·[i]?) (offsets mode)
    simp only [List.getElem?_map, List.getElem?_eq_getElem isNew, Option.map_some,
      List.getElem?_iterate _ _ _ _ below, Option.some.injEq] at same
    exact same
  obtain ⟨flight, isFlight, same⟩ : ∃ flight ∈ (state.threads n).inFlight,
      flight.toIssue = new[i] := by
    refine List.mem_map.mp ?_
    rw [inFlight]
    exact List.mem_append_left _ (List.mem_append_right _ (List.getElem_mem isNew))
  have isTarget : flight.target = t := by
    rw [same]
    exact target _ (List.getElem_mem isNew)
  obtain ⟨shared, s, issue, step, _, grows, isIssue, offset⟩ := run_complete dist state.interlocked
    (linked_reachable reached isThread) phase isFlight (by rw [isTarget]; exact found)
    (.of_sequential mode.1) small
  have orbit := inSequence Unit dist _ (reached.step (jobSystem_step isThread step))
  simp only [Function.update_self] at orbit
  rw [issuedOffsets_same grows (isIssue.trans isTarget), initial, offset mode] at orbit
  have last := orbit.getElem?_eq (i := tData.target.overlap.toNat) (by
    rw [List.getElem?_append_right (by rw [List.length_iterate]), List.length_iterate,
      Nat.sub_self]
    rfl)
  rw [Function.iterate_succ_apply', ← atSlot, ← same]
  exact last

/-- **Two operations out of step.** Whichever of the first two completes first has to be issued at
the same next offset, so the step from the base offset returns to it. -/
theorem fixed_of_issuesInSequence (isThread : params[n]? = some th)
    (found : th.targets[t]? = some tData)
    (all : ∀ tData ∈ th.targets, tData.target.useRandomAlignment = false)
    (default : tData.target.useInterlocked = false)
    (several : 1 < tData.target.overlap.toNat) (small : tData.target.blockSize.toNat < 2 ^ 31)
    (inSequence : IssuesInSequence job params n t (tData.target.nextBlock th.relThreadId)
      (tData.target.getThreadBaseOffset th.relThreadId)) :
    tData.target.nextBlock th.relThreadId (tData.target.getThreadBaseOffset th.relThreadId) =
      tData.target.getThreadBaseOffset th.relThreadId := by
  have first := next_of_issuesInSequence isThread found all default small inSequence
    (i := 0) (by omega)
  have second := next_of_issuesInSequence isThread found all default small inSequence several
  rw [← first, Function.iterate_succ_apply', Function.iterate_succ_apply',
    Function.iterate_zero_apply] at second
  rcases nextBlock_cases tData.target th.relThreadId
    (tData.target.getThreadBaseOffset th.relThreadId) with back | strided
  · exact back
  · rcases nextBlock_cases tData.target th.relThreadId (tData.target.nextBlock th.relThreadId
      (tData.target.getThreadBaseOffset th.relThreadId)) with back | again
    · rw [← second]
      exact back
    · rw [second] at again
      have zero := Int64.add_eq_left.mp again.symm
      rw [strided, zero, Int64.add_zero]

/-- The step from an offset in the region, over the integers. -/
theorem nextBlock_toInt {target : Target} (accepted : target.Accepted) {relThreadId : UInt32}
    {offset : Int64} (inside : target.InRegion offset) :
    (target.nextBlock relThreadId offset).toInt =
      if offset.toInt + target.stride.toInt + target.blockSize.toNat ≤ target.maxSize.toInt then
        offset.toInt + target.stride.toInt
      else (target.getThreadBaseOffset relThreadId).toInt := by
  have test := Target.overflows_add_stride accepted inside
  unfold Target.nextBlock Target.correctOverflow
  by_cases fits : offset.toInt + target.stride.toInt + target.blockSize.toNat ≤
      target.maxSize.toInt
  · rw [if_pos fits, if_neg (by rw [test]; omega)]
    exact Target.toInt_add_stride accepted inside fits
  · rw [if_neg fits, if_pos (test.mpr (by omega))]

/-- **The offsets issued to a target in default mode follow its stride exactly when** the overlap is
1, or the second block would already pass the maximal size, or no completion is accepted. The next block
is one stride on, or the base offset of the thread when it would pass the maximal size. -/
theorem sequentialPattern_iff (ok : parseCommandLine calls stat = .ok job)
    (created : job.createThreads opened = some params) (isThread : params[n]? = some th)
    (found : th.targets[t]? = some tData)
    (sequential : tData.target.useRandomAlignment = false)
    (default : tData.target.useInterlocked = false) :
    (IssuesInSequence job params n t (tData.target.nextBlock th.relThreadId)
        (tData.target.getThreadBaseOffset th.relThreadId) ↔
      tData.target.overlap = 1 ∨ tData.target.stride = 0 ∨
        tData.target.overflows
          (tData.target.getThreadBaseOffset th.relThreadId + tData.target.stride) = true ∨
        2 ^ 31 ≤ tData.target.blockSize.toNat) ∧
      ∀ offset, tData.target.InRegion offset →
        (tData.target.nextBlock th.relThreadId offset).toInt =
          if offset.toInt + tData.target.stride.toInt + tData.target.blockSize.toNat ≤
              tData.target.maxSize.toInt then
            offset.toInt + tData.target.stride.toInt
          else (tData.target.getThreadBaseOffset th.relThreadId).toInt := by
  have serves := createThreads_serves created th (List.mem_of_getElem? isThread)
  have member := List.mem_of_getElem? found
  have accepted := thread_accepted ok serves tData member
  have all := thread_sequential ok (serves tData member).1 sequential serves
  refine ⟨?_, fun offset inside => nextBlock_toInt accepted inside⟩
  constructor
  · intro inSequence
    by_contra none
    simp only [not_or, not_le] at none
    obtain ⟨several, noStride, fits, small⟩ := none
    have overlap := accepted.overlap
    have several : 1 < tData.target.overlap.toNat := by
      have : tData.target.overlap.toNat ≠ 1 := fun one => several (UInt32.toNat_inj.mp one)
      omega
    exact (nextBlock_eq_base_iff.mp (fixed_of_issuesInSequence isThread found all default several
      small inSequence)).elim noStride fits
  · rintro (one | noStride | past | large)
    · exact issuesInSequence_of_again isThread found sequential default (Or.inl one)
    · exact issuesInSequence_of_fixed isThread found sequential default
        (nextBlock_eq_base_iff.mpr (Or.inl noStride))
    · exact issuesInSequence_of_fixed isThread found sequential default
        (nextBlock_eq_base_iff.mpr (Or.inr past))
    · refine issuesInSequence_of_again isThread found sequential default (Or.inr ?_)
      intro round size
      have wide := toNat_toUInt64 round.ret.toInt64
      have low := round.ret.le_toInt
      have high := round.ret.toInt_lt
      have block := accepted.blockSize
      rw [size, Int32.toInt_toInt64] at wide
      omega

end Run

/-! ### Overlaps of two and of one -/

/-- `-oN f` -/
def overlapCalls (overlap : CString) : List (Key × Option CString) :=
  [(.option 'o', some overlap), (.keyArg, some "f".toList)]

/-- The job of `-oN f` on a file of 1 MiB. -/
def overlapJob (overlap : UInt32) : JobOptions where
  totalThreads := 1
  targets := [{ path := "f".toList, size := 1048576, maxSize := 1048576, overlap := overlap }]

/-- With two operations the block at 64 KiB is issued twice. -/
theorem overlapJob_two_not_inSequence :
    parseCommandLine (overlapCalls "2".toList) (fun _ => .file 1048576) = .ok (overlapJob 2) ∧
      ∃ params th tData, (overlapJob 2).createThreads (fun _ _ => ⟨3, 0, 0⟩) = some params ∧
        params[0]? = some th ∧ th.targets[0]? = some tData ∧
        ¬ IssuesInSequence (overlapJob 2) params 0 0 (tData.target.nextBlock th.relThreadId)
          (tData.target.getThreadBaseOffset th.relThreadId) := by
  have created : (overlapJob 2).createThreads (fun _ _ => ⟨3, 0, 0⟩) = some _ := rfl
  refine ⟨rfl, _, _, _, created, rfl, rfl, fun inSequence => ?_⟩
  have fixed := fixed_of_issuesInSequence rfl rfl (by
    intro tData member
    rw [List.mem_singleton.mp member]) rfl (by decide) (by decide) inSequence
  exact absurd fixed (by decide)

/-- With one operation the offsets follow the stride, from the last block back to the first. -/
theorem overlapJob_one_inSequence :
    ∃ params th tData, (overlapJob 1).createThreads (fun _ _ => ⟨3, 0, 0⟩) = some params ∧
      params[0]? = some th ∧ th.targets[0]? = some tData ∧
      IssuesInSequence (overlapJob 1) params 0 0 (tData.target.nextBlock th.relThreadId)
        (tData.target.getThreadBaseOffset th.relThreadId) ∧
      (tData.target.nextBlock th.relThreadId 917504).toInt = 983040 ∧
      (tData.target.nextBlock th.relThreadId 983040).toInt = 0 := by
  have ok : parseCommandLine (overlapCalls "1".toList) (fun _ => .file 1048576) =
      .ok (overlapJob 1) := rfl
  have created : (overlapJob 1).createThreads (fun _ _ => ⟨3, 0, 0⟩) = some _ := rfl
  obtain ⟨follows, next⟩ := sequentialPattern_iff (n := 0) (t := 0) ok created rfl rfl rfl rfl
  exact ⟨_, _, _, created, rfl, rfl, follows.mpr (Or.inl rfl), next 917504 (by decide),
    next 983040 (by decide)⟩

end DiskSpd
