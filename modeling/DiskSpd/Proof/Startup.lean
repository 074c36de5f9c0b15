/-
**A thread gets to work.**

The runs that show a claim to be tight have to be run by the code: these lemmas build them.

* `ThreadRun` — several steps of one thread; `threadRun_run` lifts them to the job.
* `run_overlap`, `run_target`, `run_targets` — the initialisation of one target and of several.
  It issues as many operations as the overlap of the target; to one in default mode at the iterates
  of its stride from the base offset of the thread.
* `run_submit` — the first `submit`.
* `run_complete` — any flight of an accepted target can complete, as long as its block size is one
  that `get_ret` can return.
-/

import DiskSpd.Proof.Flights
import Mathlib.Data.List.Iterate
import Mathlib.Logic.Relation

namespace DiskSpd

open IAsyncIop MachineWord Transition

section Startup

variable {Op Engine : Type} [IAsyncIop Op] {dist : UniformInt Engine} {th : ThreadParams}

/-- Several steps of one thread, and the shared offsets they leave. -/
abbrev ThreadRun (Op : Type) [IAsyncIop Op] (dist : UniformInt Engine) (th : ThreadParams) :
    Interlocked × ThreadState Op Engine → Interlocked × ThreadState Op Engine → Prop :=
  Relation.ReflTransGen fun before after => Step dist th before.1 before.2 after.1 after.2

theorem threadRun_step {shared shared' : Interlocked} {s s' : ThreadState Op Engine}
    (step : Step dist th shared s shared' s') : ThreadRun Op dist th (shared, s) (shared', s') :=
  .single step

/-- **The job runs as one of its threads does.** -/
theorem threadRun_run (targets : List Target) {params : List ThreadParams}
    (state : JobState Op Engine) {n : Nat} (isThread : params[n]? = some th)
    {last : Interlocked × ThreadState Op Engine}
    (run : ThreadRun Op dist th (state.interlocked, state.threads n) last) :
    ∃ labels, Run (jobSystem Op dist targets params) state labels
      { interlocked := last.1, threads := Function.update state.threads n last.2 } := by
  induction run with
  | refl =>
    refine ⟨[], ?_⟩
    rw [Function.update_eq_self]
    exact .refl
  | @tail middle last _ step ih =>
    have taken : (jobSystem Op dist targets params).step
        { interlocked := middle.1, threads := Function.update state.threads n middle.2 } n
        { interlocked := last.1, threads := Function.update state.threads n last.2 } := by
      refine ⟨th, last.1, last.2, isThread, ?_, by rw [Function.update_idem]⟩
      dsimp only
      rw [Function.update_self]
      exact step
    obtain ⟨labels, before⟩ := ih
    exact ⟨labels ++ [n], .snoc before taken⟩

theorem threadRun_reachable {targets : List Target} {params : List ThreadParams}
    {state : JobState Op Engine} (reached : Reachable (jobSystem Op dist targets params) state)
    {n : Nat} (isThread : params[n]? = some th)
    {last : Interlocked × ThreadState Op Engine}
    (run : ThreadRun Op dist th (state.interlocked, state.threads n) last) :
    Reachable (jobSystem Op dist targets params)
      { interlocked := last.1, threads := Function.update state.threads n last.2 } := by
  obtain ⟨_, taken⟩ := threadRun_run targets state isThread run
  exact reached.run taken

/-- What each step of a thread keeps holds after several. -/
theorem threadRun_invariant {holds : ThreadState Op Engine → Prop}
    (keep : ∀ shared s shared' s', holds s → Step dist th shared s shared' s' → holds s')
    {first last : Interlocked × ThreadState Op Engine} (run : ThreadRun Op dist th first last)
    (start : holds first.2) : holds last.2 := by
  induction run with
  | refl => exact start
  | tail _ step ih => exact keep _ _ _ _ ih step

/-- The step of a target in default mode. -/
def Target.nextBlock (target : Target) (relThreadId : UInt32) (offset : Int64) : Int64 :=
  target.correctOverflow relThreadId (offset + target.stride)

/-- The offset functions of the target do not divide by 0. -/
def Target.CanIssue (target : Target) : Prop :=
  target.useRandomAlignment = true → target.stride ≠ 0

/-- Neither random nor interlocked. -/
def Target.DefaultMode (target : Target) : Prop :=
  target.useRandomAlignment = false ∧ target.useInterlocked = false

theorem Target.CanIssue.of_sequential {target : Target}
    (sequential : target.useRandomAlignment = false) : target.CanIssue := fun random => by
  rw [sequential] at random
  cases random

variable (dist) in
theorem getNextOffset_some {target : Target} (can : target.CanIssue) (relThreadId : UInt32)
    (state : OffsetState Engine) (curr : Int64) :
    ∃ offset next, target.getNextOffset dist relThreadId state curr = some (offset, next) ∧
      (target.DefaultMode → offset = target.nextBlock relThreadId curr) := by
  unfold Target.getNextOffset Target.randomOffset Target.DefaultMode
  cases random : target.useRandomAlignment with
  | true =>
    rw [if_pos rfl, if_neg (can random)]
    exact ⟨_, _, rfl, fun no => by cases no.1⟩
  | false =>
    rw [if_neg Bool.false_ne_true]
    cases target.useInterlocked with
    | true => exact ⟨_, _, rfl, fun no => by cases no.2⟩
    | false => exact ⟨_, _, rfl, fun _ => rfl⟩

/-- The offset functions of a target in default mode. -/
theorem getNextOffset_default {target : Target} (sequential : target.useRandomAlignment = false)
    (default : target.useInterlocked = false) (relThreadId : UInt32) (state : OffsetState Engine)
    (curr : Int64) : target.getNextOffset dist relThreadId state curr =
      some (target.nextBlock relThreadId curr, state) := by
  unfold Target.getNextOffset
  rw [sequential, default, if_neg Bool.false_ne_true, if_neg Bool.false_ne_true]
  rfl

theorem getStartOffset_default {target : Target} (sequential : target.useRandomAlignment = false)
    (default : target.useInterlocked = false) (relThreadId : UInt32) (state : OffsetState Engine) :
    target.getStartOffset dist relThreadId state =
      some (target.getThreadBaseOffset relThreadId, state) := by
  unfold Target.getStartOffset
  rw [sequential, default, if_neg Bool.false_ne_true, if_neg Bool.false_ne_true]

variable (dist) in
theorem getStartOffset_some {target : Target} (can : target.CanIssue) (relThreadId : UInt32)
    (state : OffsetState Engine) :
    ∃ offset next, target.getStartOffset dist relThreadId state = some (offset, next) ∧
      (target.DefaultMode → offset = target.getThreadBaseOffset relThreadId) := by
  unfold Target.getStartOffset Target.randomOffset Target.DefaultMode
  cases random : target.useRandomAlignment with
  | true =>
    rw [if_pos rfl, if_neg (can random)]
    exact ⟨_, _, rfl, fun no => by cases no.1⟩
  | false =>
    rw [if_neg Bool.false_ne_true]
    cases interlocked : target.useInterlocked with
    | true =>
      obtain ⟨offset, next, call, _⟩ := getNextOffset_some dist can relThreadId state 0
      exact ⟨offset, next, call, fun no => by cases no.2⟩
    | false => exact ⟨_, _, rfl, fun _ => rfl⟩

/-! ### The initialisation -/

/-- What the initialisation has added to a state. -/
structure Grown (s s' : ThreadState Op Engine) (new : List Issue) : Prop where
  opQueue : s'.opQueue = s.opQueue ++ new
  issued : s'.issued = s.issued ++ new
  inFlight : s'.inFlight = s.inFlight

omit [IAsyncIop Op] in
theorem Grown.trans {s s' s'' : ThreadState Op Engine} {new more : List Issue}
    (first : Grown s s' new) (second : Grown s' s'' more) : Grown s s'' (new ++ more) where
  opQueue := by rw [second.opQueue, first.opQueue, List.append_assoc]
  issued := by rw [second.issued, first.issued, List.append_assoc]
  inFlight := by rw [second.inFlight, first.inFlight]

section Target

variable {t : Nat} {tData : TargetData}

variable (dist) in
/-- The overlap loop from slot `i` on. -/
theorem run_overlap (found : th.targets[t]? = some tData)
    (can : tData.target.CanIssue) :
    ∀ (rest : Nat) (shared : Interlocked) (s : ThreadState Op Engine) (i : UInt32) (curr : Int64),
      s.phase = .issue t i curr → i.toNat + rest = tData.target.overlap.toNat →
      ∃ shared' s' new, ThreadRun Op dist th (shared, s) (shared', s') ∧
        s'.phase = .start (t + 1) ∧ Grown s s' new ∧ (∀ issue ∈ new, issue.target = t) ∧
        new.length = rest ∧ (tData.target.DefaultMode → new.map (·.offset) =
          List.iterate (tData.target.nextBlock th.relThreadId) curr rest)
  | 0, shared, s, i, curr, phase, atEnd => by
    refine ⟨shared, { s with phase := .start (t + 1) }, [], threadRun_step ?_, rfl,
      ⟨(List.append_nil _).symm, (List.append_nil _).symm, rfl⟩, (fun _ member => by cases member),
      rfl, fun _ => rfl⟩
    exact .overlapDone phase found (by rw [UInt32.lt_iff_toNat_lt]; omega)
  | rest + 1, shared, s, i, curr, phase, remaining => by
    have below : i < tData.target.overlap := by
      rw [UInt32.lt_iff_toNat_lt]
      omega
    have bound := tData.target.overlap.toNat_lt
    have one : (1 : UInt32).toNat = 1 := rfl
    let built := s.construct th tData t i curr 1 0 0
    obtain ⟨offset, next, call, isNext⟩ := getNextOffset_some dist can
      th.relThreadId (built.offsetState shared tData) curr
    let advanced := { built with phase := .issue t (i + 1) offset, rngEngine := next.rngEngine }
    have construct : Step dist th shared s shared built :=
      .construct phase found below (by decide) (by decide)
    have advance : Step dist th shared built (shared.after tData next) advanced :=
      .advance rfl found call
    obtain ⟨shared', s', new, run, atStart, grown, target, count, offsets⟩ :=
      run_overlap found can rest (shared.after tData next) advanced (i + 1) offset rfl
        (by rw [UInt32.toNat_add, one]; omega)
    let issue : Issue := { op := s.ops.length, target := t, offset := curr, time := 0, first := true }
    have here : Grown s advanced [issue] := ⟨rfl, rfl, rfl⟩
    refine ⟨shared', s', [issue] ++ new, (threadRun_step construct).trans
      ((threadRun_step advance).trans run), atStart, here.trans grown, ?_, congrArg Nat.succ count,
      ?_⟩
    · intro other member
      rcases List.mem_cons.mp member with rfl | member
      · rfl
      · exact target other member
    · intro default
      show curr :: new.map _ = curr :: _
      rw [offsets default, isNext default]

variable (dist) in
/-- The initialisation of one target. -/
theorem run_target (found : th.targets[t]? = some tData)
    (can : tData.target.CanIssue) (shared : Interlocked)
    (s : ThreadState Op Engine) (phase : s.phase = .start t) :
    ∃ shared' s' new, ThreadRun Op dist th (shared, s) (shared', s') ∧
      s'.phase = .start (t + 1) ∧ Grown s s' new ∧ (∀ issue ∈ new, issue.target = t) ∧
      new.length = tData.target.overlap.toNat ∧ (tData.target.DefaultMode → new.map (·.offset) =
        List.iterate (tData.target.nextBlock th.relThreadId)
          (tData.target.getThreadBaseOffset th.relThreadId) tData.target.overlap.toNat) := by
  obtain ⟨offset, next, call, isStart⟩ := getStartOffset_some dist can
    th.relThreadId (s.offsetState shared tData)
  let started := { s with phase := .issue t 0 offset, rngEngine := next.rngEngine }
  have start : Step dist th shared s (shared.after tData next) started :=
    .startOffset phase found call
  obtain ⟨shared', s', new, run, atStart, grown, target, count, offsets⟩ :=
    run_overlap dist found can tData.target.overlap.toNat
      (shared.after tData next) started 0 offset rfl (Nat.zero_add _)
  refine ⟨shared', s', new, (threadRun_step start).trans run, atStart,
    ⟨grown.opQueue, grown.issued, grown.inFlight⟩, target, count, fun default => ?_⟩
  rw [offsets default, isStart default]

end Target

variable (dist) in
/-- The initialisation of the targets from `m` on, `count` of them. -/
theorem run_targets (can : ∀ tData ∈ th.targets, tData.target.CanIssue)
    {m : Nat} (shared : Interlocked) (s : ThreadState Op Engine) (phase : s.phase = .start m) :
    ∀ count : Nat, m + count ≤ th.targets.length →
      ∃ shared' s' new, ThreadRun Op dist th (shared, s) (shared', s') ∧
        s'.phase = .start (m + count) ∧ Grown s s' new ∧
        ∀ issue ∈ new, m ≤ issue.target ∧ issue.target < m + count
  | 0, _ => ⟨shared, s, [], .refl, phase,
      ⟨(List.append_nil _).symm, (List.append_nil _).symm, rfl⟩, fun _ member => by cases member⟩
  | count + 1, inTargets => by
    obtain ⟨shared', s', new, run, atStart, grown, between⟩ :=
      run_targets can shared s phase count (by omega)
    have found := List.getElem?_eq_getElem (l := th.targets) (i := m + count) (by omega)
    obtain ⟨shared'', s'', more, run', atStart', grown', target, _, _⟩ :=
      run_target dist found (can _ (List.mem_of_getElem? found)) shared' s' atStart
    refine ⟨shared'', s'', new ++ more, run.trans run', atStart', grown.trans grown', ?_⟩
    intro issue member
    rcases List.mem_append.mp member with member | member
    · have := between issue member
      omega
    · have := target issue member
      omega

variable (Op dist) in
/-- The job can start, with any random engine in its threads. -/
theorem exists_initial (targets : List Target) (params : List ThreadParams) (engine : Engine) :
    ∃ first, (jobSystem Op dist targets params).init first ∧
      ∀ n th, params[n]? = some th → first.threads n = .initial th engine := by
  refine ⟨⟨fun k => (targets[k]?.map (·.interlockedOffset)).getD 0,
    fun n => .initial (params.getD n { threadId := 0, targets := [] }) engine⟩, ?_, ?_⟩
  · refine ⟨fun _ => rfl, fun n th isThread => ⟨engine, ?_⟩⟩
    dsimp only
    rw [List.getD_eq_getElem?_getD, isThread, Option.getD_some]
  · intro n th isThread
    dsimp only
    rw [List.getD_eq_getElem?_getD, isThread, Option.getD_some]

variable (Op dist) in
/-- **A thread reaches each of its targets**, with the issues to the targets before it queued. -/
theorem reach_start (can : ∀ tData ∈ th.targets, tData.target.CanIssue)
    (targets : List Target) {params : List ThreadParams} {n : Nat}
    (isThread : params[n]? = some th) (engine : Engine) {t : Nat}
    (inTargets : t ≤ th.targets.length) :
    ∃ state, Reachable (jobSystem Op dist targets params) state ∧
      (state.threads n).phase = .start t ∧
      (state.threads n).opQueue = (state.threads n).issued ∧ (state.threads n).inFlight = [] ∧
      (∀ issue ∈ (state.threads n).issued, issue.target < t) ∧
      ∀ m ≠ n, ∀ th', params[m]? = some th' → (state.threads m).phase = .start 0 := by
  obtain ⟨first, isInit, initial⟩ :=
    exists_initial Op dist targets params engine
  have begins := initial n th isThread
  obtain ⟨shared, s, new, run, atStart, grown, between⟩ := run_targets dist (m := 0)
    can first.interlocked (first.threads n) (by rw [begins]; rfl) t (by omega)
  refine ⟨_, threadRun_reachable (Reachable.of_init isInit) isThread run, ?_⟩
  simp only [Function.update_self]
  rw [grown.opQueue, grown.issued, grown.inFlight, begins]
  refine ⟨by rw [atStart, Nat.zero_add], rfl, rfl, fun issue member => ?_, fun m other th' is => ?_⟩
  · have := between issue (by simpa [ThreadState.initial] using member)
    omega
  · rw [Function.update_of_ne other, initial m th' is]
    rfl

/-- The first `submit`. -/
theorem run_submit (shared : Interlocked) (s : ThreadState Op Engine)
    (phase : s.phase = .start th.targets.length) :
    ThreadRun Op dist th (shared, s) (shared, s.submit) := by
  have done : Step dist th shared s shared { s with phase := .submit } :=
    .targetsDone phase (List.getElem?_eq_none le_rfl)
  have submit : Step dist th shared { s with phase := .submit } shared
      (({ s with phase := .submit } : ThreadState Op Engine).afterSubmit 0) := .submit rfl
  exact (threadRun_step done).trans (threadRun_step submit)

variable (Op dist) in
/-- **A thread reaches its work loop**, with what it issued in the initialisation in flight. -/
theorem reach_work [LawfulIop Op]
    (can : ∀ tData ∈ th.targets, tData.target.CanIssue)
    (targets : List Target) {params : List ThreadParams} {n : Nat}
    (isThread : params[n]? = some th) (engine : Engine) {t : Nat} {tData : TargetData}
    (found : th.targets[t]? = some tData) :
    ∃ state before new after, Reachable (jobSystem Op dist targets params) state ∧
      (state.threads n).phase = .work ∧
      (state.threads n).issued = before ++ new ++ after ∧
      (state.threads n).inFlight.map (·.toIssue) = before ++ new ++ after ∧
      (∀ issue ∈ before, issue.target < t) ∧ (∀ issue ∈ new, issue.target = t) ∧
      (∀ issue ∈ after, t < issue.target) ∧ new.length = tData.target.overlap.toNat ∧
      (tData.target.DefaultMode → new.map (·.offset) =
        List.iterate (tData.target.nextBlock th.relThreadId)
          (tData.target.getThreadBaseOffset th.relThreadId) tData.target.overlap.toNat) := by
  have inTargets := (List.getElem?_eq_some_iff.mp found).1
  obtain ⟨state, reached, phase, queued, none, below, _⟩ :=
    reach_start Op dist can targets isThread engine inTargets.le
  obtain ⟨shared, s, new, run, phase', grown, target, count, offsets⟩ := run_target dist found
    (can _ (List.mem_of_getElem? found)) state.interlocked (state.threads n) phase
  obtain ⟨shared', s', after, run', phase'', grown', above⟩ := run_targets dist can shared s
    phase' (th.targets.length - (t + 1)) (by omega)
  have all := grown.trans grown'
  have submit : ThreadRun Op dist th (shared', s') (shared', s'.submit) :=
    run_submit shared' s' (by rw [phase'']; congr 1; omega)
  have reached' := threadRun_reachable reached isThread (run.trans run')
  have linked := linked_reachable reached' isThread
  simp only [Function.update_self] at linked
  refine ⟨_, (state.threads n).issued, new, after,
    threadRun_reachable reached isThread ((run.trans run').trans submit), ?_⟩
  simp only [Function.update_self]
  refine ⟨rfl, ?_, ?_, below, target, fun issue member => ?_, count, offsets⟩
  · show s'.issued = _
    rw [all.issued, List.append_assoc]
  · show (s'.inFlight ++ s'.flights).map _ = _
    rw [all.inFlight, none, List.nil_append, ThreadState.flights_toIssue linked.hasOp,
      all.opQueue, queued, List.append_assoc]
  · have := above issue member
    omega

/-! ### The work loop -/

/-- The round in which a flight of a block size completes, when no result is recorded. -/
def Round.quiet (blockSize : UInt64) : Round where
  recordAtHead := false
  nowMs := 0
  startTimeMs := 0
  err := 0
  ret := blockSize.toInt64.toInt32
  absTimeUs := 0
  startTimeUs := 0
  record := false
  percentage := 1
  submitErr := 0

/-- `get_ret` can return a block size below 2 GiB. -/
theorem quiet_ret {blockSize : UInt64} (small : blockSize.toNat < 2 ^ 31) :
    (Round.quiet blockSize).ret.toInt64.toUInt64 = blockSize := by
  show blockSize.toInt64.toInt32.toInt64.toUInt64 = blockSize
  have wide := toNat_toUInt64 blockSize.toInt64.toInt32.toInt64
  rw [Int32.toInt_toInt64, toInt_toInt32, toInt_toInt64_of_lt (by omega)] at wide
  exact UInt64.toNat_inj.mp (by omega)

variable [LawfulIop Op]

variable (dist) in
/-- **Any flight can complete** and is issued again. -/
theorem run_complete (shared : Interlocked) {s : ThreadState Op Engine} (linked : Linked th s)
    (phase : s.phase = .work) {flight : Flight} (inFlight : flight ∈ s.inFlight)
    {tData : TargetData} (found : th.targets[flight.target]? = some tData)
    (can : tData.target.CanIssue)
    (small : tData.target.blockSize.toNat < 2 ^ 31) :
    ∃ shared' s' issue, Step dist th shared s shared' s' ∧ s'.phase = .work ∧
      s'.issued = s.issued ++ [issue] ∧ issue.target = flight.target ∧ (tData.target.DefaultMode →
        issue.offset = tData.target.nextBlock th.relThreadId flight.offset) := by
  obtain ⟨before, after, split⟩ := List.append_of_mem inFlight
  obtain ⟨op, hasOp, target, offset, _⟩ := (linked.flight_carries split).1
  rw [← target, ← LawfulIop.getTargetData_eq] at found
  obtain ⟨next, state, call, isNext⟩ := getNextOffset_some dist can
    th.relThreadId (s.offsetState shared tData) (getOffset op)
  let round := Round.quiet tData.target.blockSize
  have low : 1 ≤ round.percentage := show (1 : UInt32) ≤ 1 by decide
  have high : round.percentage ≤ 100 := show (1 : UInt32) ≤ 100 by decide
  have step := Step.complete phase rfl split hasOp found rfl (quiet_ret small) low high rfl call
  refine ⟨_, _, _, step, rfl, ThreadState.afterSubmit_issued _ _, ?_, fun default => ?_⟩
  · exact (LawfulIop.getTargetData_eq op).trans target
  · rw [isNext default, LawfulIop.getOffset_eq, offset]

end Startup

end DiskSpd
