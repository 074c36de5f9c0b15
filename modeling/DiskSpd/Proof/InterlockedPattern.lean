/-
**The pattern that threads share on an interlocked target.**

* `Acquisition`, `ledgerAfter`, `ledgerSystem` — the runs of a job with a ledger: each acquisition of
  the mutex of a target, in order, with the offset it produced and whether that offset was issued.
* `step_acquired` — a step that acquires the mutex advances the shared offset to the offset it gets;
  any other step leaves the shared offset.
* `ledgerInv_reachable` — so the offsets in the ledger form one pattern. But it starts at the second
  block: the first acquisition already advances the shared offset (`first_issue`).
* `sharedPattern_iff` — the offsets issued are the pattern of the target exactly when that has one
  block, or when no thread works on the target.
-/

import DiskSpd.Lib.Orbit
import DiskSpd.Proof.Offsets
import DiskSpd.Proof.Startup
import DiskSpd.Proof.ThreadOffsets
import DiskSpd.Proof.Threads

namespace DiskSpd

open IAsyncIop Orbit Transition

/-! ### The ledger -/

/-- One acquisition of the mutex of a target. -/
structure Acquisition where
  thread : Nat
  offset : Int64
  issued : Bool
  deriving DecidableEq, Repr

/-- The thread's target is the one with the index. -/
def ThreadParams.isAt (th : ThreadParams) (k t : Nat) : Bool :=
  th.targets[t]?.any fun tData => tData.targetIndex = k

section Ledger

variable {Op Engine : Type}

/-- The offset that a step of a thread gets for the target with index `k`. -/
def acquired (th : ThreadParams) (k : Nat) (s s' : ThreadState Op Engine) : Option Int64 :=
  match s.phase, s'.phase with
  | .start t, .issue _ _ offset => if th.isAt k t then some offset else none
  | .advance t _ _, .issue _ _ offset => if th.isAt k t then some offset else none
  | .work, _ =>
    (s'.issued[s.issued.length]?.filter fun issue => th.isAt k issue.target).map (·.offset)
  | _, _ => none

/-- The step issues the offset that the thread got last. -/
def issuesLast (th : ThreadParams) (k : Nat) (s s' : ThreadState Op Engine) : Bool :=
  match s.phase, s'.phase with
  | .issue t _ _, .advance _ _ _ => th.isAt k t
  | _, _ => false

/-- The last acquisition of the thread has led to an operation. -/
def markIssued (n : Nat) : List Acquisition → List Acquisition
  | [] => []
  | first :: rest =>
    if first.thread = n ∧ rest.all (·.thread ≠ n) then { first with issued := true } :: rest
    else first :: markIssued n rest

/-- The ledger after a step. In the work loop an offset is issued in the round that gets it. -/
def ledgerAfter (th : ThreadParams) (k n : Nat) (s s' : ThreadState Op Engine)
    (ledger : List Acquisition) : List Acquisition :=
  match acquired th k s s' with
  | some offset => ledger ++ [{ thread := n, offset := offset, issued := s.phase = .work }]
  | none => if issuesLast th k s s' then markIssued n ledger else ledger

/-- The offsets issued, in the order in which they were got. -/
def issuedInOrder (ledger : List Acquisition) : List Int64 :=
  (ledger.filter (·.issued)).map (·.offset)

/-- Marking an issue changes nothing else of the ledger. -/
theorem markIssued_map {α : Type} (f : Acquisition → α)
    (blind : ∀ entry, f { entry with issued := true } = f entry) (n : Nat)
    (ledger : List Acquisition) : (markIssued n ledger).map f = ledger.map f := by
  induction ledger with
  | nil => rfl
  | cons first rest ih =>
    unfold markIssued
    split_ifs
    · rw [List.map_cons, blind, List.map_cons]
    · rw [List.map_cons, List.map_cons, ih]

/-- The runs of a job's threads with the ledger of one target. -/
def ledgerSystem [IAsyncIop Op] (dist : UniformInt Engine) (targets : List Target)
    (params : List ThreadParams) (k : Nat) :
    System (JobState Op Engine × List Acquisition) Nat where
  init state := (jobSystem Op dist targets params).init state.1 ∧ state.2 = []
  step state n next := ∃ th shared s, params[n]? = some th ∧
    Step dist th state.1.interlocked (state.1.threads n) shared s ∧
    next = (⟨shared, Function.update state.1.threads n s⟩,
      ledgerAfter th k n (state.1.threads n) s state.2)

section Runs

variable [IAsyncIop Op] {dist : UniformInt Engine} {targets : List Target}
  {params : List ThreadParams} {k : Nat}

/-- **Each run of the job has its ledger.** -/
theorem reachable_ledger {state : JobState Op Engine}
    (reached : Reachable (jobSystem Op dist targets params) state) (k : Nat) :
    ∃ ledger, Reachable (ledgerSystem dist targets params k) (state, ledger) := by
  refine Reachable.invariant
    (H := fun state => ∃ ledger, Reachable (ledgerSystem dist targets params k) (state, ledger))
    reached (fun first isInit => ⟨[], .of_init ⟨isInit, rfl⟩⟩) ?_
  rintro state n next ⟨ledger, reached⟩ ⟨th, shared, s, isThread, step, rfl⟩
  exact ⟨_, reached.step ⟨th, shared, s, isThread, step, rfl⟩⟩

theorem ledgerSystem_step {state : JobState Op Engine} {ledger : List Acquisition} {n : Nat}
    {th : ThreadParams} (isThread : params[n]? = some th) {shared : Interlocked}
    {s : ThreadState Op Engine} (step : Step dist th state.interlocked (state.threads n) shared s) :
    (ledgerSystem dist targets params k).step (state, ledger) n
      ({ interlocked := shared, threads := Function.update state.threads n s },
        ledgerAfter th k n (state.threads n) s ledger) :=
  ⟨th, shared, s, isThread, step, rfl⟩

end Runs

end Ledger

/-! ### What a step acquires -/

section Step

variable {Op Engine : Type} [IAsyncIop Op] {dist : UniformInt Engine} {th : ThreadParams}
  {k : Nat} {shared shared' : Interlocked} {s s' : ThreadState Op Engine}

theorem isAt_target {t : Nat} (isAt : th.isAt k t = true) :
    ∃ tData, th.targets[t]? = some tData := by
  unfold ThreadParams.isAt at isAt
  exact Option.isSome_iff_exists.mp (Option.isSome_of_any isAt)

theorem isAt_iff {t : Nat} {tData : TargetData} (found : th.targets[t]? = some tData) :
    th.isAt k t = true ↔ tData.targetIndex = k := by
  unfold ThreadParams.isAt
  rw [found]
  exact decide_eq_true_iff

/-- The step gets an offset for the target with index `k` from one of its offset functions. -/
def Acquires (dist : UniformInt Engine) (th : ThreadParams) (k : Nat) (shared shared' : Interlocked)
    (s s' : ThreadState Op Engine) : Prop :=
  ∃ (t : Nat) (tData : TargetData) (offset : Int64) (state : OffsetState Engine),
    th.targets[t]? = some tData ∧ tData.targetIndex = k ∧ ¬ s'.phase.notYet t ∧
    acquired th k s s' = some offset ∧
    (tData.target.getStartOffset dist th.relThreadId (s.offsetState shared tData) =
        some (offset, state) ∨
      ∃ curr, tData.target.getNextOffset dist th.relThreadId (s.offsetState shared tData) curr =
        some (offset, state)) ∧
    shared' k = state.interlockedOffset

/-- The shared offset of a target after a call of an offset function of that target or another. -/
theorem after_apply (shared : Interlocked) (tData : TargetData) (state : OffsetState Engine) :
    (tData.targetIndex = k → shared.after tData state k = state.interlockedOffset) ∧
      (tData.targetIndex ≠ k → shared.after tData state k = shared k) := by
  unfold Interlocked.after
  refine ⟨fun here => ?_, fun other => ?_⟩
  · rw [here, Function.update_self]
  · rw [Function.update_of_ne (Ne.symm other)]

omit [IAsyncIop Op] in
theorem acquired_start {t t' : Nat} {i : UInt32} {offset : Int64} {rngEngine : Engine}
    (phase : s.phase = .start t) :
    acquired th k s { s with phase := .issue t' i offset, rngEngine := rngEngine } =
      if th.isAt k t then some offset else none := by
  unfold acquired
  rw [phase]

/-- **A step that acquires the mutex of a target sets its shared offset; no other step does.** -/
theorem step_acquired (step : Step dist th shared s shared' s') :
    (acquired th k s s' = none ∧ shared' k = shared k) ∨ Acquires dist th k shared shared' s s' := by
  cases step with
  | @startOffset t tData offset state phase found call =>
    have same : acquired th k s
        { s with phase := .issue t 0 offset, rngEngine := state.rngEngine } =
          if th.isAt k t then some offset else none := acquired_start phase
    by_cases here : tData.targetIndex = k
    · rw [if_pos ((isAt_iff found).mpr here)] at same
      exact Or.inr ⟨t, tData, offset, state, found, here, lt_irrefl t, same, Or.inl call,
        (after_apply shared tData state).1 here⟩
    · rw [if_neg (mt (isAt_iff found).mp here)] at same
      exact Or.inl ⟨same, (after_apply shared tData state).2 here⟩
  | @advance t i curr offset tData state phase found call =>
    have same : acquired th k s
        { s with phase := .issue t (i + 1) offset, rngEngine := state.rngEngine } =
        if th.isAt k t then some offset else none := by
      unfold acquired
      rw [phase]
    by_cases here : tData.targetIndex = k
    · rw [if_pos ((isAt_iff found).mpr here)] at same
      exact Or.inr ⟨t, tData, offset, state, found, here, lt_irrefl t, same, Or.inr ⟨curr, call⟩,
        (after_apply shared tData state).1 here⟩
    · rw [if_neg (mt (isAt_iff found).mp here)] at same
      exact Or.inl ⟨same, (after_apply shared tData state).2 here⟩
  | @complete recorded round before after flight op tData offset state phase _ _ _ found _ _ _ _
      done call =>
    obtain ⟨bytes, results, records, rfl⟩ := ThreadState.record_frame done
    have same : acquired th k s ((ThreadState.reissue
        { s with
          inFlight := before ++ after
          threadBytesCount := bytes
          results := results
          recorded := records
          rngEngine := state.rngEngine } flight op tData offset round).afterSubmit
            round.submitErr) =
        if th.isAt k (getTargetData op) then some offset else none := by
      unfold acquired
      rw [phase]
      dsimp only
      rw [ThreadState.afterSubmit_issued]
      show Option.map _ (Option.filter _ (s.issued ++ [_])[s.issued.length]?) = _
      rw [List.getElem?_concat_length, Option.filter_some]
      split_ifs <;> rfl
    by_cases here : tData.targetIndex = k
    · rw [if_pos ((isAt_iff found).mpr here)] at same
      exact Or.inr ⟨_, tData, offset, state, found, here, afterSubmit_not_notYet _ _ _, same,
        Or.inr ⟨_, call⟩, (after_apply shared tData state).1 here⟩
    · rw [if_neg (mt (isAt_iff found).mp here)] at same
      exact Or.inl ⟨same, (after_apply shared tData state).2 here⟩
  | targetsDone phase => exact Or.inl ⟨by simp [acquired, phase], rfl⟩
  | construct phase => exact Or.inl ⟨by simp [acquired, phase], rfl⟩
  | overlapDone phase => exact Or.inl ⟨by simp [acquired, phase], rfl⟩
  | submit phase => exact Or.inl ⟨by simp [acquired, phase], rfl⟩
  | leave phase => exact Or.inl ⟨by simp [acquired, phase], rfl⟩
  | throttle phase => exact Or.inl ⟨by simp [acquired, phase], rfl⟩
  | waitLast phase => exact Or.inl ⟨by simp [acquired, phase], rfl⟩
  | fail phase => exact Or.inl ⟨by simp [acquired, phase], rfl⟩

end Step

/-! ### The pattern -/

/-- The next block of the pattern of a target: one stride on, or the base offset when the operation
would pass the maximal size. -/
def Target.patternNext (target : Target) (offset : Int64) : Int64 :=
  if offset.toInt + target.stride.toInt + target.blockSize.toNat ≤ target.maxSize.toInt then
    offset + target.stride
  else target.baseOffset

/-- **The pattern of an interlocked target**: it starts at the base offset, each next offset is the
next block, and no block comes twice before the base offset comes again. -/
structure SharedPattern (target : Target) (offsets : List Int64) : Prop where
  follows : IsOrbit target.patternNext target.baseOffset offsets
  once : ∀ (i j : Nat) (offset : Int64), i < j → offsets[i]? = some offset →
    offsets[j]? = some offset → ∃ m, i < m ∧ m ≤ j ∧ offsets[m]? = some target.baseOffset

section Pattern

variable {target : Target}

/-- The base offset is the next block after itself when there is no second block. -/
theorem patternNext_base_iff : target.patternNext target.baseOffset = target.baseOffset ↔
    target.stride = 0 ∨ target.maxSize.toInt <
      target.baseOffset.toInt + target.stride.toInt + target.blockSize.toNat := by
  unfold Target.patternNext
  split_ifs with fits
  · rw [Int64.add_eq_left]
    exact ⟨Or.inl, fun either => either.elim id fun past => absurd past (not_lt.mpr fits)⟩
  · exact ⟨fun _ => Or.inr (not_le.mp fits), fun _ => rfl⟩

/-- A list of base offsets is the pattern when there is no second block. -/
theorem sharedPattern_of_fixed (fixed : target.patternNext target.baseOffset = target.baseOffset)
    {offsets : List Int64} (same : ∀ offset ∈ offsets, offset = target.baseOffset) :
    SharedPattern target offsets where
  follows := .of_fixed fixed same
  once i j offset before _ found := by
    rw [same offset (List.mem_of_getElem? found)] at found
    exact ⟨j, before, le_rfl, found⟩

/-- What the calls of an interlocked target rely on, as `parse_options` sets it up. -/
structure Target.Shared (target : Target) : Prop where
  sequential : target.useRandomAlignment = false
  interlocked : target.useInterlocked = true
  threadOffset : target.threadOffset = 0
  start : target.interlockedOffset = target.baseOffset
  baseOffset : 0 ≤ target.baseOffset.toInt
  stride : 0 ≤ target.stride.toInt
  fits : target.baseOffset.toInt + target.blockSize.toNat ≤ target.maxSize.toInt

theorem Target.Accepted.shared (accepted : target.Accepted)
    (interlocked : target.useInterlocked = true) : target.Shared where
  sequential := by
    by_contra random
    have exclusive := accepted.exclusive (eq_true_of_ne_false random)
    rw [interlocked] at exclusive
    cases exclusive
  interlocked := interlocked
  threadOffset := accepted.interlocked interlocked
  start := accepted.interlockedOffset interlocked
  baseOffset := accepted.baseOffset
  stride := accepted.stride
  fits := accepted.fits

namespace Target.Shared

theorem threadBase (shared : target.Shared) (relThreadId : UInt32) :
    target.getThreadBaseOffset relThreadId = target.baseOffset := by
  unfold Target.getThreadBaseOffset
  rw [shared.threadOffset, Int64.mul_zero, Int64.add_zero]

theorem baseOffset_inRegion (shared : target.Shared) : target.InRegion target.baseOffset :=
  ⟨le_rfl, shared.fits⟩

end Target.Shared

/-- **The overflow test of the code is the one of the pattern.** -/
theorem correctOverflow_eq_patternNext (shared : target.Shared) {curr : Int64}
    (inside : target.InRegion curr) (relThreadId : UInt32) :
    target.correctOverflow relThreadId (curr + target.stride) = target.patternNext curr := by
  have test := Target.overflows_step (shared.baseOffset.trans inside.1) shared.stride inside.2
  unfold Target.correctOverflow Target.patternNext
  rw [shared.threadBase]
  by_cases fits : curr.toInt + target.stride.toInt + target.blockSize.toNat ≤ target.maxSize.toInt
  · rw [if_pos fits, if_neg (by rw [test]; omega)]
  · rw [if_neg fits, if_pos (test.mpr (by omega))]

/-- **What an acquisition gets**: the next block after the shared offset, which it leaves there. -/
theorem interlocked_call {Engine : Type} {dist : UniformInt Engine} (shared : target.Shared)
    {relThreadId : UInt32} {state next : OffsetState Engine} (inside : target.InRegion state.interlockedOffset)
    {offset : Int64}
    (call : target.getStartOffset dist relThreadId state = some (offset, next) ∨
      ∃ curr, target.getNextOffset dist relThreadId state curr = some (offset, next)) :
    offset = target.patternNext state.interlockedOffset ∧ next.interlockedOffset = offset := by
  have any : ∀ curr, target.getNextOffset dist relThreadId state curr =
      some (target.patternNext state.interlockedOffset,
        { state with interlockedOffset := target.patternNext state.interlockedOffset }) := by
    intro curr
    unfold Target.getNextOffset
    rw [shared.sequential, shared.interlocked, if_neg Bool.false_ne_true, if_pos rfl,
      correctOverflow_eq_patternNext shared inside]
  rcases call with call | ⟨curr, call⟩
  · unfold Target.getStartOffset at call
    rw [shared.sequential, shared.interlocked, if_neg Bool.false_ne_true, if_pos rfl, any] at call
    cases call
    exact ⟨rfl, rfl⟩
  · rw [any] at call
    cases call
    exact ⟨rfl, rfl⟩

theorem patternNext_inRegion (shared : target.Shared) {curr : Int64}
    (inside : target.InRegion curr) : target.InRegion (target.patternNext curr) := by
  unfold Target.patternNext
  split_ifs with fits
  · unfold Target.InRegion
    rw [Target.toInt_step (shared.baseOffset.trans inside.1) shared.stride fits]
    exact ⟨inside.1.trans (le_add_of_nonneg_right shared.stride), fits⟩
  · exact shared.baseOffset_inRegion

end Pattern

/-! ### The offsets in the ledger -/

section Invariant

variable {Op Engine : Type} [IAsyncIop Op] {dist : UniformInt Engine} {targets : List Target}
  {params : List ThreadParams} {k : Nat} {target : Target}

/-- The invariant of a job with the ledger of one target. The pattern in the ledger starts one block
after the base offset. -/
structure LedgerInv (target : Target) (k : Nat) (params : List ThreadParams)
    (state : JobState Op Engine × List Acquisition) : Prop where
  inside : target.InRegion (state.1.interlocked k)
  orbit : IsOrbit target.patternNext (target.patternNext target.baseOffset)
    (state.2.map (·.offset))
  last : (state.2.map (·.offset)).getLast?.getD target.baseOffset = state.1.interlocked k
  reached : ∀ n ∈ state.2.map (·.thread), ∃ (th : ThreadParams) (t : Nat),
    params[n]? = some th ∧ th.isAt k t = true ∧ ¬ (state.1.threads n).phase.notYet t

/-- The threads in the ledger stay past the target. -/
theorem LedgerInv.reached_step {state : JobState Op Engine × List Acquisition}
    (before : LedgerInv target k params state) {n : Nat} {th : ThreadParams}
    {shared : Interlocked} {s : ThreadState Op Engine}
    (step : Step dist th state.1.interlocked (state.1.threads n) shared s) :
    ∀ m ∈ state.2.map (·.thread), ∃ (th : ThreadParams) (t : Nat), params[m]? = some th ∧
      th.isAt k t = true ∧ ¬ (Function.update state.1.threads n s m).phase.notYet t := by
  intro m member
  obtain ⟨th', t, isThread, isAt, past⟩ := before.reached m member
  refine ⟨th', t, isThread, isAt, ?_⟩
  by_cases same : m = n
  · subst same
    rw [Function.update_self]
    exact mt (notYet_step step) past
  · rwa [Function.update_of_ne same]

theorem ledgerInv_step (isShared : target.Shared)
    (serves : ∀ th ∈ params, ∀ tData ∈ th.targets, tData.targetIndex = k → tData.target = target)
    {state next : JobState Op Engine × List Acquisition} {n : Nat}
    (before : LedgerInv target k params state)
    (step : (ledgerSystem dist targets params k).step state n next) :
    LedgerInv target k params next := by
  obtain ⟨th, shared, s, isThread, step, rfl⟩ := step
  have stay := before.reached_step step
  rcases step_acquired (k := k) step with ⟨none, same⟩ | acquires
  · have ledger : ∀ {α : Type} (f : Acquisition → α),
        (∀ entry, f { entry with issued := true } = f entry) →
        (ledgerAfter th k n (state.1.threads n) s state.2).map f = state.2.map f := by
      intro α f blind
      unfold ledgerAfter
      rw [none]
      dsimp only
      split_ifs
      · exact markIssued_map f blind n state.2
      · rfl
    refine ⟨?_, ?_, ?_, ?_⟩ <;> dsimp only
    · rw [same]
      exact before.inside
    · rw [ledger _ fun _ => rfl]
      exact before.orbit
    · rw [ledger _ fun _ => rfl, same]
      exact before.last
    · rw [ledger _ fun _ => rfl]
      exact stay
  · obtain ⟨t, tData, offset, after, found, index, past, gets, call, same⟩ := acquires
    rw [serves th (List.mem_of_getElem? isThread) tData (List.mem_of_getElem? found) index] at call
    have here : ((state.1.threads n).offsetState state.1.interlocked tData).interlockedOffset =
        state.1.interlocked k := by
      unfold ThreadState.offsetState
      rw [index]
    obtain ⟨isNext, left⟩ :=
      interlocked_call isShared (by rw [here]; exact before.inside) call
    rw [here] at isNext
    have ledger : ledgerAfter th k n (state.1.threads n) s state.2 = state.2 ++
        [{ thread := n, offset := offset, issued := (state.1.threads n).phase = .work }] := by
      unfold ledgerAfter
      rw [gets]
    rw [ledger]
    refine ⟨?_, ?_, ?_, ?_⟩ <;> dsimp only
    · rw [same, left, isNext]
      exact patternNext_inRegion isShared before.inside
    · rw [List.map_append, List.map_singleton, isNext, ← before.last]
      exact before.orbit.append_after
    · rw [List.map_append, List.map_singleton, List.getLast?_concat, same, left,
        Option.getD_some]
    · intro m member
      rw [List.map_append, List.mem_append] at member
      rcases member with old | new
      · exact stay m old
      · rw [List.map_singleton, List.mem_singleton] at new
        subst new
        refine ⟨th, t, isThread, (isAt_iff found).mpr index, ?_⟩
        rw [Function.update_self]
        exact past

/-- **The ledger of every run holds one pattern**, shared by all threads, from the second block on. -/
theorem ledgerInv_reachable (isShared : target.Shared)
    (serves : ∀ th ∈ params, ∀ tData ∈ th.targets, tData.targetIndex = k → tData.target = target)
    (found : targets[k]? = some target) {state : JobState Op Engine × List Acquisition}
    (reached : Reachable (ledgerSystem dist targets params k) state) :
    LedgerInv target k params state := by
  refine reached.invariant ?_ fun state n next before step =>
    ledgerInv_step isShared serves before step
  rintro ⟨first, ledger⟩ ⟨isInit, rfl⟩
  have start : first.interlocked k = target.baseOffset := by
    rw [isInit.1 k, found, Option.map_some, Option.getD_some, isShared.start]
  refine ⟨?_, .nil, start.symm, fun n member => by cases member⟩
  rw [start]
  exact isShared.baseOffset_inRegion

end Invariant

/-! ### All runs of a job -/

/-- No thread holds an offset of the target that it is going to issue. -/
def Settled {Op Engine : Type} (params : List ThreadParams) (k : Nat)
    (state : JobState Op Engine) : Prop :=
  ∀ (n : Nat) (th : ThreadParams), params[n]? = some th →
    ∀ t i curr, (state.threads n).phase = .issue t i curr →
      ∀ tData, th.targets[t]? = some tData → tData.targetIndex = k → ¬ i < tData.target.overlap

/-- **The shared pattern**: in every run, the offsets issued to the target, in the order of the
acquisitions that produced them, are its pattern. -/
def IssuesSharedPattern (job : JobOptions) (params : List ThreadParams) (k : Nat)
    (target : Target) : Prop :=
  ∀ (Engine : Type) (dist : UniformInt Engine) (state : JobState job.ioManager.Op Engine)
    (ledger : List Acquisition),
    Reachable (ledgerSystem dist job.targets params k) (state, ledger) → Settled params k state →
    SharedPattern target (issuedInOrder ledger)

section Run

variable {calls : List (Key × Option CString)} {stat : CString → Stat} {job : JobOptions}
  {opened : UInt32 → Nat → JobOptions.Opened} {params : List ThreadParams} {k : Nat}
  {target : Target}

/-- The ledger is empty before any thread has reached the target. -/
theorem ledger_empty {Op Engine : Type} {state : JobState Op Engine} {ledger : List Acquisition}
    (inv : LedgerInv target k params (state, ledger))
    (notYet : ∀ (n : Nat) (th : ThreadParams) (t : Nat), params[n]? = some th →
      th.isAt k t = true → (state.threads n).phase.notYet t) : ledger = [] := by
  rw [List.eq_nil_iff_forall_not_mem]
  intro entry member
  obtain ⟨th, t, isThread, isAt, past⟩ := inv.reached _ (List.mem_map_of_mem member)
  exact past (notYet _ th t isThread isAt)

/-- A thread that gets its first offset for the target enters it, not yet issued. -/
theorem ledgerAfter_start {Op Engine : Type} [IAsyncIop Op] {th : ThreadParams} {k n t : Nat}
    {s : ThreadState Op Engine} (phase : s.phase = .start t) (isAt : th.isAt k t = true)
    (offset : Int64) (rngEngine : Engine) (ledger : List Acquisition) :
    ledgerAfter th k n s { s with phase := .issue t 0 offset, rngEngine := rngEngine } ledger =
      ledger ++ [{ thread := n, offset := offset, issued := false }] := by
  unfold ledgerAfter
  rw [acquired_start phase, if_pos isAt, phase]
  rfl

/-- The construction of an operation for the target marks what the thread got last. -/
theorem ledgerAfter_construct {Op Engine : Type} [IAsyncIop Op] {th : ThreadParams} {k n t : Nat}
    {s : ThreadState Op Engine} {i : UInt32} {curr : Int64} (phase : s.phase = .issue t i curr)
    (isAt : th.isAt k t = true) (tData : TargetData) (percentage : UInt32) (now uninit : UInt64)
    (ledger : List Acquisition) :
    ledgerAfter th k n s (s.construct th tData t i curr percentage now uninit) ledger =
      markIssued n ledger := by
  have none : acquired th k s (s.construct th tData t i curr percentage now uninit) = none := by
    unfold acquired
    rw [phase]
  have last : issuesLast th k s (s.construct th tData t i curr percentage now uninit) =
      th.isAt k t := by
    unfold issuesLast
    rw [phase]
    rfl
  unfold ledgerAfter
  rw [none, last, if_pos isAt]

/-- **A run up to the first acquisition**: a thread gets to the target first, and nothing has been
acquired. -/
theorem before_first (Op : Type) [IAsyncIop Op] {targets : List Target}
    (accepted : target.Accepted) (interlocked : target.useInterlocked = true)
    (serves : ∀ th ∈ params, ∀ tData ∈ th.targets, tData.targetIndex = k → tData.target = target)
    (found : targets[k]? = some target) {n : Nat} {th : ThreadParams}
    (isThread : params[n]? = some th)
    (sequential : ∀ tData ∈ th.targets, tData.target.useRandomAlignment = false)
    (has : ∃ t, th.isAt k t = true) {Engine : Type} (dist : UniformInt Engine) (engine : Engine) :
    ∃ (t : Nat) (tData : TargetData) (state : JobState Op Engine),
      th.isAt k t = true ∧ th.targets[t]? = some tData ∧
      Reachable (ledgerSystem dist targets params k) (state, []) ∧
      (state.threads n).phase = .start t ∧
      ∀ m ≠ n, ∀ th', params[m]? = some th' → (state.threads m).phase = .start 0 := by
  classical
  have isAt := Nat.find_spec has
  have minimal := fun t => Nat.find_min' has (m := t)
  generalize Nat.find has = t at isAt minimal
  obtain ⟨tData, isT⟩ := isAt_target isAt
  obtain ⟨state, reached, phase, _, _, _, others⟩ := reach_start Op dist
    (fun tData member => .of_sequential (sequential tData member)) targets isThread
    engine (List.getElem?_eq_some_iff.mp isT).1.le
  obtain ⟨ledger, withLedger⟩ := reachable_ledger reached k
  have inv := ledgerInv_reachable (accepted.shared interlocked) serves found withLedger
  have empty : ledger = [] := by
    refine ledger_empty inv fun m th' t' isThread' isAt' => ?_
    by_cases same : m = n
    · subst same
      rw [isThread, Option.some.injEq] at isThread'
      subst isThread'
      rw [phase]
      exact minimal t' isAt'
    · rw [others m same th' isThread']
      exact Nat.zero_le t'
  subst empty
  exact ⟨t, tData, state, isAt, isT, withLedger, phase, others⟩

/-- **A thread that is the first to reach the target issues the second block first.** The run
initialises the thread's earlier targets and then one operation of the target. -/
theorem first_issue (Op : Type) [IAsyncIop Op] {targets : List Target}
    (accepted : target.Accepted) (interlocked : target.useInterlocked = true)
    (serves : ∀ th ∈ params, ∀ tData ∈ th.targets, tData.targetIndex = k → tData.target = target)
    (found : targets[k]? = some target) {n : Nat} {th : ThreadParams}
    (isThread : params[n]? = some th)
    (sequential : ∀ tData ∈ th.targets, tData.target.useRandomAlignment = false)
    (has : ∃ t, th.isAt k t = true) {Engine : Type} (dist : UniformInt Engine) (engine : Engine) :
    ∃ (state : JobState Op Engine) (ledger : List Acquisition),
      Reachable (ledgerSystem dist targets params k) (state, ledger) ∧ Settled params k state ∧
      issuedInOrder ledger = [target.patternNext target.baseOffset] := by
  obtain ⟨t, tData, state, isAt, isT, withLedger, phase, others⟩ := before_first Op accepted
    interlocked serves found isThread sequential has dist engine
  have index := (isAt_iff isT).mp isAt
  have isTarget := serves th (List.mem_of_getElem? isThread) tData (List.mem_of_getElem? isT) index
  have inv := ledgerInv_reachable (accepted.shared interlocked) serves found withLedger
  obtain ⟨offset, next, call, _⟩ := getStartOffset_some dist
    (.of_sequential (sequential tData (List.mem_of_getElem? isT))) th.relThreadId
    ((state.threads n).offsetState state.interlocked tData)
  let started := { state.threads n with
    phase := .issue t 0 offset
    rngEngine := next.rngEngine }
  let built := started.construct th tData t 0 offset 1 0 0
  have start : Step dist th state.interlocked (state.threads n)
      (state.interlocked.after tData next) started := .startOffset phase isT call
  have construct : Step dist th (state.interlocked.after tData next) started
      (state.interlocked.after tData next) built :=
    .construct rfl isT (by rw [isTarget]; exact accepted.overlap) (by decide) (by decide)
  have atFirst : offset = target.patternNext target.baseOffset := by
    have here : ((state.threads n).offsetState state.interlocked tData).interlockedOffset =
        target.baseOffset := by
      unfold ThreadState.offsetState
      rw [index]
      exact inv.last.symm
    rw [isTarget] at call
    have isNext := (interlocked_call (accepted.shared interlocked)
      (by rw [here]; exact Target.baseOffset_inRegion accepted) (Or.inl call)).1
    rwa [here] at isNext
  have got : ledgerAfter th k n (state.threads n) started [] =
      [{ thread := n, offset := offset, issued := false }] :=
    ledgerAfter_start phase isAt offset next.rngEngine []
  have issued : ledgerAfter th k n started built
      [{ thread := n, offset := offset, issued := false }] =
      [{ thread := n, offset := offset, issued := true }] :=
    (ledgerAfter_construct rfl isAt tData 1 0 0 _).trans (if_pos ⟨rfl, rfl⟩)
  have reached := withLedger.step (ledgerSystem_step (k := k) isThread start)
  rw [got] at reached
  have isStarted : Function.update state.threads n started n = started :=
    Function.update_self n started state.threads
  have reached := reached.step (ledgerSystem_step (k := k) isThread (by
    dsimp only
    rw [isStarted]
    exact construct))
  dsimp only at reached
  rw [isStarted, issued] at reached
  refine ⟨_, _, reached, ?_, by rw [← atFirst]; rfl⟩
  intro m th' isThread' t' i curr issuing
  dsimp only at issuing
  by_cases same : m = n
  · rw [same, Function.update_self] at issuing
    cases issuing
  · rw [Function.update_of_ne same, Function.update_of_ne same, others m same th' isThread']
      at issuing
    cases issuing

theorem targets_of_index (created : job.createThreads opened = some params)
    (found : job.targets[k]? = some target) :
    ∀ th ∈ params, ∀ tData ∈ th.targets, tData.targetIndex = k → tData.target = target :=
  fun th isThread _ member index =>
    (serves_target (createThreads_serves created th isThread) found member index).1

/-- If a thread works on the target, the block it issues first has to be the first one. -/
theorem fixed_of_issuesSharedPattern (ok : parseCommandLine calls stat = .ok job)
    (created : job.createThreads opened = some params) (found : job.targets[k]? = some target)
    (interlocked : target.useInterlocked = true) (some : job.noThreads target ≠ 0)
    (isPattern : IssuesSharedPattern job params k target) :
    target.patternNext target.baseOffset = target.baseOffset := by
  have accepted := parseCommandLine_accepted ok target (List.mem_of_getElem? found)
  have below : (0 : UInt32).toNat < (job.noThreads target).toNat :=
    Nat.pos_of_ne_zero fun none => some (UInt32.toNat_inj.mp none)
  obtain ⟨n, th, t, _, isThread, _, isT, _, index⟩ := createThreads_covers created found below
  have sequential := (accepted.shared interlocked).sequential
  obtain ⟨state, ledger, reached, settled, issued⟩ := first_issue job.ioManager.Op accepted
    interlocked (targets_of_index created found) found isThread (thread_sequential ok found
      sequential (createThreads_serves created th (List.mem_of_getElem? isThread)))
    ⟨t, (isAt_iff isT).mpr index⟩ (fun a _ engine => (a, engine)) ()
  have follows := (isPattern Unit _ state ledger reached settled).follows
  rw [issued] at follows
  exact follows.first _ rfl

/-- **The offsets issued to an interlocked target are its pattern exactly when** no thread works on
it, or it has no second block. -/
theorem sharedPattern_iff (ok : parseCommandLine calls stat = .ok job)
    (created : job.createThreads opened = some params) (found : job.targets[k]? = some target)
    (interlocked : target.useInterlocked = true) :
    IssuesSharedPattern job params k target ↔
      job.noThreads target = 0 ∨ target.stride = 0 ∨ target.maxSize.toInt <
        target.baseOffset.toInt + target.stride.toInt + target.blockSize.toNat := by
  have accepted := parseCommandLine_accepted ok target (List.mem_of_getElem? found)
  rw [← patternNext_base_iff]
  constructor
  · intro isPattern
    rw [or_iff_not_imp_left]
    exact fun some => fixed_of_issuesSharedPattern ok created found interlocked some isPattern
  · intro either Engine dist state ledger reached _
    have inv := ledgerInv_reachable (accepted.shared interlocked) (targets_of_index created found) found
      reached
    have fixed : ledger ≠ [] → target.patternNext target.baseOffset = target.baseOffset := by
      intro some
      refine either.resolve_left fun none => ?_
      obtain ⟨entry, member⟩ := List.exists_mem_of_ne_nil ledger some
      obtain ⟨th, t, isThread, isAt, _⟩ := inv.reached _ (List.mem_map_of_mem member)
      obtain ⟨tData, isT⟩ := isAt_target isAt
      have below := (serves_target (createThreads_serves created th (List.mem_of_getElem? isThread))
        found (List.mem_of_getElem? isT) ((isAt_iff isT).mp isAt)).2
      rw [none] at below
      exact Nat.not_lt_zero _ below
    by_cases empty : ledger = []
    · rw [empty]
      exact ⟨.nil, fun _ _ _ _ here => by cases here⟩
    · refine sharedPattern_of_fixed (fixed empty) fun offset member => ?_
      obtain ⟨entry, isIssued, rfl⟩ := List.mem_map.mp member
      have inLedger : entry.offset ∈ ledger.map (·.offset) :=
        List.mem_map_of_mem (List.mem_of_mem_filter isIssued)
      obtain ⟨i, atPlace⟩ := List.getElem?_of_mem inLedger
      rw [inv.orbit.getElem?_eq atPlace, fixed empty]
      exact Function.iterate_fixed (fixed empty) i

end Run

/-! ### A file of many blocks and one of a single block -/

/-- `-si f` -/
def interlockedCalls : List (Key × Option CString) :=
  [(.option 's', some "i".toList), (.keyArg, some "f".toList)]

/-- The job of `-si f` on a file of a size. -/
def interlockedJob (size : Int64) : JobOptions where
  totalThreads := 1
  targets := [{ path := "f".toList, size := size, maxSize := size, useInterlocked := true }]

/-- On a file of 1 MiB the block at offset 0 is skipped. -/
theorem interlockedJob_not_sharedPattern :
    parseCommandLine interlockedCalls (fun _ => .file 1048576) = .ok (interlockedJob 1048576) ∧
      ∃ params target, (interlockedJob 1048576).createThreads (fun _ _ => ⟨3, 0, 0⟩) = some params ∧
        (interlockedJob 1048576).targets[0]? = some target ∧ target.useInterlocked = true ∧
        ¬ IssuesSharedPattern (interlockedJob 1048576) params 0 target := by
  have ok : parseCommandLine interlockedCalls (fun _ => .file 1048576) =
      .ok (interlockedJob 1048576) := rfl
  have created : (interlockedJob 1048576).createThreads (fun _ _ => ⟨3, 0, 0⟩) = some _ := rfl
  refine ⟨ok, _, _, created, rfl, rfl, fun isPattern => ?_⟩
  have fixed := fixed_of_issuesSharedPattern ok created rfl rfl (by decide) isPattern
  exact absurd fixed (by decide)

/-- A file of one block has that one only. -/
theorem interlockedJob_sharedPattern :
    parseCommandLine interlockedCalls (fun _ => .file 65536) = .ok (interlockedJob 65536) ∧
      ∃ params target, (interlockedJob 65536).createThreads (fun _ _ => ⟨3, 0, 0⟩) = some params ∧
        (interlockedJob 65536).targets[0]? = some target ∧ target.useInterlocked = true ∧
        IssuesSharedPattern (interlockedJob 65536) params 0 target := by
  have ok : parseCommandLine interlockedCalls (fun _ => .file 65536) =
      .ok (interlockedJob 65536) := rfl
  have created : (interlockedJob 65536).createThreads (fun _ _ => ⟨3, 0, 0⟩) = some _ := rfl
  refine ⟨ok, _, _, created, rfl, rfl, ?_⟩
  exact (sharedPattern_iff ok created rfl rfl).mpr (Or.inr (Or.inr (by decide)))

end DiskSpd
