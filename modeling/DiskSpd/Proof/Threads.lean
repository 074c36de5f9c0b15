/-
**The threads a job creates.**

* `Assigned` — the invariant of the loops that assign the targets: each thread serves targets of the
  job under a relative id below their number of threads, and each round so far has given its target
  to a thread.
* `createThreads_serves` — each thread works on targets of the job.
* `createThreads_covers` — each target has a thread for each relative id below its number of
  threads.
* `createThreads_frame` — how many threads there are, and what they measure.
-/

import DiskSpd.Lib.Loop
import DiskSpd.Model.Job
import DiskSpd.Proof.Accepted
import DiskSpd.Proof.ThreadSteps

namespace DiskSpd

variable {job : JobOptions} {opened : UInt32 → Nat → JobOptions.Opened}

/-- The thread has the target of a round, under the id of the round. -/
def ThreadParams.Has (th : ThreadParams) (round : (Target × Nat) × Nat) : Prop :=
  th.relThreadId.toNat = round.2 ∧
    ∃ tData ∈ th.targets, tData.target = round.1.1 ∧ tData.targetIndex = round.1.2

/-- The invariant of the assignment loops. -/
structure Assigned (job : JobOptions) (past : List ((Target × Nat) × Nat))
    (state : List ThreadParams × Nat) : Prop where
  serves : ∀ (n : Nat) (th : ThreadParams), state.1[n]? = some th → th.Serves job
  sameId : job.useTotalThreads = true → ∀ (n : Nat) (th : ThreadParams), state.1[n]? = some th →
    th.targets ≠ [] → th.relThreadId.toNat = n
  fresh : job.useTotalThreads = false → ∀ (n : Nat) (th : ThreadParams), state.1[n]? = some th →
    state.2 ≤ n → th.targets = []
  covered : ∀ round ∈ past, ∃ (n : Nat) (th : ThreadParams), state.1[n]? = some th ∧ th.Has round

theorem assigned_initial (threads : Nat) :
    Assigned job [] ((List.range threads).map job.newThread, 0) := by
  have empty : ∀ (n : Nat) th, ((List.range threads).map job.newThread)[n]? = some th →
      th.targets = [] := by
    intro n th found
    rw [List.getElem?_map, Option.map_eq_some_iff] at found
    obtain ⟨id, _, rfl⟩ := found
    rfl
  refine ⟨fun n th found tData member => ?_, fun _ n th found some => ?_,
    fun _ n th found _ => empty n th found, fun round member => ?_⟩
  · rw [empty n th found] at member
    cases member
  · exact absurd (empty n th found) some
  · cases member

theorem mem_rounds {round : (Target × Nat) × Nat} :
    round ∈ job.rounds ↔ job.targets[round.1.2]? = some round.1.1 ∧
      round.2 < (job.noThreads round.1.1).toNat := by
  obtain ⟨⟨target, k⟩, innerIndex⟩ := round
  simp only [JobOptions.rounds, List.mem_flatMap, List.mem_map, List.mem_range,
    Prod.mk.injEq, Prod.exists, List.mem_zipIdx_iff_getElem?]
  constructor
  · rintro ⟨target', k', found, inner', below, ⟨rfl, rfl⟩, rfl⟩
    exact ⟨found, below⟩
  · rintro ⟨found, below⟩
    exact ⟨target, k, found, innerIndex, below, ⟨rfl, rfl⟩, rfl⟩

/-- The id of a round is not cut to 32 bits. -/
theorem round_id {round : (Target × Nat) × Nat} (member : round ∈ job.rounds) :
    (UInt32.ofNat round.2).toNat = round.2 := by
  have below := (mem_rounds.mp member).2
  have bound := (job.noThreads round.1.1).toNat_lt
  rw [UInt32.toNat_ofNat']
  exact Nat.mod_eq_of_lt (by omega)

/-- What a round of the assignment loops does. -/
theorem assignTarget_some {state next : List ThreadParams × Nat}
    {round : (Target × Nat) × Nat} (step : job.assignTarget opened state round = some next) :
    ∃ (n : Nat) (th : ThreadParams), state.1[n]? = some th ∧
      (job.useTotalThreads = true → n = round.2) ∧
      (job.useTotalThreads = false → n = state.2 ∧ next.2 = n + 1) ∧
      next.1 = state.1.set n (JobOptions.addTarget opened th round.1 round.2) := by
  unfold JobOptions.assignTarget at step
  obtain ⟨th, found, rfl⟩ := Option.map_eq_some_iff.mp step
  cases total : job.useTotalThreads with
  | true =>
    rw [total, if_pos rfl] at found
    exact ⟨_, th, found, fun _ => rfl, (fun no => by cases no), rfl⟩
  | false =>
    rw [total, if_neg Bool.false_ne_true] at found
    exact ⟨_, th, found, (fun yes => by cases yes), fun _ => ⟨rfl, rfl⟩, rfl⟩

/-- What the earlier rounds have left in the thread of a round: it is new, or all targets of the job
go to each thread under its own id. -/
theorem assigned_before {past : List ((Target × Nat) × Nat)} {state : List ThreadParams × Nat}
    (before : Assigned job past state) {round : (Target × Nat) × Nat} {n : Nat}
    {th : ThreadParams} (found : state.1[n]? = some th)
    (total : job.useTotalThreads = true → n = round.2)
    (perTarget : job.useTotalThreads = false → n = state.2) :
    th.targets = [] ∨ job.useTotalThreads = true ∧ th.relThreadId.toNat = round.2 := by
  cases mode : job.useTotalThreads with
  | false => exact Or.inl (before.fresh mode n th found (perTarget mode).ge)
  | true =>
    by_cases empty : th.targets = []
    · exact Or.inl empty
    · exact Or.inr ⟨rfl, (before.sameId mode n th found empty).trans (total mode)⟩

/-- The thread of a round serves the job with its new target too. -/
theorem addTarget_serves {round : (Target × Nat) × Nat} (member : round ∈ job.rounds)
    {th : ThreadParams} (serves : th.Serves job)
    (earlier : th.targets = [] ∨ job.useTotalThreads = true ∧ th.relThreadId.toNat = round.2) :
    (JobOptions.addTarget opened th round.1 round.2).Serves job := by
  intro tData isTarget
  have id := round_id member
  obtain ⟨found, below⟩ := mem_rounds.mp member
  rcases List.mem_append.mp isTarget with old | new
  · obtain ⟨isOld, belowOld⟩ := serves tData old
    refine ⟨isOld, ?_⟩
    rcases earlier with empty | ⟨_, same⟩
    · rw [empty] at old
      cases old
    · show (UInt32.ofNat round.2).toNat < _
      rwa [id, ← same]
  · rw [List.mem_singleton.mp new]
    refine ⟨found, ?_⟩
    show (UInt32.ofNat round.2).toNat < _
    rwa [id]

theorem addTarget_has {round : (Target × Nat) × Nat} (member : round ∈ job.rounds)
    (th : ThreadParams) : (JobOptions.addTarget opened th round.1 round.2).Has round :=
  ⟨round_id member, _, List.mem_append_right _ (List.mem_singleton.mpr rfl), rfl, rfl⟩

/-- A thread keeps what it has when it gets another target. -/
theorem addTarget_keeps {round other : (Target × Nat) × Nat} (member : round ∈ job.rounds)
    {th : ThreadParams} (has : th.Has other)
    (earlier : th.targets = [] ∨ job.useTotalThreads = true ∧ th.relThreadId.toNat = round.2) :
    (JobOptions.addTarget opened th round.1 round.2).Has other := by
  obtain ⟨id, tData, isTarget, same⟩ := has
  rcases earlier with empty | ⟨_, sameId⟩
  · rw [empty] at isTarget
    cases isTarget
  · exact ⟨by rw [← id, sameId]; exact round_id member, tData, List.mem_append_left _ isTarget, same⟩

/-- **One round of the assignment loops.** -/
theorem assigned_step {past : List ((Target × Nat) × Nat)} {state next : List ThreadParams × Nat}
    {round : (Target × Nat) × Nat} (member : round ∈ job.rounds)
    (before : Assigned job past state) (step : job.assignTarget opened state round = some next) :
    Assigned job (past ++ [round]) next := by
  obtain ⟨n, th, found, total, perTarget, same⟩ := assignTarget_some step
  have earlier := assigned_before before found total (fun mode => (perTarget mode).1)
  have below := (List.getElem?_eq_some_iff.mp found).1
  have atRound : next.1[n]? = some (JobOptions.addTarget opened th round.1 round.2) := by
    rw [same, List.getElem?_set_self below]
  have elsewhere : ∀ m, m ≠ n → next.1[m]? = state.1[m]? := fun m other => by
    rw [same, List.getElem?_set_ne (Ne.symm other)]
  refine ⟨fun m th' found' => ?_, fun mode m th' found' some => ?_, fun mode m th' found' past => ?_,
    fun other isPast => ?_⟩
  · by_cases here : m = n
    · rw [here, atRound] at found'
      cases found'
      exact addTarget_serves member (before.serves n th found) earlier
    · rw [elsewhere m here] at found'
      exact before.serves m th' found'
  · by_cases here : m = n
    · rw [here, atRound] at found'
      cases found'
      rw [here, total mode]
      exact round_id member
    · rw [elsewhere m here] at found'
      exact before.sameId mode m th' found' some
  · obtain ⟨isNext, next⟩ := perTarget mode
    rw [elsewhere m (by omega)] at found'
    exact before.fresh mode m th' found' (by omega)
  · rcases List.mem_append.mp isPast with isPast | new
    · obtain ⟨m, th', found', has⟩ := before.covered other isPast
      by_cases here : m = n
      · rw [here, found, Option.some.injEq] at found'
        subst found'
        exact ⟨n, _, atRound, addTarget_keeps member has earlier⟩
      · exact ⟨m, th', (elsewhere m here).trans found', has⟩
    · rw [List.mem_singleton.mp new]
      exact ⟨n, _, atRound, addTarget_has member th⟩

/-! ### The threads that start their I/O -/

section Created

variable {params : List ThreadParams}

/-- The threads are the assigned ones after their set-up. -/
theorem createThreads_assigned (created : job.createThreads opened = some params) :
    ∃ assigned : List ThreadParams × Nat, Assigned job job.rounds assigned ∧
      assigned.1.mapM job.setUpThread = some params := by
  unfold JobOptions.createThreads at created
  obtain ⟨assigned, done, created⟩ := Option.bind_eq_some_iff.mp created
  exact ⟨assigned, Loop.foldlM_history (Assigned job) done (assigned_initial _)
    (fun past state round next isPrefix before step =>
      assigned_step (isPrefix.subset (List.mem_append_right _ (List.mem_singleton.mpr rfl)))
        before step), created⟩

/-- The set-up of a thread leaves its targets. -/
theorem setUpThread_frame {th th' : ThreadParams} (setUp : job.setUpThread th = some th') :
    th'.targets = th.targets ∧ th'.relThreadId = th.relThreadId := by
  obtain ⟨_, _, rfl⟩ := Option.map_eq_some_iff.mp setUp
  exact ⟨rfl, rfl⟩

/-- **Each thread works on targets of the job.** -/
theorem createThreads_serves (created : job.createThreads opened = some params) :
    ∀ th ∈ params, th.Serves job := by
  intro th member
  obtain ⟨assigned, inv, setUps⟩ := createThreads_assigned created
  obtain ⟨n, found⟩ := List.getElem?_of_mem member
  rw [Loop.mapM_getElem? setUps n] at found
  obtain ⟨th', found, setUp⟩ := Option.bind_eq_some_iff.mp found
  obtain ⟨targets, id⟩ := setUpThread_frame setUp
  unfold ThreadParams.Serves
  rw [targets, id]
  exact inv.serves n th' found

/-- **Each target has a thread for each relative id.** -/
theorem createThreads_covers (created : job.createThreads opened = some params) {k : Nat}
    {target : Target} (found : job.targets[k]? = some target) {relThreadId : UInt32}
    (below : relThreadId.toNat < (job.noThreads target).toNat) :
    ∃ (n : Nat) (th : ThreadParams) (t : Nat) (tData : TargetData),
      params[n]? = some th ∧ th.relThreadId = relThreadId ∧
      th.targets[t]? = some tData ∧ tData.target = target ∧ tData.targetIndex = k := by
  obtain ⟨assigned, inv, setUps⟩ := createThreads_assigned created
  obtain ⟨n, th, isThread, id, tData, member, isTarget, index⟩ :=
    inv.covered ((target, k), relThreadId.toNat) (mem_rounds.mpr ⟨found, below⟩)
  obtain ⟨t, isT⟩ := List.getElem?_of_mem member
  obtain ⟨th', setUp⟩ := Loop.mapM_total setUps th (List.mem_of_getElem? isThread)
  obtain ⟨targets, sameId⟩ := setUpThread_frame setUp
  refine ⟨n, th', t, tData, ?_, ?_, by rwa [targets], isTarget, index⟩
  · rw [Loop.mapM_getElem? setUps n, isThread, Option.bind_some, setUp]
  · rw [sameId]
    exact UInt32.toNat_inj.mp id

/-- The rounds so far leave the number of threads and what they measure; with `-t` each one has taken
a thread of its own. -/
structure AssignedFrame (job : JobOptions) (past : List ((Target × Nat) × Nat))
    (state : List ThreadParams × Nat) : Prop where
  count : state.1.length = job.totalThreads.toNat
  taken : job.useTotalThreads = false →
    state.2 = past.length ∧ past.length ≤ job.totalThreads.toNat
  measure : ∀ th ∈ state.1,
    th.measure = { latency := job.measureLatency, iopsStdDev := job.measureIopsStdDev }

theorem assignedFrame_step {past : List ((Target × Nat) × Nat)}
    {state next : List ThreadParams × Nat} {round : (Target × Nat) × Nat}
    (before : AssignedFrame job past state)
    (step : job.assignTarget opened state round = some next) :
    AssignedFrame job (past ++ [round]) next := by
  obtain ⟨n, th, found, _, perTarget, same⟩ := assignTarget_some step
  have below := (List.getElem?_eq_some_iff.mp found).1
  refine ⟨by rw [same, List.length_set, before.count], fun mode => ?_, fun th' member => ?_⟩
  · obtain ⟨isNext, after⟩ := perTarget mode
    rw [before.count] at below
    rw [List.length_append, List.length_singleton, ← (before.taken mode).1]
    exact ⟨by rw [after, isNext], by omega⟩
  · rw [same] at member
    rcases List.mem_or_eq_of_mem_set member with old | new
    · exact before.measure th' old
    · rw [new]
      exact before.measure th (List.mem_of_getElem? found)

/-- **How many threads there are, and what they measure.** -/
theorem createThreads_frame (created : job.createThreads opened = some params) :
    params.length = job.totalThreads.toNat ∧
    (job.useTotalThreads = false → job.rounds.length ≤ job.totalThreads.toNat) ∧
    ∀ th ∈ params,
      th.measure = { latency := job.measureLatency, iopsStdDev := job.measureIopsStdDev } ∧
      job.bucketizer = some th.bucketizer := by
  unfold JobOptions.createThreads at created
  obtain ⟨assigned, done, setUps⟩ := Option.bind_eq_some_iff.mp created
  have frame : AssignedFrame job job.rounds assigned := by
    refine Loop.foldlM_history (AssignedFrame job) done ⟨?_, fun _ => ⟨rfl, Nat.zero_le _⟩, ?_⟩
      fun _ _ _ _ _ before step => assignedFrame_step before step
    · rw [List.length_map, List.length_range]
    · intro th member
      obtain ⟨id, _, rfl⟩ := List.mem_map.mp member
      rfl
  have entry := Loop.mapM_getElem? setUps
  refine ⟨(Loop.mapM_length setUps).trans frame.count, fun mode => (frame.taken mode).2,
    fun th member => ?_⟩
  obtain ⟨n, found⟩ := List.getElem?_of_mem member
  rw [entry n] at found
  obtain ⟨th', isThread, setUp⟩ := Option.bind_eq_some_iff.mp found
  obtain ⟨bucketizer, isBucketizer, rfl⟩ := Option.map_eq_some_iff.mp setUp
  exact ⟨frame.measure th' (List.mem_of_getElem? isThread), isBucketizer⟩

/-- **The ids of the threads** are their places. -/
theorem createThreads_id (created : job.createThreads opened = some params) {n : Nat}
    {th : ThreadParams} (isThread : params[n]? = some th) : th.threadId.toNat = n := by
  have below : n < 2 ^ 32 := by
    have inParams := (List.getElem?_eq_some_iff.mp isThread).1
    have count := (createThreads_frame created).1
    have bound := job.totalThreads.toNat_lt
    omega
  unfold JobOptions.createThreads at created
  obtain ⟨assigned, done, setUps⟩ := Option.bind_eq_some_iff.mp created
  have ids : ∀ (m : Nat) (th' : ThreadParams), assigned.1[m]? = some th' →
      th'.threadId = UInt32.ofNat m := by
    refine Loop.foldlM_history (fun _ state => ∀ (m : Nat) (th' : ThreadParams),
      state.1[m]? = some th' → th'.threadId = UInt32.ofNat m) done (fun m th' found => ?_)
      fun _ state _ next _ before step m th' found => ?_
    · rw [List.getElem?_map, Option.map_eq_some_iff] at found
      obtain ⟨id, isId, rfl⟩ := found
      rw [List.getElem?_eq_some_iff] at isId
      obtain ⟨_, same⟩ := isId
      rw [List.getElem_range] at same
      rw [same]
      rfl
    · obtain ⟨i, th₀, isTh₀, _, _, same⟩ := assignTarget_some step
      rw [same, List.getElem?_set] at found
      split_ifs at found with here
      · cases found
        rw [← here]
        exact before i th₀ isTh₀
      · exact before m th' found
  rw [Loop.mapM_getElem? setUps n] at isThread
  obtain ⟨th', found, setUp⟩ := Option.bind_eq_some_iff.mp isThread
  obtain ⟨_, _, rfl⟩ := Option.map_eq_some_iff.mp setUp
  show th'.threadId.toNat = n
  rw [ids n th' found, UInt32.toNat_ofNat', Nat.mod_eq_of_lt below]

/-! ### Threads of an accepted job -/

variable {calls : List (Key × Option CString)} {stat : CString → Stat} {k : Nat} {target : Target}

/-- A thread's data for a target of the job is for that target. -/
theorem serves_target {th : ThreadParams} (serves : th.Serves job)
    (found : job.targets[k]? = some target) {tData : TargetData} (member : tData ∈ th.targets)
    (index : tData.targetIndex = k) :
    tData.target = target ∧ th.relThreadId.toNat < (job.noThreads target).toNat := by
  obtain ⟨isTarget, below⟩ := serves tData member
  rw [index, found, Option.some.injEq] at isTarget
  rw [← isTarget] at below
  exact ⟨isTarget.symm, below⟩

theorem thread_accepted (ok : parseCommandLine calls stat = .ok job) {th : ThreadParams}
    (serves : th.Serves job) : ∀ tData ∈ th.targets, tData.target.Accepted := fun tData member =>
  parseCommandLine_accepted ok _ (List.mem_of_getElem? (serves tData member).1)

/-- All targets of a job are random or none is. -/
theorem thread_sequential (ok : parseCommandLine calls stat = .ok job)
    (found : job.targets[k]? = some target) (sequential : target.useRandomAlignment = false)
    {th : ThreadParams} (serves : th.Serves job) :
    ∀ tData ∈ th.targets, tData.target.useRandomAlignment = false := by
  intro tData member
  obtain ⟨dummy, same⟩ := parseCommandLine_targets ok
  have here := (same target (List.mem_of_getElem? found)).2.useRandomAlignment
  have there := (same _ (List.mem_of_getElem? (serves tData member).1)).2.useRandomAlignment
  rw [there, ← here, sequential]

end Created

end DiskSpd
