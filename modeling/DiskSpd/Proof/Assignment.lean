/-
**The assignment of targets to threads.**

* `AssignmentRight` — what the loops of `run_job` are for: with `-t` each thread has one target, with
  `-F` each thread has every target under its own id; the threads of a target have the relative ids
  from 0 on, and a thread's data and results of a target share one object.
* `Assigning` — the invariant of the loops: each thread is built from the rounds that chose it.
* `assignment_iff` — **the loops run through, and the assignment is right, exactly when the thread
  count has not wrapped**.
* `assignThreads_created` — the threads are those that `createThreads` starts from.
-/

import DiskSpd.Model.Assignment
import DiskSpd.Proof.Threads

namespace DiskSpd

variable {job : JobOptions} {opened : UInt32 → Nat → JobOptions.Opened}

/-- The threads that serve target `k`. -/
def AssignState.serving (final : AssignState) (k : Nat) : List ThreadSetUp :=
  final.threads.filter fun th => th.params.targets.any fun tData => tData.targetIndex == k

/-- **The assignment is right.** -/
structure AssignmentRight (job : JobOptions) (final : AssignState) : Prop where
  count : final.threads.length = job.totalThreads.toNat
  threadIds : ∀ (n : Nat) (th : ThreadSetUp), final.threads[n]? = some th →
    th.params.threadId.toNat = n
  ofJob : ∀ th ∈ final.threads, ∀ tData ∈ th.params.targets,
    job.targets[tData.targetIndex]? = some tData.target
  oneTarget : job.useTotalThreads = false → ∀ th ∈ final.threads,
    ∃ tData, th.params.targets = [tData]
  threadsPerTarget : job.useTotalThreads = false → ∀ (k : Nat) (target : Target),
    job.targets[k]? = some target → (final.serving k).length = target.threadsPerTarget.toNat
  everyTarget : job.useTotalThreads = true → ∀ th ∈ final.threads,
    th.params.targets.map (fun tData => (tData.target, tData.targetIndex)) = job.targets.zipIdx ∧
    th.params.relThreadId = th.params.threadId
  relThreadIds : ∀ (k : Nat) (target : Target), job.targets[k]? = some target →
    (final.serving k).map (fun th => th.params.relThreadId.toNat) =
      List.range (job.noThreads target).toNat
  sameResults : ∀ th ∈ final.threads, th.targetResults.length = th.params.targets.length ∧
    ∀ (i : Nat) (tData : TargetData), th.params.targets[i]? = some tData →
      ∃ tResults, th.dataResults[i]? = some tResults ∧ th.targetResults[i]? = some tResults ∧
        final.results[tResults]? = some tData.targetIndex

/-! ### The rounds -/

theorem rounds_nested : job.rounds =
    Loop.nested (fun target : Target × Nat => (job.noThreads target.1).toNat)
      job.targets.zipIdx := rfl

theorem length_rounds :
    job.rounds.length = (job.targets.map fun target => (job.noThreads target).toNat).sum := by
  have targets := congrArg (List.map fun target => (job.noThreads target).toNat)
    (List.zipIdx_map_fst 0 job.targets)
  rw [List.map_map] at targets
  rw [rounds_nested, Loop.length_nested]
  exact congrArg List.sum targets

/-- The rounds of one target. -/
theorem rounds_of_target {k : Nat} {target : Target} (found : job.targets[k]? = some target) :
    (job.rounds.filter fun round => round.1.2 == k).map (·.2) =
      List.range (job.noThreads target).toNat := by
  have one : (job.targets.zipIdx 0).filter (fun entry => entry.2 == 0 + k) = [(target, 0 + k)] :=
    Loop.filter_zipIdx found
  rw [Nat.zero_add] at one
  rw [rounds_nested, Loop.filter_outer _ (fun target : Target × Nat => target.2 == k), one]
  simp [Loop.nested, Function.comp_def]

/-- The rounds of one inner index with `-F`: one for each target. -/
theorem rounds_of_thread (total : job.useTotalThreads = true) {n : Nat}
    (below : n < job.totalThreads.toNat) :
    job.rounds.filter (fun round => round.2 == n) = job.targets.zipIdx.map fun t => (t, n) := by
  rw [rounds_nested]
  refine Loop.filter_inner fun t _ => ?_
  unfold JobOptions.noThreads
  rwa [total, if_pos rfl]

/-- The rounds so far that chose thread `n`. -/
def JobOptions.given (job : JobOptions) (past : List ((Target × Nat) × Nat)) (n : Nat) :
    List ((Target × Nat) × Nat) :=
  if job.useTotalThreads then past.filter fun round => round.2 == n else past[n]?.toList

/-- A round joins those of the thread it chooses. -/
theorem given_append (past : List ((Target × Nat) × Nat)) (round : (Target × Nat) × Nat) (n : Nat) :
    job.given (past ++ [round]) n = job.given past n ++
      if n = (if job.useTotalThreads then round.2 else past.length) then [round] else [] := by
  unfold JobOptions.given
  cases job.useTotalThreads with
  | true =>
    rw [if_pos rfl, if_pos rfl, if_pos rfl, List.filter_append]
    by_cases chosen : n = round.2
    · rw [if_pos chosen, List.filter_cons_of_pos (by simp [chosen])]
      rfl
    · rw [if_neg chosen, List.filter_cons_of_neg (by simpa using Ne.symm chosen)]
      rfl
  | false =>
    simp only [Bool.false_eq_true, if_false]
    rcases Nat.lt_trichotomy n past.length with below | rfl | above
    · rw [if_neg (by omega), List.getElem?_append_left below, List.append_nil]
    · simp
    · rw [if_neg (by omega), List.getElem?_eq_none (by simp; omega),
        List.getElem?_eq_none (by omega)]
      rfl

/-! ### The invariant -/

/-- A thread is built from the rounds that chose it. -/
structure ThreadSetUp.Built (th : ThreadSetUp) (results : List Nat)
    (rounds : List ((Target × Nat) × Nat)) (n : Nat) : Prop where
  threadId : th.params.threadId = UInt32.ofNat n
  targets : th.params.targets.map (fun tData => (tData.target, tData.targetIndex)) =
    rounds.map (·.1)
  relThreadId : ∀ round ∈ rounds.getLast?, th.params.relThreadId = UInt32.ofNat round.2
  shared : th.targetResults = th.dataResults
  named : th.dataResults.map (results[·]?) = th.params.targets.map fun tData => some tData.targetIndex

/-- More results objects leave those of the thread. -/
theorem ThreadSetUp.Built.grow {th : ThreadSetUp} {results : List Nat}
    {rounds : List ((Target × Nat) × Nat)} {n : Nat} (built : th.Built results rounds n) (x : Nat) :
    th.Built (results ++ [x]) rounds n := by
  refine { built with named := ?_ }
  rw [← built.named]
  refine List.map_congr_left fun tResults member => ?_
  have some : results[tResults]? ∈ th.dataResults.map (results[·]?) := List.mem_map_of_mem member
  rw [built.named] at some
  obtain ⟨tData, _, found⟩ := List.mem_map.mp some
  exact List.getElem?_append_left (List.getElem?_eq_some_iff.mp found.symm).1

/-- One more target for the thread. -/
theorem ThreadSetUp.Built.push {th : ThreadSetUp} {results : List Nat}
    {rounds : List ((Target × Nat) × Nat)} {n : Nat} (built : th.Built results rounds n)
    (round : (Target × Nat) × Nat) :
    (JobOptions.pushTarget opened th round results.length).Built (results ++ [round.1.2])
      (rounds ++ [round]) n := by
  refine ⟨built.threadId, ?_, ?_, ?_, ?_⟩
  · show (th.params.targets ++ [_]).map _ = _
    rw [List.map_append, built.targets, List.map_append]
    rfl
  · intro last member
    rw [List.getLast?_append_of_ne_nil _ (List.cons_ne_nil _ _)] at member
    cases member
    rfl
  · show th.targetResults ++ _ = th.dataResults ++ _
    rw [built.shared]
  · show (th.dataResults ++ _).map _ = (th.params.targets ++ [_]).map _
    rw [List.map_append, List.map_append, (built.grow round.1.2).named]
    simp

/-- **The invariant of the assignment loops.** -/
structure Assigning (job : JobOptions) (past : List ((Target × Nat) × Nat))
    (state : AssignState) : Prop where
  count : state.threads.length = job.totalThreads.toNat
  index : job.useTotalThreads = false →
    state.index.toNat = past.length ∧ past.length ≤ job.totalThreads.toNat
  built : ∀ (n : Nat) (th : ThreadSetUp), state.threads[n]? = some th →
    th.Built state.results (job.given past n) n

theorem assigning_initial : Assigning job [] job.initialThreads where
  count := by simp [JobOptions.initialThreads]
  index := fun _ => ⟨rfl, Nat.zero_le _⟩
  built := by
    intro n th found
    simp only [JobOptions.initialThreads, List.getElem?_map, Option.map_eq_some_iff] at found
    obtain ⟨id, isId, rfl⟩ := found
    have none : job.given [] n = [] := by
      unfold JobOptions.given
      split <;> rfl
    rw [none]
    refine ⟨?_, rfl, (fun _ member => by cases member), rfl, rfl⟩
    obtain ⟨_, same⟩ := List.getElem?_eq_some_iff.mp isId
    rw [List.getElem_range] at same
    rw [← same]
    rfl

/-- What a round does. -/
theorem assignRound_some {state next : AssignState} {round : (Target × Nat) × Nat}
    (step : job.assignRound opened state round = some next) :
    ∃ th, state.threads[if job.useTotalThreads then round.2 else state.index.toNat]? = some th ∧
      next = {
        threads := state.threads.set (if job.useTotalThreads then round.2 else state.index.toNat)
          (JobOptions.pushTarget opened th round state.results.length)
        index := if job.useTotalThreads then state.index else state.index + 1
        totalOverlap := state.totalOverlap + round.1.1.overlap
        results := state.results ++ [round.1.2] } := by
  unfold JobOptions.assignRound at step
  obtain ⟨th, found, step⟩ := Option.bind_eq_some_iff.mp step
  dsimp only at step
  split at step
  · cases step
  · exact ⟨th, found, (Option.some.inj step).symm⟩

/-- **One round keeps the invariant.** -/
theorem assigning_step {past : List ((Target × Nat) × Nat)} {state next : AssignState}
    {round : (Target × Nat) × Nat} (before : Assigning job past state)
    (step : job.assignRound opened state round = some next) :
    Assigning job (past ++ [round]) next := by
  obtain ⟨th, found, rfl⟩ := assignRound_some step
  have chosen : (if job.useTotalThreads then round.2 else state.index.toNat) =
      if job.useTotalThreads then round.2 else past.length := by
    cases mode : job.useTotalThreads with
    | true => rfl
    | false => exact (before.index mode).1
  rw [chosen] at found ⊢
  have below := (List.getElem?_eq_some_iff.mp found).1
  refine ⟨(List.length_set ..).trans before.count, fun mode => ?_, fun n th' found' => ?_⟩
  · obtain ⟨isPast, fits⟩ := before.index mode
    rw [mode, if_neg Bool.false_ne_true, before.count] at below
    have bound := job.totalThreads.toNat_lt
    have one : (1 : UInt32).toNat = 1 := rfl
    dsimp only
    rw [mode, if_neg Bool.false_ne_true, UInt32.toNat_add, one, isPast, List.length_append,
      List.length_singleton]
    omega
  · rw [given_append]
    by_cases here : n = if job.useTotalThreads then round.2 else past.length
    · rw [if_pos here]
      rw [← here, List.getElem?_set_self (here ▸ below)] at found'
      cases found'
      rw [← here] at found
      exact (before.built n th found).push round
    · rw [if_neg here, List.append_nil]
      rw [List.getElem?_set_ne (Ne.symm here)] at found'
      exact (before.built n th' found').grow round.1.2

theorem assignThreads_assigning {final : AssignState}
    (done : job.assignThreads opened = some final) : Assigning job job.rounds final :=
  Loop.foldlM_history (Assigning job) done assigning_initial
    fun _ _ _ _ _ before step => assigning_step before step

/-- **The rounds succeed** when there is a thread for each of them. -/
theorem assignThreads_total
    (enough : job.useTotalThreads = false → job.rounds.length ≤ job.totalThreads.toNat) :
    ∃ final, job.assignThreads opened = some final := by
  refine Loop.foldlM_total
    (fun rest state => ∃ past, past ++ rest = job.rounds ∧ Assigning job past state) ?_
    ⟨[], rfl, assigning_initial⟩
  rintro round rest state ⟨past, split, before⟩
  have member : round ∈ job.rounds := split ▸ List.mem_append_right _ List.mem_cons_self
  have inThreads : (if job.useTotalThreads then round.2 else state.index.toNat) <
      state.threads.length := by
    rw [before.count]
    cases mode : job.useTotalThreads with
    | true =>
      have below := (mem_rounds.mp member).2
      unfold JobOptions.noThreads at below
      rwa [mode, if_pos rfl] at below
    | false =>
      have fits := enough mode
      rw [← split, List.length_append, List.length_cons] at fits
      rw [if_neg Bool.false_ne_true, (before.index mode).1]
      omega
  obtain ⟨th, found⟩ : ∃ th,
      state.threads[if job.useTotalThreads then round.2 else state.index.toNat]? = some th :=
    ⟨_, List.getElem?_eq_getElem inThreads⟩
  have passes : (job.useTotalThreads &&
      (JobOptions.pushTarget opened th round state.results.length).params.relThreadId !=
        (JobOptions.pushTarget opened th round state.results.length).params.threadId) = false := by
    cases mode : job.useTotalThreads with
    | false => rfl
    | true =>
      have id := (before.built _ th found).threadId
      rw [mode, if_pos rfl] at id
      rw [Bool.true_and]
      exact bne_eq_false_iff_eq.mpr id.symm
  have step : ∃ next, job.assignRound opened state round = some next := by
    unfold JobOptions.assignRound
    dsimp only
    rw [Option.bind_eq_bind, found, Option.bind_some, passes, if_neg Bool.false_ne_true]
    exact ⟨_, rfl⟩
  obtain ⟨next, step⟩ := step
  exact ⟨next, step, past ++ [round], by rw [List.append_assoc]; exact split,
    assigning_step before step⟩

/-- **`createThreads` starts from the threads of these loops.** -/
theorem assignThreads_created {final : AssignState}
    (done : job.assignThreads opened = some final) :
    job.createThreads opened = (final.threads.map (·.params)).mapM job.setUpThread := by
  let first := ((List.range job.totalThreads.toNat).map job.newThread, 0)
  have run : Assigning job job.rounds final ∧ job.rounds.foldlM (job.assignTarget opened) first =
      some (final.threads.map (·.params),
        if job.useTotalThreads then 0 else job.rounds.length) := by
    refine Loop.foldlM_history (fun past state => Assigning job past state ∧
      past.foldlM (job.assignTarget opened) first = some (state.threads.map (·.params),
        if job.useTotalThreads then 0 else past.length)) done ⟨assigning_initial, ?_⟩ ?_
    · simp [first, JobOptions.initialThreads, Function.comp_def]
    · rintro past state round next _ ⟨before, run⟩ step
      refine ⟨assigning_step before step, ?_⟩
      obtain ⟨th, found, rfl⟩ := assignRound_some step
      rw [List.foldlM_append, run]
      cases mode : job.useTotalThreads with
      | true =>
        rw [mode, if_pos rfl] at found
        simp [JobOptions.assignTarget, JobOptions.pushTarget, mode, found, List.map_set]
      | false =>
        rw [mode, if_neg Bool.false_ne_true, (before.index mode).1] at found
        simp [JobOptions.assignTarget, JobOptions.pushTarget, mode, found, List.map_set,
          (before.index mode).1]
  unfold JobOptions.createThreads
  rw [run.2]
  rfl

/-! ### The finished assignment -/

section Finished

variable {final : AssignState}

/-- The target and the results of one entry of a thread share an object. -/
theorem ThreadSetUp.Built.sameResults {th : ThreadSetUp} {results : List Nat}
    {rounds : List ((Target × Nat) × Nat)} {n : Nat} (built : th.Built results rounds n) :
    th.targetResults.length = th.params.targets.length ∧
    ∀ (i : Nat) (tData : TargetData), th.params.targets[i]? = some tData →
      ∃ tResults, th.dataResults[i]? = some tResults ∧ th.targetResults[i]? = some tResults ∧
        results[tResults]? = some tData.targetIndex := by
  have length := congrArg List.length built.named
  rw [List.length_map, List.length_map] at length
  refine ⟨by rw [built.shared, length], fun i tData found => ?_⟩
  have named := congrArg (fun names : List (Option Nat) => names[i]?) built.named
  rw [List.getElem?_map, List.getElem?_map, found, Option.map_some, Option.map_eq_some_iff] at named
  obtain ⟨tResults, isResults, name⟩ := named
  exact ⟨tResults, isResults, built.shared ▸ isResults, name⟩

theorem ThreadSetUp.Built.ofJob {th : ThreadSetUp} {results : List Nat}
    {rounds : List ((Target × Nat) × Nat)} {n : Nat} (built : th.Built results rounds n)
    (inJob : ∀ round ∈ rounds, round ∈ job.rounds) :
    ∀ tData ∈ th.params.targets, job.targets[tData.targetIndex]? = some tData.target := by
  intro tData member
  have isGiven : (tData.target, tData.targetIndex) ∈ rounds.map (·.1) := by
    rw [← built.targets]
    exact List.mem_map_of_mem member
  obtain ⟨round, isRound, same⟩ := List.mem_map.mp isGiven
  have found := (mem_rounds.mp (inJob round isRound)).1
  rwa [same] at found

theorem given_subset {past : List ((Target × Nat) × Nat)} {n : Nat} :
    ∀ round ∈ job.given past n, round ∈ past := by
  intro round member
  unfold JobOptions.given at member
  split at member
  · exact (List.mem_filter.mp member).1
  · exact List.mem_of_getElem? (Option.mem_toList.mp member)

/-- With `-t` there is a round for each thread. -/
theorem Assigning.perTarget (assigning : Assigning job job.rounds final)
    (mode : job.useTotalThreads = false) (enough : job.totalThreads.toNat = job.rounds.length)
    {n : Nat} {th : ThreadSetUp} (found : final.threads[n]? = some th) :
    ∃ round tData, job.rounds[n]? = some round ∧ th.params.targets = [tData] ∧
      tData.targetIndex = round.1.2 ∧ th.params.relThreadId.toNat = round.2 := by
  have below := (List.getElem?_eq_some_iff.mp found).1
  rw [assigning.count, enough] at below
  have isRound := List.getElem?_eq_getElem below
  have built := assigning.built n th found
  have given : job.given job.rounds n = [job.rounds[n]] := by
    unfold JobOptions.given
    rw [mode, if_neg Bool.false_ne_true, isRound]
    rfl
  rw [given] at built
  have one := built.targets
  rw [List.map_singleton, List.map_eq_singleton_iff] at one
  obtain ⟨tData, isTarget, same⟩ := one
  refine ⟨_, tData, isRound, isTarget, congrArg Prod.snd same, ?_⟩
  rw [built.relThreadId _ rfl]
  exact round_id (List.getElem_mem below)

/-- With `-F` each thread gets every target. -/
theorem Assigning.total (assigning : Assigning job job.rounds final)
    (mode : job.useTotalThreads = true) (nonempty : job.targets ≠ []) {n : Nat} {th : ThreadSetUp}
    (found : final.threads[n]? = some th) :
    n < job.totalThreads.toNat ∧ th.params.targets.map (fun tData =>
      (tData.target, tData.targetIndex)) = job.targets.zipIdx ∧
      th.params.relThreadId = UInt32.ofNat n := by
  have below := (List.getElem?_eq_some_iff.mp found).1
  rw [assigning.count] at below
  have built := assigning.built n th found
  have given : job.given job.rounds n = job.targets.zipIdx.map fun t => (t, n) := by
    unfold JobOptions.given
    rw [mode, if_pos rfl, rounds_of_thread mode below]
  rw [given] at built
  refine ⟨below, ?_, ?_⟩
  · rw [built.targets, List.map_map]
    exact List.map_id _
  · have notNil : job.targets.zipIdx.map (fun t => (t, n)) ≠ [] := by simpa using nonempty
    have last := built.relThreadId _ (List.getLast?_eq_some_getLast notNil)
    obtain ⟨t, _, same⟩ := List.mem_map.mp (List.getLast_mem notNil)
    rw [last, ← same]

/-- The ids of the threads of a target with `-t`, round by round. -/
theorem Assigning.serving_perTarget (assigning : Assigning job job.rounds final)
    (mode : job.useTotalThreads = false) (enough : job.totalThreads.toNat = job.rounds.length)
    (k : Nat) : (final.serving k).map (fun th => th.params.relThreadId.toNat) =
      (job.rounds.filter fun round => round.1.2 == k).map (·.2) := by
  let ofThread := fun th : ThreadSetUp =>
    (th.params.targets.map (·.targetIndex), th.params.relThreadId.toNat)
  let ofRound := fun round : (Target × Nat) × Nat => ([round.1.2], round.2)
  have same : final.threads.map ofThread = job.rounds.map ofRound := by
    refine List.ext_getElem? fun n => ?_
    rw [List.getElem?_map, List.getElem?_map]
    cases found : final.threads[n]? with
    | none =>
      have past := List.getElem?_eq_none_iff.mp found
      rw [assigning.count, enough] at past
      rw [List.getElem?_eq_none past]
      rfl
    | some th =>
      obtain ⟨round, tData, isRound, isTarget, index, id⟩ := assigning.perTarget mode enough found
      rw [isRound, Option.map_some, Option.map_some, Option.some.injEq, Prod.mk.injEq, isTarget, id,
        ← index]
      exact ⟨rfl, rfl⟩
  have chosen := congrArg (fun entries : List (List Nat × Nat) =>
    (entries.filter fun entry => entry.1.any (· == k)).map (·.2)) same
  rw [List.filter_map, List.filter_map, List.map_map, List.map_map] at chosen
  unfold AssignState.serving
  simpa [ofThread, ofRound, Function.comp_def, List.any_map] using chosen

/-- The ids of the threads of a target with `-F`. -/
theorem Assigning.serving_total (assigning : Assigning job job.rounds final)
    (mode : job.useTotalThreads = true) {k : Nat} {target : Target}
    (isTarget : job.targets[k]? = some target) :
    (final.serving k).map (fun th => th.params.relThreadId.toNat) =
      List.range job.totalThreads.toNat := by
  have nonempty : job.targets ≠ [] := fun none => by
    rw [none] at isTarget
    cases isTarget
  have all : final.serving k = final.threads := by
    unfold AssignState.serving
    refine List.filter_eq_self.mpr fun th member => ?_
    obtain ⟨n, found⟩ := List.getElem?_of_mem member
    have inAll : (target, k) ∈ job.targets.zipIdx := List.mem_zipIdx_iff_getElem?.mpr isTarget
    rw [← (assigning.total mode nonempty found).2.1] at inAll
    obtain ⟨tData, isData, same⟩ := List.mem_map.mp inAll
    exact List.any_eq_true.mpr ⟨tData, isData, beq_of_eq (congrArg Prod.snd same)⟩
  rw [all]
  refine List.ext_getElem? fun n => ?_
  rw [List.getElem?_map]
  cases found : final.threads[n]? with
  | none =>
    have past := List.getElem?_eq_none_iff.mp found
    rw [assigning.count] at past
    rw [List.getElem?_eq_none (by rwa [List.length_range])]
    rfl
  | some th =>
    obtain ⟨below, _, id⟩ := assigning.total mode nonempty found
    have bound := job.totalThreads.toNat_lt
    rw [List.getElem?_range below, Option.map_some, id, UInt32.toNat_ofNat',
      Nat.mod_eq_of_lt (by omega)]

/-- **The finished assignment is right**, when the thread count is the number of rounds. -/
theorem Assigning.right (assigning : Assigning job job.rounds final) (nonempty : job.targets ≠ [])
    (enough : job.useTotalThreads = false → job.totalThreads.toNat = job.rounds.length) :
    AssignmentRight job final := by
  have bound := job.totalThreads.toNat_lt
  have ids : ∀ (k : Nat) (target : Target), job.targets[k]? = some target →
      (final.serving k).map (fun th => th.params.relThreadId.toNat) =
        List.range (job.noThreads target).toNat := by
    intro k target isTarget
    cases mode : job.useTotalThreads with
    | true =>
      rw [assigning.serving_total mode isTarget]
      simp [JobOptions.noThreads, mode]
    | false =>
      rw [assigning.serving_perTarget mode (enough mode), rounds_of_target isTarget]
  have threadIds : ∀ (n : Nat) (th : ThreadSetUp), final.threads[n]? = some th →
      th.params.threadId = UInt32.ofNat n ∧ n < 2 ^ 32 := by
    intro n th found
    have below := (List.getElem?_eq_some_iff.mp found).1
    rw [assigning.count] at below
    exact ⟨(assigning.built n th found).threadId, by omega⟩
  refine {
    count := assigning.count
    threadIds := fun n th found => ?_
    ofJob := fun th member => ?_
    oneTarget := fun mode th member => ?_
    threadsPerTarget := fun mode k target isTarget => ?_
    everyTarget := fun mode th member => ?_
    relThreadIds := ids
    sameResults := fun th member => ?_ }
  · obtain ⟨id, small⟩ := threadIds n th found
    rw [id, UInt32.toNat_ofNat', Nat.mod_eq_of_lt (by omega)]
  · obtain ⟨n, found⟩ := List.getElem?_of_mem member
    exact (assigning.built n th found).ofJob given_subset
  · obtain ⟨n, found⟩ := List.getElem?_of_mem member
    obtain ⟨_, tData, _, isTarget, _⟩ := assigning.perTarget mode (enough mode) found
    exact ⟨tData, isTarget⟩
  · have length := congrArg List.length (ids k target isTarget)
    rw [List.length_map, List.length_range] at length
    rw [length]
    simp [JobOptions.noThreads, mode]
  · obtain ⟨n, found⟩ := List.getElem?_of_mem member
    obtain ⟨_, targets, id⟩ := assigning.total mode nonempty found
    exact ⟨targets, id.trans (threadIds n th found).1.symm⟩
  · obtain ⟨n, found⟩ := List.getElem?_of_mem member
    exact (assigning.built n th found).sameResults

end Finished

/-! ### Accepted jobs -/

section Accepted

variable {calls : List (Key × Option CString)} {stat : CString → Stat}

/-- With `-t` there are as many rounds as the targets ask for threads. -/
theorem length_rounds_perTarget (mode : job.useTotalThreads = false) :
    job.rounds.length = (job.targets.map fun target => target.threadsPerTarget.toNat).sum := by
  rw [length_rounds]
  simp [JobOptions.noThreads, mode]

/-- The loops run through with `-t` only if the counts of the targets fit in an `unsigned int`. -/
theorem threadCount_fits {final : AssignState} (done : job.assignThreads opened = some final)
    (mode : job.useTotalThreads = false) :
    (job.targets.map fun target => target.threadsPerTarget.toNat).sum < 2 ^ 32 := by
  have fits := ((assignThreads_assigning done).index mode).2
  have bound := job.totalThreads.toNat_lt
  rw [length_rounds_perTarget mode] at fits
  omega

/-- **The assignment loops run through, and the assignment is right, exactly when the sum of the
threads per target does not wrap** in `unsigned int`, or `-F` gives the count. -/
theorem assignment_iff (ok : parseCommandLine calls stat = .ok job) :
    (∃ final, job.assignThreads opened = some final ∧ AssignmentRight job final) ↔
      job.useTotalThreads = true ∨
        (job.targets.map fun target => target.threadsPerTarget.toNat).sum < 2 ^ 32 := by
  obtain ⟨_, nonempty, count⟩ := parseCommandLine_job ok
  constructor
  · rintro ⟨final, done, _⟩
    cases mode : job.useTotalThreads with
    | true => exact Or.inl rfl
    | false => exact Or.inr (threadCount_fits done mode)
  · intro fits
    have enough : job.useTotalThreads = false → job.totalThreads.toNat = job.rounds.length := by
      intro mode
      rcases fits with total | small
      · rw [total] at mode
        cases mode
      · rw [length_rounds_perTarget mode, count mode, Nat.mod_eq_of_lt small]
    obtain ⟨final, done⟩ : ∃ final, job.assignThreads opened = some final :=
      assignThreads_total fun mode => (enough mode).ge
    exact ⟨final, done, (assignThreads_assigning done).right nonempty enough⟩

end Accepted

/-! ### Two command lines -/

/-- `-t<threads> f g` -/
def twoTargetCalls (threads : CString) : List (Key × Option CString) :=
  [(.option 't', some threads), (.keyArg, some "f".toList), (.keyArg, some "g".toList)]

def twoTargets (threads : UInt32) : List Target :=
  [{ path := "f".toList, size := 1048576, maxSize := 1048576, threadsPerTarget := threads },
    { path := "g".toList, size := 1048576, maxSize := 1048576, threadsPerTarget := threads }]

/-- `-t2147483648 f g` asks for 2^32 threads, which are counted as none: the loops fail. -/
theorem twoTargets_not_assigned :
    parseCommandLine (twoTargetCalls "2147483648".toList) (fun _ => .file 1048576) =
      .ok { totalThreads := 0, targets := twoTargets 2147483648 } ∧
    (∀ target ∈ twoTargets 2147483648, target.checkSetUp target.threadsPerTarget = .ok ()) ∧
    ∀ opened : UInt32 → Nat → JobOptions.Opened,
      ({ totalThreads := 0, targets := twoTargets 2147483648 } : JobOptions).assignThreads opened =
        none := by
  refine ⟨rfl, ?_, fun opened => ?_⟩
  · intro target member
    simp only [twoTargets, List.mem_cons, List.not_mem_nil, or_false] at member
    rcases member with rfl | rfl <;> rfl
  · cases done : ({ totalThreads := 0, targets := twoTargets 2147483648 } :
        JobOptions).assignThreads opened with
    | none => rfl
    | some final => exact absurd (threadCount_fits done rfl) (by decide)

theorem twoTargets_assigned :
    parseCommandLine (twoTargetCalls "2".toList) (fun _ => .file 1048576) =
      .ok { totalThreads := 4, targets := twoTargets 2 } ∧
    ∃ final, ({ totalThreads := 4, targets := twoTargets 2 } : JobOptions).assignThreads
        (fun _ _ => ⟨3, 0, 0⟩) = some final ∧
      AssignmentRight { totalThreads := 4, targets := twoTargets 2 } final := by
  have ok : parseCommandLine (twoTargetCalls "2".toList) (fun _ => .file 1048576) =
      .ok { totalThreads := 4, targets := twoTargets 2 } := rfl
  exact ⟨ok, (assignment_iff ok).mpr (Or.inr (by decide))⟩

end DiskSpd
