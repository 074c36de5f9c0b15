/-
**The arrays of the libaio engine**, when submits may fail.

* `CbArray.Counts` — an array counts its operations in flight and has not been freed, or it has been freed
  once and has none.
* `KernelArraysInv` — each call of the engine keeps that, a `submit` that fails or that the kernel accepts
  in part, and a `wait` for whatever id.
* `kernelArrays_reachable` — so no array is ever freed twice, and none that an operation in flight points
  to has been freed.
* `lawfulKernelArrays`, `work_arrays` — the engine keeps this with its promise to the threads, so it holds
  at any moment of any run of theirs.

An operation is in flight while the map of its group has an entry for it. The request of a failed `submit`
that is not cancelled has none.
-/

import DiskSpd.Proof.FailedSubmit
import DiskSpd.Proof.Workers

namespace DiskSpd

open IdPool Transition

/-! ### The users of an array -/

/-- The operations that a group has in flight. -/
def KernelState.flying (s : KernelState) (g : Int32) : List Nat :=
  (s.groups g).inFlight.entries.map (·.2)

/-- How many of them point to an array. -/
def KernelState.users (s : KernelState) (a : Nat) (g : Int32) : Nat :=
  (s.flying g).countP fun op => (s.ops op).cbArray = some a

/-- **What an array knows of its users.** -/
def CbArray.Counts (array : CbArray) (users : Nat) : Prop :=
  array.frees = 0 ∧ array.itemsLeft = users ∧ (array.size ≠ 0 → users ≠ 0) ∨
    array.frees = 1 ∧ users = 0

/-- **The invariant of the arrays.** -/
structure KernelArraysInv (s : KernelState) : Prop where
  queues : KernelQueueInv s
  arrayOf : ∀ g, ∀ op ∈ s.flying g, ∃ a < s.arrays.length, (s.ops op).cbArray = some a
  counts : ∀ a array, s.arrays[a]? = some array →
    ∃ g, (∀ g' ≠ g, s.users a g' = 0) ∧ array.Counts (s.users a g)

section Arrays

variable {s next : KernelState} {g groupId err ret : Int32} {op : Nat} {cancelled : Nat → Bool}

theorem mem_flying : op ∈ s.flying g ↔ (s.groups g).Holds op := by
  unfold KernelState.flying Group.Holds
  constructor
  · intro member
    obtain ⟨entry, isEntry, rfl⟩ := List.mem_map.mp member
    exact ⟨entry.1, AList.mem_lookup_iff.mpr isEntry⟩
  · rintro ⟨data, found⟩
    exact List.mem_map.mpr ⟨⟨data, op⟩, AList.mem_lookup_iff.mp found, rfl⟩

theorem flying_of_tracks {pairs : List (UInt64 × Nat)} (tracks : Tracks (s.groups g).inFlight pairs) :
    (s.flying g).Perm (pairs.map (·.2)) := by
  have same := tracks.map fun pair : UInt64 × Nat => pair.2
  rw [List.map_map] at same
  exact same

/-- An operation is taken out of flight by its id. -/
theorem flying_erase {data : UInt64} (found : (s.groups groupId).inFlight.lookup data = some op) :
    (s.flying groupId).Perm (op :: (Function.update s.groups groupId { s.groups groupId with
      inFlight := (s.groups groupId).inFlight.erase data } groupId).inFlight.entries.map (·.2)) := by
  rw [Function.update_self]
  let pairs := (s.groups groupId).inFlight.entries.map fun entry => (entry.1, entry.2)
  have member : (data, op) ∈ pairs :=
    List.mem_map.mpr ⟨⟨data, op⟩, AList.mem_lookup_iff.mp found, rfl⟩
  have tracks : Tracks (s.groups groupId).inFlight ((data, op) :: pairs.erase (data, op)) :=
    List.perm_cons_erase member
  have rest := tracks.erase.map fun pair : UInt64 × Nat => pair.2
  rw [List.map_map] at rest
  exact (flying_of_tracks tracks).trans (rest.symm.cons op)

/-- One operation of an array less. -/
theorem CbArray.Counts.finishOne {array : CbArray} {users users' : Nat} (known : array.Counts users)
    (less : users = users' + 1) : (KernelState.finishOne array).Counts users' := by
  rcases known with ⟨zero, items, _⟩ | ⟨_, none⟩
  · unfold KernelState.finishOne CbArray.Counts
    have left : array.itemsLeft - 1 = users' := by omega
    dsimp only
    rw [left, zero]
    by_cases last : users' = 0
    · exact Or.inr ⟨if_pos last, last⟩
    · exact Or.inl ⟨if_neg last, rfl, fun _ => last⟩
  · omega

/-- Operations in flight that keep their array. -/
theorem users_of_perm (same : (next.flying g).Perm (s.flying g))
    (arrays : ∀ op ∈ s.flying g, (next.ops op).cbArray = (s.ops op).cbArray) (a : Nat) :
    next.users a g = s.users a g := by
  unfold KernelState.users
  rw [same.countP_eq]
  refine List.countP_congr fun op member => ?_
  rw [arrays op member]

/-- A call that takes nothing in or out of flight and makes no array. -/
theorem KernelArraysInv.frame (inv : KernelArraysInv s) (queues : KernelQueueInv next)
    (flying : ∀ g, (next.flying g).Perm (s.flying g))
    (ops : ∀ g, ∀ op ∈ s.flying g, (next.ops op).cbArray = (s.ops op).cbArray)
    (arrays : next.arrays = s.arrays) : KernelArraysInv next where
  queues := queues
  arrayOf g op member := by
    have was := (flying g).subset member
    rw [ops g op was, arrays]
    exact inv.arrayOf g op was
  counts a array found := by
    rw [arrays] at found
    obtain ⟨g, others, counts⟩ := inv.counts a array found
    refine ⟨g, fun g' other => ?_, ?_⟩
    · rw [users_of_perm (flying g') (ops g'), others g' other]
    · rwa [users_of_perm (flying g) (ops g)]

theorem kernelArrays_enqueue (inv : KernelArraysInv s) (idle : s.Idle op) :
    KernelArraysInv (s.enqueue op) := by
  refine inv.frame (kernelQueueInv_enqueue inv.queues idle) (fun g => ?_) (fun _ _ _ => rfl) rfl
  unfold KernelState.flying
  rw [enqueue_inFlight]

/-- The fields of an operation that is not in flight are set, or it is made. -/
theorem kernelArrays_set (inv : KernelArraysInv s) (idle : s.Idle op) (fields : KernelAsyncIop) :
    KernelArraysInv { s with ops := Function.update s.ops op fields } := by
  refine inv.frame ⟨inv.queues.apart, inv.queues.untracked⟩ (fun _ => .refl _)
    (fun g op' member => ?_) rfl
  have ne : op' ≠ op := fun same => by
    obtain ⟨data, found⟩ := mem_flying.mp member
    exact (idle g).2 data (same ▸ found)
  dsimp only
  rw [Function.update_of_ne ne]

/-- **A submit**: the new array is that of all operations that the group then has more. -/
theorem KernelArraysInv.submit (inv : KernelArraysInv s) (queues : KernelQueueInv next)
    {array : CbArray} {new : List Nat} (arrays : next.arrays = s.arrays ++ [array])
    (others : ∀ g ≠ groupId, next.flying g = s.flying g)
    (flying : (next.flying groupId).Perm (s.flying groupId ++ new))
    (ops : ∀ g, ∀ op ∈ s.flying g, (next.ops op).cbArray = (s.ops op).cbArray)
    (isNew : ∀ op ∈ new, (next.ops op).cbArray = some s.arrays.length)
    (counts : array.Counts new.length) : KernelArraysInv next := by
  have old : ∀ g, ∀ op ∈ s.flying g, (next.ops op).cbArray ≠ some s.arrays.length := by
    intro g op member same
    obtain ⟨a, below, isArray⟩ := inv.arrayOf g op member
    rw [ops g op member, isArray, Option.some.injEq] at same
    omega
  have none : ∀ g, (s.flying g).countP (fun op => (next.ops op).cbArray = some s.arrays.length) = 0 :=
    fun g => List.countP_eq_zero.mpr fun op member => by
      rw [decide_eq_true_eq]
      exact old g op member
  refine ⟨queues, fun g op member => ?_, fun a found isFound => ?_⟩
  · have either : op ∈ s.flying g ∨ op ∈ new := by
      by_cases here : g = groupId
      · subst here
        exact List.mem_append.mp (flying.subset member)
      · rw [others g here] at member
        exact Or.inl member
    rw [arrays, List.length_append, List.length_singleton]
    rcases either with was | fresh
    · obtain ⟨a, below, isArray⟩ := inv.arrayOf g op was
      exact ⟨a, Nat.lt_succ_of_lt below, by rw [ops g op was, isArray]⟩
    · exact ⟨s.arrays.length, Nat.lt_succ_self _, isNew op fresh⟩
  · rw [arrays] at isFound
    have either : s.arrays[a]? = some found ∨ a = s.arrays.length ∧ array = found := by
      rcases Nat.lt_or_ge a s.arrays.length with below | above
      · rw [List.getElem?_append_left below] at isFound
        exact Or.inl isFound
      · rw [List.getElem?_append_right above, List.getElem?_singleton] at isFound
        split at isFound
        · next zero => exact Or.inr ⟨by omega, Option.some.inj isFound⟩
        · cases isFound
    rcases either with wasFound | ⟨rfl, rfl⟩
    · have below := (List.getElem?_eq_some_iff.mp wasFound).1
      have same : ∀ g, next.users a g = s.users a g := by
        intro g
        by_cases here : g = groupId
        · subst here
          unfold KernelState.users
          rw [flying.countP_eq, List.countP_append]
          have noNew : new.countP (fun op => (next.ops op).cbArray = some a) = 0 :=
            List.countP_eq_zero.mpr fun op member => by
              rw [decide_eq_true_eq, isNew op member, Option.some.injEq]
              omega
          rw [noNew, Nat.add_zero]
          exact List.countP_congr fun op member => by rw [ops g op member]
        · exact users_of_perm (by rw [others g here]) (ops g) a
      obtain ⟨g, elsewhere, known⟩ := inv.counts a found wasFound
      exact ⟨g, fun g' other => by rw [same, elsewhere g' other], by rwa [same]⟩
    · refine ⟨groupId, fun g' other => ?_, ?_⟩
      · unfold KernelState.users
        rw [others g' other, none]
      · have users : next.users s.arrays.length groupId = new.length := by
          unfold KernelState.users
          rw [flying.countP_eq, List.countP_append, none, Nat.zero_add]
          exact List.countP_eq_length.mpr fun op member => decide_eq_true (isNew op member)
        rwa [users]

theorem kernelArrays_submit (inv : KernelArraysInv s)
    (returns : err.toInt ≤ (s.groups groupId).opQueue.length)
    (done : s.submit groupId err cancelled = some (ret, next)) : KernelArraysInv next := by
  have queues : KernelQueueInv next := by
    rcases returns.lt_or_eq with fails | whole
    · exact kernelQueueInv_fail inv.queues fails done
    · exact kernelQueueInv_submit inv.queues whole done
  have nodup : (s.groups groupId).opQueue.Nodup := inv.queues.apart.queues groupId
  have old : Tracks (s.groups groupId).inFlight
      ((s.groups groupId).inFlight.entries.map fun entry => (entry.1, entry.2)) := List.Perm.refl _
  unfold KernelState.submit at done
  simp only [bind, Option.bind_eq_some_iff] at done
  obtain ⟨filled, loop, done⟩ := done
  obtain ⟨array, others, isNew, tracks⟩ := KernelState.fill_loop nodup rfl old loop
  rw [array] at done
  have ops : ∀ g, ∀ op ∈ s.flying g, (filled.ops op).cbArray = (s.ops op).cbArray :=
    fun g op member => by
      rw [others op fun queued => inv.queues.untracked groupId op queued g (mem_flying.mp member)]
  have elsewhere : ∀ (group : Group), ∀ g ≠ groupId,
      (Function.update s.groups groupId group g).inFlight.entries.map (·.2) = s.flying g :=
    fun group g other => by
      rw [Function.update_of_ne other]
      rfl
  have here : ∀ (group : Group) (new : List (UInt64 × Nat)), Tracks group.inFlight
      ((s.groups groupId).inFlight.entries.map (fun entry => (entry.1, entry.2)) ++ new) →
      ((Function.update s.groups groupId group groupId).inFlight.entries.map (·.2)).Perm
        (s.flying groupId ++ new.map (·.2)) := fun group new tracks => by
    rw [Function.update_self]
    have same := tracks.map fun pair : UInt64 × Nat => pair.2
    rw [List.map_map, List.map_append, List.map_map] at same
    exact same
  split_ifs at done with partly
  · cases done
    have none := tracks.foldl_erase
    rw [← List.append_nil (List.map _ _)] at none
    exact inv.submit queues rfl (elsewhere _) (here _ [] none) ops (fun _ no => by cases no)
      (Or.inr ⟨rfl, rfl⟩)
  · cases done
    have flying := here ⟨[], filled.inFlight, filled.nextFlight⟩ _ tracks
    rw [List.map_map, show (s.groups groupId).opQueue.map
      ((fun pair : UInt64 × Nat => pair.2) ∘ fun op => ((filled.ops op).cb.data, op)) =
        (s.groups groupId).opQueue from List.map_id _] at flying
    refine inv.submit queues rfl (elsewhere _) flying ops isNew (Or.inl ⟨rfl, rfl, id⟩)

/-- **A wait**: the array of the operation counts one less, and is freed with the last one. -/
theorem kernelArrays_wait (inv : KernelArraysInv s) {data : UInt64} {res : Int64}
    (done : s.complete groupId data res = some (op, next)) : KernelArraysInv next := by
  have queues := kernelQueueInv_wait inv.queues done
  obtain ⟨found, a, array, isArray, inArrays, rfl⟩ := KernelState.complete_some done
  have keeps : ∀ op', (Function.update s.ops op { s.ops op with result := res.toInt32 } op').cbArray =
      (s.ops op').cbArray := fun op' => by
    by_cases here : op' = op
    · rw [here, Function.update_self]
    · rw [Function.update_of_ne here]
  generalize isNext : ({ s with
    ops := Function.update s.ops op { s.ops op with result := res.toInt32 }
    arrays := s.arrays.set a (KernelState.finishOne array)
    groups := Function.update s.groups groupId { s.groups groupId with
      inFlight := (s.groups groupId).inFlight.erase data } } : KernelState) = next at queues
  have ops : ∀ op', (next.ops op').cbArray = (s.ops op').cbArray := by
    rw [← isNext]
    exact keeps
  have arrays : next.arrays = s.arrays.set a (KernelState.finishOne array) := by rw [← isNext]
  have others : ∀ g ≠ groupId, next.flying g = s.flying g := fun g other => by
    rw [← isNext]
    unfold KernelState.flying
    dsimp only
    rw [Function.update_of_ne other]
  have taken : (s.flying groupId).Perm (op :: next.flying groupId) := by
    rw [← isNext]
    exact flying_erase found
  have users : ∀ a', s.users a' groupId =
      next.users a' groupId + if (s.ops op).cbArray = some a' then 1 else 0 := fun a' => by
    unfold KernelState.users
    simp only [ops]
    rw [taken.countP_eq, List.countP_cons]
    simp only [decide_eq_true_eq]
  have usersElse : ∀ g ≠ groupId, ∀ a', next.users a' g = s.users a' g := fun g other a' =>
    users_of_perm (by rw [others g other]) (fun op' _ => ops op') a'
  refine ⟨queues, fun g op' member => ?_, fun a' array' isFound => ?_⟩
  · rw [arrays, List.length_set, ops]
    by_cases here : g = groupId
    · subst here
      exact inv.arrayOf g op' (taken.symm.subset (List.mem_cons_of_mem _ member))
    · rw [others g here] at member
      exact inv.arrayOf g op' member
  · rw [arrays] at isFound
    by_cases here : a' = a
    · subst here
      have below := (List.getElem?_eq_some_iff.mp inArrays).1
      rw [List.getElem?_set_self below, Option.some.injEq] at isFound
      subst isFound
      have used := users a'
      rw [if_pos isArray] at used
      obtain ⟨g, elsewhere, known⟩ := inv.counts a' array inArrays
      have same : groupId = g := by
        by_contra other
        have none := elsewhere groupId other
        omega
      subst same
      refine ⟨groupId, fun g' other => by rw [usersElse g' other, elsewhere g' other], ?_⟩
      exact known.finishOne used
    · rw [List.getElem?_set_ne (Ne.symm here)] at isFound
      obtain ⟨g, elsewhere, known⟩ := inv.counts a' array' isFound
      have same : ∀ g', next.users a' g' = s.users a' g' := fun g' => by
        by_cases atGroup : g' = groupId
        · subst atGroup
          have used := users a'
          rw [isArray, if_neg fun no => here (Option.some.inj no).symm, Nat.add_zero] at used
          exact used.symm
        · exact usersElse g' atGroup a'
      exact ⟨g, fun g' other => by rw [same, elsewhere g' other], by rwa [same]⟩

end Arrays

/-! ### All sequences of calls -/

/-- **No array is freed twice, and none while an operation in a map of those in flight points to it**; that
of a submit of at least one operation is freed when it has none there. -/
structure KernelArraysSound (s : KernelState) : Prop where
  once : ∀ (a : Nat) (array : CbArray), s.arrays[a]? = some array → array.frees ≤ 1
  used : ∀ g, ∀ op ∈ s.flying g, ∃ (a : Nat) (array : CbArray), (s.ops op).cbArray = some a ∧
    s.arrays[a]? = some array ∧ array.frees = 0 ∧ array.itemsLeft = s.users a g ∧
    ∀ g' ≠ g, s.users a g' = 0
  freed : ∀ (a : Nat) (array : CbArray), s.arrays[a]? = some array → array.size ≠ 0 →
    (array.frees = 1 ↔ ∀ g, s.users a g = 0)

theorem KernelArraysInv.sound {s : KernelState} (inv : KernelArraysInv s) : KernelArraysSound s := by
  refine ⟨fun a array found => ?_, fun g op member => ?_, fun a array found nonempty => ?_⟩
  · obtain ⟨_, _, ⟨zero, _⟩ | ⟨one, _⟩⟩ := inv.counts a array found <;> omega
  · obtain ⟨a, below, isArray⟩ := inv.arrayOf g op member
    have found := List.getElem?_eq_getElem below
    have used : s.users a g ≠ 0 := by
      unfold KernelState.users
      exact (List.countP_pos_iff.mpr ⟨op, member, decide_eq_true isArray⟩).ne'
    obtain ⟨g', elsewhere, known⟩ := inv.counts a _ found
    have same : g = g' := by
      by_contra other
      exact used (elsewhere g other)
    subst same
    rcases known with ⟨zero, items, _⟩ | ⟨_, none⟩
    · exact ⟨a, _, isArray, found, zero, items, elsewhere⟩
    · exact absurd none used
  · obtain ⟨g, elsewhere, known⟩ := inv.counts a array found
    constructor
    · intro one g'
      by_cases here : g' = g
      · rcases known with ⟨zero, _⟩ | ⟨_, none⟩
        · omega
        · rw [here, none]
      · exact elsewhere g' here
    · intro none
      rcases known with ⟨_, _, some⟩ | ⟨one, _⟩
      · exact absurd (none g) (some nonempty)
      · exact one

theorem kernelArraysInv_initial (ops : Nat → KernelAsyncIop) : KernelArraysInv { ops } where
  queues := kernelQueueInv_reachable (.of_init ⟨ops, rfl⟩)
  arrayOf _ _ member := by cases member
  counts _ _ found := by cases found

/-- **The arrays are sound** in every sequence of calls on any number of groups, whichever submits fail
and whichever cancels do not succeed. -/
theorem kernelArrays_reachable {s : KernelState} (reached : Reachable kernelFaultSystem s) :
    KernelArraysSound s := by
  refine KernelArraysInv.sound (reached.invariant (fun _ isInit => ?_) fun s call next inv step => ?_)
  · obtain ⟨ops, rfl⟩ := isInit
    exact kernelArraysInv_initial ops
  · cases step with
    | call step =>
      cases step with
      | enqueue idle => exact kernelArrays_enqueue inv idle
      | submit whole done => exact kernelArrays_submit inv whole.le done
      | wait _ done =>
        have after := kernelArrays_wait inv done
        exact after.frame ⟨after.queues.apart, after.queues.untracked⟩ (fun _ => .refl _)
          (fun _ _ _ => rfl) rfl
      | set idle => exact kernelArrays_set inv idle _
    | fail fails done => exact kernelArrays_submit inv fails.le done

/-- The first of two operations is accepted and not cancelled, then both are: one array is freed, and the
other one has its two operations. -/
theorem twoQueued_arrays : ∃ s : KernelState, s.arrays.map (fun array => (array.size, array.frees)) =
    [(2, 1), (2, 0)] ∧ KernelArraysSound s := by
  have first := twoQueued_reachable.step
    (@KernelFaultStep.fail twoQueued 0 1 (fun _ => false) _ _ (by decide) rfl)
  have second := first.step (.call (@KernelStep.submit _ 0 2 (fun _ => false) _ _ rfl rfl))
  exact ⟨_, rfl, kernelArrays_reachable second⟩

/-! ### All runs of the threads -/

section Threads

variable {s next : KernelState} {st : Int32 → Standing} {g : Int32} {standing : Standing} {n : Nat}

/-- What a group has queued and in flight. -/
def KernelState.InPlace (s : KernelState) (g : Int32) (place : List Nat) : Prop :=
  ∀ op, op ∈ (s.groups g).opQueue ∨ op ∈ s.flying g → op ∈ place

theorem KernelStands.inPlace (stands : KernelStands s g standing) : s.InPlace g standing.place := by
  rintro op (queued | flying)
  · rw [stands.queue] at queued
    exact List.mem_append_left _ queued
  · have same := flying_of_tracks stands.tracks
    unfold KernelState.heldFor at same
    rw [List.map_map] at same
    exact List.mem_append_right _ (stands.flying.subset (same.subset flying))

/-- **The arrays are sound, and the groups stand as they do**, the failed ones too. -/
structure KernelArraysHold (s : KernelState) (st : Int32 → Standing) : Prop where
  stands : KernelHolds s st
  arrays : KernelArraysInv s
  lost : ∀ g, (st g).activity = .failed → s.InPlace g (st g).place

theorem KernelArraysHold.inPlace (hold : KernelArraysHold s st) (g : Int32) :
    s.InPlace g (st g).place := by
  by_cases failed : (st g).activity = .failed
  · exact hold.lost g failed
  · exact (hold.stands.stands g failed).inPlace

theorem KernelArraysHold.idle (hold : KernelArraysHold s st) (free : ∀ g, n ∉ (st g).place) :
    s.Idle n := fun g =>
  ⟨fun queued => free g (hold.inPlace g n (Or.inl queued)),
    fun data found => free g (hold.inPlace g n (Or.inr (mem_flying.mpr ⟨data, found⟩)))⟩

/-- A group that moves without failing, while the others stay as they are. -/
theorem KernelArraysHold.move (hold : KernelArraysHold s st) (arrays : KernelArraysInv next)
    (stands : KernelHolds next (Function.update st g standing)) (alive : standing.activity ≠ .failed)
    (groups : ∀ g' ≠ g, next.groups g' = s.groups g') :
    KernelArraysHold next (Function.update st g standing) where
  stands := stands
  arrays := arrays
  lost g' failed := by
    by_cases here : g' = g
    · subst here
      rw [Function.update_self] at failed
      exact absurd failed alive
    · rw [Function.update_of_ne here] at failed ⊢
      have was := hold.lost g' failed
      unfold KernelState.InPlace KernelState.flying at was ⊢
      rwa [groups g' here]

theorem kernelArraysHold_submit (hold : KernelArraysHold s st) {q f : List Nat} {err ret : Int32}
    {cancelled : Nat → Bool} (here : st g = ⟨.submitting, q, f⟩)
    (returns : IoSubmitReturns (s.groups g).opQueue.length err)
    (done : s.submit g err cancelled = some (ret, next)) :
    (ret = 0 ∧ ∃ f', f'.Perm (q ++ f) ∧
        KernelArraysHold next (Function.update st g ⟨.outside, [], f'⟩)) ∨
      (ret ≠ 0 ∧ KernelArraysHold next (Function.update st g ⟨.failed, q, f⟩)) := by
  have arrays := kernelArrays_submit hold.arrays returns.1 done
  have groups := (submit_frame done).1.groups
  rcases kernelHolds_submit hold.stands here returns done with ⟨zero, f', kept, stands⟩ |
    ⟨failed, stands⟩
  · exact Or.inl ⟨zero, f', kept, hold.move arrays stands (by simp) groups⟩
  · refine Or.inr ⟨failed, stands, arrays, fun g' isFailed => ?_⟩
    by_cases same : g' = g
    · subst same
      have was := hold.inPlace g'
      rw [here] at was
      rw [Function.update_self]
      have part : err.toInt < (s.groups g').opQueue.length := by
        refine returns.1.lt_of_ne fun whole => failed ?_
        have nodup : (s.groups g').opQueue.Nodup := hold.arrays.queues.apart.queues g'
        obtain ⟨_, _, _, zero, _⟩ := KernelState.submit_accepted whole nodup
          (List.Perm.refl _ : Tracks (s.groups g').inFlight _) done
        exact zero
      obtain ⟨_, ⟨group, isGroup, queue⟩, holds⟩ := submit_failed hold.arrays.queues part done
      rintro op (queued | flying)
      · rw [isGroup, Function.update_self, queue] at queued
        exact was op (Or.inl queued)
      · exact was op (Or.inr (mem_flying.mpr (holds op (mem_flying.mp flying))))
    · rw [Function.update_of_ne same] at isFailed ⊢
      have was := hold.lost g' isFailed
      unfold KernelState.InPlace KernelState.flying at was ⊢
      rwa [groups g' same]

theorem kernelArraysHold_wait (hold : KernelArraysHold s st) {q f : List Nat} {op : Option Nat}
    (here : st g = ⟨.waiting, q, f⟩) (returned : KernelWaitReturns s g op next) :
    ∃ n f', op = some n ∧ f.Perm (n :: f') ∧
      KernelArraysHold next (Function.update st g ⟨.outside, q, f'⟩) := by
  obtain ⟨n, f', isOp, split, stands⟩ := kernelHolds_wait hold.stands here returned
  refine ⟨n, f', isOp, split, ?_⟩
  cases returned with
  | null => cases isOp
  | @found r before after res op next held isGroup done =>
    have after' := kernelArrays_wait hold.arrays done
    refine hold.move (after'.frame ⟨after'.queues.apart, after'.queues.untracked⟩
      (fun _ => .refl _) (fun _ _ _ => rfl) rfl) stands (by simp) fun g' other => ?_
    obtain ⟨_, _, _, _, _, rfl⟩ := KernelState.complete_some done
    exact Function.update_of_ne other _ _

/-- **The libaio engine keeps its arrays sound** with what it promises. -/
def lawfulKernelArrays : LawfulManager kernelAsyncIOManager :=
  { lawfulKernel with
    Holds := KernelArraysHold
    apart := fun hold => hold.stands.apart
    requests := fun hold => lawfulKernel.requests hold.stands
    requests_place := fun hold => lawfulKernel.requests_place hold.stands
    init := fun isInit => by
      obtain ⟨ops, rfl⟩ := isInit
      exact ⟨kernelHolds_init ops, kernelArraysInv_initial ops, fun _ failed => by cases failed⟩
    store := fun op hold free => ⟨kernelHolds_store hold.stands op free,
      kernelArrays_set hold.arrays (hold.idle free) op, hold.lost⟩
    enqueue := fun {s} {st} {g} {n} {q} {f} hold here isGroup free => by
      refine hold.move (kernelArrays_enqueue hold.arrays (hold.idle free))
        (kernelHolds_enqueue hold.stands here isGroup free) (by simp) fun g' other => ?_
      have isGroup' : (s.ops n).groupId = g := isGroup
      show (s.enqueue n).groups g' = s.groups g'
      unfold KernelState.enqueue
      dsimp only
      rw [isGroup', Function.update_of_ne other]
    callSubmit := fun hold here =>
      hold.move hold.arrays (kernelHolds_call hold.stands here (by simp)) (by simp) fun _ _ => rfl
    callWait := fun hold here =>
      hold.move hold.arrays (kernelHolds_call hold.stands here (by simp)) (by simp) fun _ _ => rfl
    insideSubmit := fun _ _ step => step.elim
    insideWait := fun _ _ step => step.elim
    submitReturns := fun hold here returned => by
      obtain ⟨err, cancelled, sound, done⟩ := returned
      exact kernelArraysHold_submit hold here sound done
    waitReturns := fun hold here returned => kernelArraysHold_wait hold here returned
    device := fun _ step => step.elim }

end Threads

/-- **The arrays are sound at any moment of any run of a job's threads**, whichever submits fail. -/
theorem work_arrays {Engine : Type} {job : JobOptions} {opened : UInt32 → Nat → JobOptions.Opened}
    {params : List ThreadParams} {dist : UniformInt Engine}
    {s : WorkState kernelAsyncIOManager Engine} (created : job.createThreads opened = some params)
    (reached : Reachable (workSystem kernelAsyncIOManager dist job.targets params) s) :
    KernelArraysSound s.engine := by
  obtain ⟨_, _, _, _, inv⟩ := (workProphecy lawfulKernelArrays dist job.targets
    (createThreads_distinctGroups created)).reachable reached fun _ => false
  exact inv.holds.arrays.sound

/-- The kernel took one operation of the second thread, whose array is freed; that of the first is in
use. -/
theorem pairJob_arrays : ∃ s : WorkState kernelAsyncIOManager Unit,
    (s.workers 1).place = .outside .aborted ∧
      s.engine.arrays.map (fun array => (array.array, array.frees)) = [([0, 1], 0), ([2, 3], 1)] ∧
      KernelArraysSound s.engine := by
  obtain ⟨_, _, s, _, _, reached, failed, _, arrays⟩ :=
    pairJob_works (fun low _ engine => (low, engine)) ()
  exact ⟨s, failed, arrays, work_arrays pairJob_created reached⟩

end DiskSpd
