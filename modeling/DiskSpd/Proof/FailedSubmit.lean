/-
**What a failed submit does to the queued operations.**

* `KernelKeepsAll`, `PosixKeepsAll` — nothing is lost: an operation the kernel accepted and did not cancel
  is tracked and no longer queued, every other one is still queued, and the caller is told.
* `kernelQueueInv_reachable` — in every run of the libaio engine, failures included, a queued operation is
  in one queue and in no map of operations in flight.
* `submit_failed` — a failed submit of the libaio engine leaves the queue and the map as they were.
* `posix_submit` — the POSIX engine starts the operations from the back of the queue, and drops the one
  whose start fails.
* `failedSubmit_iff` — so the libaio engine keeps all if and only if it reports the failure and could cancel
  what was accepted, and the POSIX engine if and only if there was no failure.
-/

import DiskSpd.Proof.KernelAio
import DiskSpd.Proof.PosixAio

namespace DiskSpd

open Dispatch IdPool Transition

/-! ### libaio -/

/-- An operation is in the map of its group. -/
def Group.Holds (group : Group) (op : Nat) : Prop :=
  ∃ data, group.inFlight.lookup data = some op

/-- **A queued operation is in one queue only, and not in flight.** -/
structure KernelQueueInv (s : KernelState) : Prop where
  apart : Apart (Group.opQueue ∘ s.groups)
  untracked : ∀ g, ∀ op ∈ (s.groups g).opQueue, ∀ g', ¬ (s.groups g').Holds op

/-- **The failed submit of a group loses nothing.** -/
structure KernelKeepsAll (s next : KernelState) (groupId err : Int32) (cancelled : Nat → Bool)
    (ret : Int32) : Prop where
  reported : ret ≠ 0
  accepted : ∀ (i : Nat) (op : Nat), (s.groups groupId).opQueue[i]? = some op →
    (i : Int) < err.toInt → cancelled i = false →
    (next.groups groupId).inFlight.lookup (next.ops op).cb.data = some op ∧
      op ∉ (next.groups groupId).opQueue
  refused : ∀ (i : Nat) (op : Nat), (s.groups groupId).opQueue[i]? = some op →
    err.toInt ≤ (i : Int) → op ∈ (next.groups groupId).opQueue
  onePlace : ∀ op ∈ (s.groups groupId).opQueue,
    (op ∈ (next.groups groupId).opQueue ↔ ¬ (next.groups groupId).Holds op)

section Kernel

variable {s next : KernelState} {groupId err ret : Int32} {cancelled : Nat → Bool}

theorem lookup_foldl_erase {keys : Nat → UInt64} {ops : List Nat}
    {pool : AList fun _ : UInt64 => Nat} {id : UInt64} {op : Nat}
    (found : (ops.foldl (fun pool op => pool.erase (keys op)) pool).lookup id = some op) :
    pool.lookup id = some op ∧ ∀ op' ∈ ops, keys op' ≠ id := by
  induction ops generalizing pool with
  | nil => exact ⟨found, fun _ member => by cases member⟩
  | cons op' ops ih =>
    obtain ⟨found, rest⟩ := ih found
    have ne : keys op' ≠ id := fun same => by
      rw [← same, AList.lookup_erase] at found
      cases found
    rw [AList.lookup_erase_ne (Ne.symm ne)] at found
    refine ⟨found, fun other member => ?_⟩
    rcases List.mem_cons.mp member with rfl | member
    · exact ne
    · exact rest other member

/-- **A submit that fails**: what it returns, and that the queue and the map are as they were. -/
theorem submit_failed (inv : KernelQueueInv s)
    (fails : err.toInt < (s.groups groupId).opQueue.length)
    (done : s.submit groupId err cancelled = some (ret, next)) :
    ret = err ∧ (∃ group, next.groups = Function.update s.groups groupId group ∧
      group.opQueue = (s.groups groupId).opQueue) ∧
      ∀ op, (next.groups groupId).Holds op → (s.groups groupId).Holds op := by
  unfold KernelState.submit at done
  simp only [bind, Option.bind_eq_some_iff] at done
  obtain ⟨filled, loop, done⟩ := done
  rw [if_pos (by omega)] at done
  have old : IdPool.Tracks (s.groups groupId).inFlight
      ((s.groups groupId).inFlight.entries.map fun entry => (entry.1, entry.2)) :=
    List.Perm.refl _
  obtain ⟨array, _, _, tracks⟩ := KernelState.fill_loop (inv.apart.queues groupId) rfl old loop
  cases done
  refine ⟨rfl, ⟨_, rfl, rfl⟩, fun op tracked => ?_⟩
  dsimp only at tracked
  rw [Function.update_self, array] at tracked
  obtain ⟨id, found⟩ := tracked
  obtain ⟨inFilled, notNew⟩ := lookup_foldl_erase found
  rcases List.mem_append.mp (tracks.mem_of_lookup inFilled) with isOld | isNew
  · obtain ⟨entry, inOld, same⟩ := List.mem_map.mp isOld
    cases same
    exact ⟨entry.1, AList.mem_lookup_iff.mpr inOld⟩
  · obtain ⟨op', queued, same⟩ := List.mem_map.mp isNew
    cases same
    exact absurd rfl (notNew op queued)

theorem kernelQueueInv_submit (inv : KernelQueueInv s)
    (whole : err.toInt = (s.groups groupId).opQueue.length)
    (done : s.submit groupId err cancelled = some (ret, next)) : KernelQueueInv next := by
  have old : IdPool.Tracks (s.groups groupId).inFlight
      ((s.groups groupId).inFlight.entries.map fun entry => (entry.1, entry.2)) :=
    List.Perm.refl _
  obtain ⟨ops, inFlight, nextFlight, _, _, _, tracks, rfl⟩ :=
    KernelState.submit_accepted whole (inv.apart.queues groupId) old done
  -- what is in flight now was before, or was queued
  have origin : ∀ g op, ((Function.update s.groups groupId
      { opQueue := [], inFlight := inFlight, nextFlight := nextFlight }) g).Holds op →
      (s.groups g).Holds op ∨ op ∈ (s.groups groupId).opQueue := by
    intro g op held
    by_cases here : g = groupId
    · rw [here, Function.update_self] at held
      obtain ⟨id, found⟩ := held
      rcases List.mem_append.mp (tracks.mem_of_lookup found) with isOld | isNew
      · obtain ⟨entry, inOld, same⟩ := List.mem_map.mp isOld
        cases same
        rw [here]
        exact Or.inl ⟨entry.1, AList.mem_lookup_iff.mpr inOld⟩
      · obtain ⟨op', queued, same⟩ := List.mem_map.mp isNew
        cases same
        exact Or.inr queued
    · rw [Function.update_of_ne here] at held
      exact Or.inl held
  refine ⟨?_, fun g op queued g' held => ?_⟩
  · dsimp only
    rw [Function.comp_update]
    exact inv.apart.update List.nil_subperm
  · dsimp only at queued
    by_cases here : g = groupId
    · rw [here, Function.update_self] at queued
      cases queued
    · rw [Function.update_of_ne here] at queued
      rcases origin g' op held with was | moved
      · exact inv.untracked g op queued g' was
      · exact here (inv.apart.apart g groupId op queued moved)

theorem kernelQueueInv_fail (inv : KernelQueueInv s)
    (fails : err.toInt < (s.groups groupId).opQueue.length)
    (done : s.submit groupId err cancelled = some (ret, next)) : KernelQueueInv next := by
  obtain ⟨_, ⟨group, groups, queue⟩, held⟩ := submit_failed inv fails done
  have queues : ∀ g, (next.groups g).opQueue = (s.groups g).opQueue := fun g => by
    rw [groups]
    by_cases here : g = groupId
    · rw [here, Function.update_self, queue]
    · rw [Function.update_of_ne here]
  refine ⟨?_, fun g op queued g' isHeld => ?_⟩
  · have same : Group.opQueue ∘ next.groups = Group.opQueue ∘ s.groups := funext queues
    rw [same]
    exact inv.apart
  · rw [queues] at queued
    refine inv.untracked g op queued g' ?_
    by_cases here : g' = groupId
    · subst here
      exact held op isHeld
    · rw [groups, Function.update_of_ne here] at isHeld
      exact isHeld

theorem kernelQueueInv_wait (inv : KernelQueueInv s) {data : UInt64} {res : Int64} {op : Nat}
    (done : s.complete groupId data res = some (op, next)) : KernelQueueInv next := by
  obtain ⟨_, _, _, _, _, rfl⟩ := KernelState.complete_some done
  have queues : Group.opQueue ∘ Function.update s.groups groupId
      { s.groups groupId with inFlight := (s.groups groupId).inFlight.erase data } =
      Group.opQueue ∘ s.groups := by
    rw [Function.comp_update]
    exact Function.update_eq_self groupId (Group.opQueue ∘ s.groups)
  refine ⟨?_, fun g op queued g' held => ?_⟩
  · dsimp only
    rw [queues]
    exact inv.apart
  · have was : op ∈ (s.groups g).opQueue := by
      show op ∈ (Group.opQueue ∘ s.groups) g
      rw [← queues]
      exact queued
    refine inv.untracked g op was g' ?_
    obtain ⟨id, found⟩ := held
    dsimp only at found
    by_cases here : g' = groupId
    · rw [here, Function.update_self] at found
      have ne : id ≠ data := fun same => by
        rw [same, AList.lookup_erase] at found
        cases found
      rw [AList.lookup_erase_ne ne] at found
      exact ⟨id, here ▸ found⟩
    · rw [Function.update_of_ne here] at found
      exact ⟨id, found⟩

theorem kernelQueueInv_enqueue (inv : KernelQueueInv s) {op : Nat} (idle : s.Idle op) :
    KernelQueueInv (s.enqueue op) := by
  refine ⟨?_, fun g op' queued g' held => ?_⟩
  · unfold KernelState.enqueue
    dsimp only
    rw [Function.comp_update]
    exact inv.apart.grow (x := op) (fun g => (idle g).1) (List.perm_append_singleton op _)
  · have was : (s.groups g').Holds op' := by
      obtain ⟨id, found⟩ := held
      rw [enqueue_inFlight] at found
      exact ⟨id, found⟩
    have isQueued : op' ∈ (s.enqueue op).queue g := queued
    rw [enqueue_queue] at isQueued
    rcases Once.mem_update isQueued with old | ⟨rfl, here⟩
    · exact inv.untracked g op' old g' was
    · rcases List.mem_append.mp here with old | single
      · exact inv.untracked _ op' old g' was
      · rw [List.mem_singleton.mp single] at was
        obtain ⟨id, found⟩ := was
        exact (idle g').2 id found

theorem kernelQueueInv_step (inv : KernelQueueInv s) {call : KernelCall}
    (step : KernelFaultStep s call next) : KernelQueueInv next := by
  cases step with
  | call step =>
    cases step with
    | enqueue idle => exact kernelQueueInv_enqueue inv idle
    | submit whole done => exact kernelQueueInv_submit inv whole done
    | wait _ done =>
      obtain ⟨apart, untracked⟩ := kernelQueueInv_wait inv done
      exact ⟨apart, untracked⟩
    | set => exact ⟨inv.apart, inv.untracked⟩
  | fail fails done => exact kernelQueueInv_fail inv fails done

theorem kernelQueueInv_reachable (reached : Reachable kernelFaultSystem s) : KernelQueueInv s := by
  refine reached.invariant (fun _ isInit => ?_) fun _ _ _ inv step => kernelQueueInv_step inv step
  obtain ⟨ops, rfl⟩ := isInit
  exact ⟨.empty, fun _ _ queued => by cases queued⟩

/-- **A failed submit of the libaio engine** loses nothing if and only if it reports the failure and
every operation that was accepted could be cancelled. -/
theorem kernelKeepsAll_iff (inv : KernelQueueInv s)
    (fails : err.toInt < (s.groups groupId).opQueue.length)
    (done : s.submit groupId err cancelled = some (ret, next)) :
    KernelKeepsAll s next groupId err cancelled ret ↔
      err ≠ 0 ∧ ∀ i : Nat, (i : Int) < err.toInt → cancelled i = true := by
  obtain ⟨rfl, ⟨group, groups, same⟩, held⟩ := submit_failed inv fails done
  have queue : (next.groups groupId).opQueue = (s.groups groupId).opQueue := by
    rw [groups, Function.update_self, same]
  constructor
  · intro keeps
    refine ⟨keeps.reported, fun i below => Bool.eq_true_of_not_eq_false fun kept => ?_⟩
    have inside : i < (s.groups groupId).opQueue.length := by omega
    obtain ⟨_, notQueued⟩ := keeps.accepted i _ (List.getElem?_eq_getElem inside) below kept
    rw [queue] at notQueued
    exact notQueued (List.getElem_mem inside)
  · rintro ⟨reported, all⟩
    refine ⟨reported, fun i op _ below kept => ?_, fun i op found _ => ?_, fun op queued => ?_⟩
    · rw [all i below] at kept
      cases kept
    · rw [queue]
      exact List.mem_of_getElem? found
    · rw [queue]
      exact iff_of_true queued fun isHeld => inv.untracked groupId op queued groupId (held op isHeld)

end Kernel

/-! ### POSIX aio -/

/-- An operation is in flight and found by the flight id in its control block. -/
def PosixState.Holds (s : PosixState) (g : Int32) (op : Nat) : Prop :=
  op ∈ (s.groups g).flying ∧ s.suspendInFlight.lookup (s.flightId op) = some op

/-- **The submit of a group loses nothing**, where the operations of `new` were accepted. -/
structure PosixKeepsAll (s next : PosixState) (g : Int32) (new : List Nat) (ret : Int32) : Prop where
  reported : new.length < (s.groups g).queue.length → ret ≠ 0
  accepted : ∀ op ∈ new, next.Holds g op ∧ op ∉ (next.groups g).queue
  refused : ∀ op ∈ (s.groups g).queue, op ∉ new → op ∈ (next.groups g).queue
  onePlace : ∀ op ∈ (s.groups g).queue, (op ∈ (next.groups g).queue ↔ ¬ next.Holds g op)

section Posix

variable {s next : PosixState} {g : Int32} {ret : Int32} {rets : List Int32}

/-- The three ways on of a round of the loop of `submit`. -/
theorem submit_cases {first : Int32}
    (done : PosixState.submit g (first :: rets) s = some (ret, next)) :
    (s.groups g).queue = [] ∧ ret = 0 ∧ next = s.setGroup g { s.groups g with
      submitted := (s.groups g).submitted ++ [0], pc := .idle } ∨
    (∃ rest op, (s.groups g).queue = rest ++ [op] ∧ first ≠ 0 ∧ ret = first ∧
      next = s.setGroup g { s.groups g with
        queue := rest, submitted := (s.groups g).submitted ++ [first], pc := .idle }) ∨
    ∃ rest op started middle, (s.groups g).queue = rest ++ [op] ∧ first = 0 ∧
      s.start g first = started ∧ started.groups g = { s.groups g with
        queue := rest
        suspendVec := (s.groups g).suspendVec ++ [op]
        accepted := (s.groups g).accepted ++ [op]
        pc := .registering op } ∧
      started.register g op = some middle ∧ PosixState.submit g rets middle = some (ret, next) := by
  unfold PosixState.submit at done
  dsimp only at done
  cases last : (s.groups g).queue.getLast? with
  | none =>
    have start : s.start g first = s.setGroup g { s.groups g with
        submitted := (s.groups g).submitted ++ [0], pc := .idle } := by
      unfold PosixState.start
      simp only [last]
    rw [start] at done
    unfold PosixState.setGroup at done
    simp only [Function.update_self, List.getLast?_concat, Option.map_some, Option.some.injEq,
      Prod.mk.injEq] at done
    exact Or.inl ⟨List.getLast?_eq_none_iff.mp last, done.1.symm, done.2.symm⟩
  | some op =>
    have split : (s.groups g).queue = (s.groups g).queue.dropLast ++ [op] :=
      (List.dropLast_append_getLast? op last).symm
    refine Or.inr ?_
    by_cases failed : first ≠ 0
    · have start : s.start g first = s.setGroup g { s.groups g with
          queue := (s.groups g).queue.dropLast
          submitted := (s.groups g).submitted ++ [first]
          pc := .idle } := by
        unfold PosixState.start
        simp only [last]
        rw [if_pos failed]
      rw [start] at done
      unfold PosixState.setGroup at done
      simp only [Function.update_self, List.getLast?_concat, Option.map_some, Option.some.injEq,
        Prod.mk.injEq] at done
      exact Or.inl ⟨_, op, split, failed, done.1.symm, done.2.symm⟩
    · have group : (s.start g first).groups g = { s.groups g with
          queue := (s.groups g).queue.dropLast
          suspendVec := (s.groups g).suspendVec ++ [op]
          accepted := (s.groups g).accepted ++ [op]
          pc := .registering op } := by
        unfold PosixState.start
        simp only [last]
        rw [if_neg failed]
        exact Function.update_self g _ _
      rw [group] at done
      obtain ⟨middle, registered, done⟩ := Option.bind_eq_some_iff.mp done
      exact Or.inr ⟨_, op, _, middle, split, not_not.mp failed, rfl, group, registered, done⟩

/-- What the critical section of `submit` leaves of its group. -/
theorem register_group {op : Nat} (done : s.register g op = some next) :
    next.groups g = { s.groups g with pc := .submitting } := by
  unfold PosixState.register at done
  obtain ⟨id, _, rfl⟩ := Option.map_eq_some_iff.mp done
  exact Function.update_self g _ _

/-- What the loop of `submit` has done when it returns. -/
structure PosixSubmitted (s next : PosixState) (g : Int32) (rets : List Int32) (ret : Int32)
    (new : List Nat) : Prop where
  inv : PosixInv next
  pc : (next.groups g).pc = .idle
  vec : (next.groups g).suspendVec = (s.groups g).suspendVec ++ new
  succeeded : ∀ i < new.length, rets[i]? = some 0
  queue : ret = 0 ∧ (s.groups g).queue = new.reverse ∧ (next.groups g).queue = [] ∨
    ret ≠ 0 ∧ rets[new.length]? = some ret ∧
      ∃ rest op, (s.groups g).queue = rest ++ [op] ++ new.reverse ∧ (next.groups g).queue = rest

/-- **The loop of `submit`** takes the operations from the back of the queue, up to the first failure. -/
theorem posix_submit (inv : PosixInv s) (pc : (s.groups g).pc = .submitting)
    (done : PosixState.submit g rets s = some (ret, next)) :
    ∃ new, PosixSubmitted s next g rets ret new := by
  induction rets generalizing s with
  | nil => cases done
  | cons first rets ih =>
    have plain : (s.groups g).pc.Plain := .of_eq pc trivial
    have atGroup : ∀ group : PosixGroup, (s.setGroup g group).groups g = group := fun group => by
      unfold PosixState.setGroup
      exact Function.update_self g group s.groups
    rcases submit_cases done with ⟨empty, rfl, rfl⟩ | ⟨rest, op, queue, failed, rfl, rfl⟩ |
      ⟨rest, op, started, middle, queue, rfl, rfl, group, registered, done⟩
    · refine ⟨[], ?_, ?_, ?_, fun i below => absurd below (Nat.not_lt_zero i),
        Or.inl ⟨rfl, empty, ?_⟩⟩
      · exact inv.goto plain (List.Sublist.refl _) trivial nofun nofun
      · rw [atGroup]
      · rw [atGroup, List.append_nil]
      · rw [atGroup]
        exact empty
    · refine ⟨[], ?_, ?_, ?_, fun i below => absurd below (Nat.not_lt_zero i),
        Or.inr ⟨failed, rfl, rest, op, ?_, ?_⟩⟩
      · have part : rest.Sublist (s.groups g).queue := by
          rw [queue]
          exact List.sublist_append_left rest [op]
        exact inv.goto plain part trivial nofun nofun
      · rw [atGroup]
      · rw [atGroup, List.append_nil]
      · rw [queue, List.reverse_nil, List.append_nil]
      · rw [atGroup]
    · have started := inv.start pc 0
      have registering : ((s.start g 0).groups g).pc = .registering op := by
        rw [group]
      have middleGroup := register_group registered
      rw [group] at middleGroup
      obtain ⟨new, submitted⟩ := ih (started.register registering registered)
        (by rw [middleGroup]) done
      refine ⟨op :: new, submitted.inv, submitted.pc, ?_, fun i below => ?_, ?_⟩
      · rw [submitted.vec, middleGroup]
        exact List.append_assoc _ [op] new
      · cases i with
        | zero => rfl
        | succ i => exact submitted.succeeded i (by rw [List.length_cons] at below; omega)
      · have here : (middle.groups g).queue = rest := by
          rw [middleGroup]
        rw [queue, List.reverse_cons, List.length_cons]
        rcases submitted.queue with ⟨rfl, all, left⟩ | ⟨failed, last, rest', op', split, left⟩
        · refine Or.inl ⟨rfl, ?_, left⟩
          rw [← here, all]
        · refine Or.inr ⟨failed, last, rest', op', ?_, left⟩
          rw [← here, split, List.append_assoc (rest' ++ [op'])]

/-- **A submit of the POSIX engine** loses nothing if and only if no start of an operation fails. -/
theorem posixKeepsAll_iff (inv : PosixInv s) (pc : (s.groups g).pc = .submitting)
    (done : PosixState.submit g rets s = some (ret, next)) :
    ∃ new, (next.groups g).suspendVec = (s.groups g).suspendVec ++ new ∧
      (PosixKeepsAll s next g new ret ↔ ∀ i < (s.groups g).queue.length, rets[i]? = some 0) := by
  obtain ⟨new, submitted⟩ := posix_submit inv pc done
  have plain : (next.groups g).pc.Plain := by
    rw [submitted.pc]
    trivial
  have flying := PosixGroup.flying_plain plain
  have apart := List.nodup_append.mp (submitted.inv.apart.queues g)
  have held : ∀ op ∈ new, next.Holds g op ∧ op ∉ (next.groups g).queue := by
    intro op member
    have inFlight : op ∈ (next.groups g).flying := by
      rw [flying, submitted.vec]
      exact List.mem_append_right _ member
    exact ⟨⟨inFlight, (submitted.inv.sound g).found op inFlight plain.not_registering⟩,
      fun queued => apart.2.2 op queued op inFlight rfl⟩
  refine ⟨new, submitted.vec, ?_⟩
  rcases submitted.queue with ⟨rfl, all, left⟩ | ⟨failed, last, rest, op, split, left⟩
  · rw [all, List.length_reverse]
    refine iff_of_true ⟨fun below => ?_, held, fun op queued notNew => ?_, fun op queued => ?_⟩
      submitted.succeeded
    · rw [all, List.length_reverse] at below
      exact absurd below (lt_irrefl _)
    · rw [all, List.mem_reverse] at queued
      exact absurd queued notNew
    · rw [all, List.mem_reverse] at queued
      rw [left]
      exact iff_of_false List.not_mem_nil (not_not_intro (held op queued).1)
  · refine iff_of_false (fun keeps => ?_) fun succeeded => ?_
    · -- the operation whose start failed was queued, and is in no place now
      have distinct := (List.nodup_append.mp (inv.apart.queues g)).1
      have queued : op ∈ (s.groups g).queue := by
        rw [split]
        exact List.mem_append_left _ (List.mem_append_right _ (List.mem_singleton.mpr rfl))
      rw [split, List.append_assoc, List.nodup_append] at distinct
      have notNew : op ∉ new := fun member =>
        (List.nodup_cons.mp distinct.2.1).1 (List.mem_reverse.mpr member)
      have kept := keeps.refused op queued notNew
      rw [left] at kept
      exact distinct.2.2 op kept op List.mem_cons_self rfl
    · have inside : new.length < (s.groups g).queue.length := by
        rw [split, List.length_append, List.length_append, List.length_reverse,
          List.length_singleton]
        omega
      have isZero := succeeded new.length inside
      rw [last, Option.some.injEq] at isZero
      exact failed isZero

end Posix

/-- **When a failed submit loses nothing**, for both engines. -/
theorem failedSubmit_iff {kernel : KernelState} (kernelReached : Reachable kernelFaultSystem kernel)
    {posix : PosixState} (posixReached : Reachable posixSystem posix) :
    (∀ (groupId err : Int32) (cancelled : Nat → Bool) (ret : Int32) (next : KernelState),
      err.toInt < (kernel.groups groupId).opQueue.length →
      kernel.submit groupId err cancelled = some (ret, next) →
      (KernelKeepsAll kernel next groupId err cancelled ret ↔
        err ≠ 0 ∧ ∀ i : Nat, (i : Int) < err.toInt → cancelled i = true)) ∧
    ∀ (g : Int32) (rets : List Int32) (ret : Int32) (next : PosixState),
      (posix.groups g).pc = .submitting → PosixState.submit g rets posix = some (ret, next) →
      ∃ new, (next.groups g).suspendVec = (posix.groups g).suspendVec ++ new ∧
        (PosixKeepsAll posix next g new ret ↔
          ∀ i < (posix.groups g).queue.length, rets[i]? = some 0) := by
  refine ⟨fun groupId err cancelled ret next fails done => ?_, fun g rets ret next pc done => ?_⟩
  · exact kernelKeepsAll_iff (kernelQueueInv_reachable kernelReached) fails done
  · exact posixKeepsAll_iff (posixInv_reachable posixReached) pc done

/-! ### Two queued operations -/

/-- Operations 0 and 1 are queued. -/
def twoQueued : KernelState :=
  (({ ops := plainOps } : KernelState).enqueue 0).enqueue 1

theorem twoQueued_reachable : Reachable kernelFaultSystem twoQueued := by
  have start : Reachable kernelFaultSystem { ops := plainOps } := .of_init ⟨plainOps, rfl⟩
  have idle : ∀ n, ({ ops := plainOps } : KernelState).Idle n := fun _ _ =>
    ⟨List.not_mem_nil, fun _ found => by cases found⟩
  exact (start.step (.call (.enqueue (idle 0)))).step
    (.call (.enqueue ((idle 1).enqueue (by decide))))

/-- Operation 0 is queued in the POSIX engine, and `submit` has been called. -/
def oneQueued : PosixState :=
  (({ ops := plainPosixOps } : PosixState).enqueue 0).goto 0 .submitting

theorem oneQueued_reachable : Reachable posixSystem oneQueued := by
  have start : Reachable posixSystem { ops := plainPosixOps } := .of_init ⟨plainPosixOps, rfl⟩
  have idle : ({ ops := plainPosixOps } : PosixState).Idle 0 := fun _ =>
    ⟨List.not_mem_nil, List.not_mem_nil⟩
  exact (start.step (.enqueue idle rfl)).step (PosixStep.submit (g := 0) rfl)

/-- One of the two operations is accepted and cancelled; in the POSIX engine the one is started. -/
theorem cancelledSubmit_keepsAll :
    (∃ next, KernelKeepsAll twoQueued next 0 1 (fun _ => true) 1) ∧
      ∃ next new, PosixKeepsAll oneQueued next 0 new 0 := by
  obtain ⟨next, done⟩ : ∃ next, twoQueued.submit 0 1 (fun _ => true) = some (1, next) := ⟨_, rfl⟩
  obtain ⟨posixNext, posixDone⟩ : ∃ next, PosixState.submit 0 [0, 0] oneQueued = some (0, next) :=
    ⟨_, rfl⟩
  obtain ⟨kernelKeeps, posixKeeps⟩ := failedSubmit_iff twoQueued_reachable oneQueued_reachable
  refine ⟨⟨next, (kernelKeeps 0 1 _ 1 next (by decide) done).mpr
    ⟨by decide, fun _ _ => rfl⟩⟩, ?_⟩
  obtain ⟨new, _, keeps⟩ := posixKeeps 0 [0, 0] 0 posixNext rfl posixDone
  refine ⟨posixNext, new, keeps.mpr fun i below => ?_⟩
  have first : i = 0 := Nat.lt_one_iff.mp below
  rw [first]
  rfl

/-- **One of two operations is accepted and cannot be cancelled**: it is queued still, and its completion
is looked up under an unknown id. A submit of which nothing is accepted even returns 0. In the POSIX
engine the operation whose start fails is gone. -/
theorem partialSubmit_loses :
    (∃ next, twoQueued.submit 0 1 (fun _ => false) = some (1, next) ∧
      (∃ request, next.held = [request] ∧ next.complete 0 request.data 512 = none ∧
        request.op ∈ (next.groups 0).opQueue) ∧
      ¬ KernelKeepsAll twoQueued next 0 1 (fun _ => false) 1) ∧
    (∃ next, twoQueued.submit 0 0 (fun _ => false) = some (0, next) ∧
      ¬ KernelKeepsAll twoQueued next 0 0 (fun _ => false) 0) ∧
    ∃ next, PosixState.submit 0 [-1] oneQueued = some (-1, next) ∧
      (next.groups 0).queue = [] ∧ (next.groups 0).suspendVec = [] ∧
      ¬ PosixKeepsAll oneQueued next 0 [] (-1) := by
  refine ⟨⟨_, rfl, ⟨_, rfl, rfl, List.mem_cons_self⟩, fun keeps => ?_⟩,
    ⟨_, rfl, fun keeps => keeps.reported rfl⟩, _, rfl, rfl, rfl, fun keeps => ?_⟩
  · exact (keeps.accepted 0 0 rfl (by decide) rfl).2 List.mem_cons_self
  · exact List.not_mem_nil (keeps.refused 0 List.mem_cons_self List.not_mem_nil)

end DiskSpd
