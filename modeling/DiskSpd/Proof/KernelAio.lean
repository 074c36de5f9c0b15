/-
**The libaio engine keeps its contract.**

* `fill_loop` — what the loop of `submit` does: each operation of the queue gets the new array and an id
  that no operation in flight has.
* `KernelInv` — the invariant of the engine and the kernel: the id map of each group tracks the requests
  the kernel holds for it, no operation is queued or in flight twice, and each array counts the requests
  of its operations.
* `kernelContract_reachable` — so in every run ids and requests correspond, `wait` returns the operation
  of the request that completed, each submission is returned at most once or still held, and the array
  of a submit of at least one operation is freed exactly when its last operation has completed.
-/

import DiskSpd.Lib.Dispatch
import DiskSpd.Lib.Loop
import DiskSpd.Model.KernelAio

namespace DiskSpd

open Dispatch IdPool Transition

namespace KernelState

/-! ### The loop of `submit` -/

section Fill

variable {a : Nat} {start next final : Filling}

theorem fill_some {op : Nat} (done : fill a start op = some next) :
    ∃ id, id ∉ start.inFlight ∧ next.array = start.array ++ [op] ∧
      next.inFlight = start.inFlight.insert id op ∧
      next.ops = Function.update start.ops op { start.ops op with
        cbArray := some a
        cb := { (start.ops op).cb with data := id } } := by
  unfold fill at done
  obtain ⟨id, found, rfl⟩ := Option.map_eq_some_iff.mp done
  exact ⟨id, findFree_not_mem found, rfl, rfl, rfl⟩

/-- **The loop of `submit`.** -/
theorem fill_loop {queue : List Nat} (nodup : queue.Nodup) (empty : start.array = [])
    {old : List (UInt64 × Nat)} (tracks : Tracks start.inFlight old)
    (done : queue.foldlM (fill a) start = some final) :
    final.array = queue ∧ (∀ op ∉ queue, final.ops op = start.ops op) ∧
      (∀ op ∈ queue, (final.ops op).cbArray = some a) ∧
      Tracks final.inFlight (old ++ queue.map fun op => ((final.ops op).cb.data, op)) := by
  refine Loop.foldlM_history (fun past state => state.array = past ∧
      (∀ op ∉ past, state.ops op = start.ops op) ∧
      (∀ op ∈ past, (state.ops op).cbArray = some a) ∧
      Tracks state.inFlight (old ++ past.map fun op => ((state.ops op).cb.data, op))) done
    ⟨empty, fun _ _ => rfl, fun _ member => (by cases member), ?_⟩ ?_
  · rwa [List.map_nil, List.append_nil]
  · rintro past state op next isPrefix ⟨array, others, filled, tracks⟩ step
    obtain ⟨id, fresh, array', inFlight', ops'⟩ := fill_some step
    have new : op ∉ past := by
      have distinct := nodup.sublist isPrefix.sublist
      rw [List.nodup_append] at distinct
      exact fun member => distinct.2.2 op member op (List.mem_singleton.mpr rfl) rfl
    have atOp : next.ops op = { state.ops op with
        cbArray := some a
        cb := { (state.ops op).cb with data := id } } := by
      rw [ops', Function.update_self]
    have elsewhere : ∀ other, other ≠ op → next.ops other = state.ops other := fun other ne => by
      rw [ops', Function.update_of_ne ne]
    refine ⟨by rw [array', array], fun other outside => ?_, fun other inside => ?_, ?_⟩
    · rw [List.mem_append, List.mem_singleton, not_or] at outside
      rw [elsewhere other outside.2, others other outside.1]
    · rcases List.mem_append.mp inside with member | same
      · have ne : other ≠ op := fun same => new (same ▸ member)
        rw [elsewhere other ne, filled other member]
      · rw [List.mem_singleton.mp same, atOp]
    · have kept : (past.map fun op => ((next.ops op).cb.data, op)) =
          past.map fun op => ((state.ops op).cb.data, op) :=
        List.map_congr_left fun other member => by
          rw [elsewhere other fun same => new (same ▸ member)]
      rw [inFlight', List.map_append, List.map_singleton, kept, atOp, ← List.append_assoc]
      exact (tracks.insert fresh op).perm (List.perm_append_singleton _ _).symm

/-- The loop ends while there are ids for the whole queue. -/
theorem fill_total {queue : List Nat}
    (few : start.inFlight.keys.length + queue.length ≤ 2 ^ 64) :
    ∃ final, queue.foldlM (fill a) start = some final := by
  refine Loop.foldlM_total (fun rest (state : Filling) =>
    state.inFlight.keys.length + rest.length ≤ 2 ^ 64) ?_ few
  intro op rest state few
  rw [List.length_cons] at few
  have counter : ∀ id : UInt64, (id + 1).toNat = (id.toNat + 1) % 2 ^ 64 := fun id =>
    UInt64.toNat_add id 1
  have free : state.inFlight.keys.length < 2 ^ 64 := by omega
  obtain ⟨id, found⟩ := findFree_total UInt64.toNat_lt counter state.nextFlight free
  refine ⟨_, by unfold fill; rw [found]; rfl, ?_⟩
  dsimp only
  rw [AList.keys_insert, List.length_cons, List.erase_of_not_mem (findFree_not_mem found)]
  omega

end Fill

/-! ### The requests of a `submit` -/

section Requests

variable (s : KernelState) (groupId : Int32) (ops : Nat → KernelAsyncIop) (array : List Nat)

theorem requests_pairs : (s.requests groupId ops array).map (fun r => (r.data, r.op)) =
    array.map fun op => ((ops op).cb.data, op) := by
  have pairs := congrArg (List.map fun op => ((ops op).cb.data, op))
    (List.zipIdx_map_fst s.accepted.length array)
  rw [List.map_map] at pairs
  unfold requests
  rw [List.map_map]
  exact pairs

theorem requests_ops : (s.requests groupId ops array).map (·.op) = array := by
  have pairs := congrArg (List.map Prod.snd) (requests_pairs s groupId ops array)
  rw [List.map_map, List.map_map] at pairs
  exact pairs.trans (List.map_id array)

theorem requests_numbers : (s.requests groupId ops array).map (·.submission) =
    List.range' s.accepted.length array.length := by
  unfold requests
  rw [List.map_map, ← List.zipIdx_map_snd]
  rfl

theorem requests_group : ∀ r ∈ s.requests groupId ops array, r.group = groupId := by
  intro r member
  obtain ⟨pair, _, rfl⟩ := List.mem_map.mp member
  rfl

end Requests

/-- **A submit that the kernel accepts as a whole.** -/
theorem submit_accepted {s next : KernelState} {groupId err : Int32} {cancelled : Nat → Bool}
    {ret : Int32} (whole : err.toInt = (s.groups groupId).opQueue.length)
    (nodup : (s.groups groupId).opQueue.Nodup) {old : List (UInt64 × Nat)}
    (tracks : Tracks (s.groups groupId).inFlight old)
    (done : s.submit groupId err cancelled = some (ret, next)) :
    ∃ ops inFlight nextFlight, ret = 0 ∧
      (∀ op ∉ (s.groups groupId).opQueue, ops op = s.ops op) ∧
      (∀ op ∈ (s.groups groupId).opQueue, (ops op).cbArray = some s.arrays.length) ∧
      Tracks inFlight (old ++ (s.groups groupId).opQueue.map fun op => ((ops op).cb.data, op)) ∧
      next = { s with
        ops := ops
        arrays := s.arrays ++ [
          { size := (s.groups groupId).opQueue.length
            array := (s.groups groupId).opQueue
            itemsLeft := (s.groups groupId).opQueue.length }]
        groups := Function.update s.groups groupId
          { opQueue := [], inFlight := inFlight, nextFlight := nextFlight }
        held := s.held ++ s.requests groupId ops (s.groups groupId).opQueue
        accepted := s.accepted ++ s.requests groupId ops (s.groups groupId).opQueue } := by
  unfold submit at done
  simp only [bind, Option.bind_eq_some_iff] at done
  obtain ⟨filled, loop, done⟩ := done
  rw [if_neg (not_not_intro whole)] at done
  obtain ⟨array, others, arrays, tracks⟩ := fill_loop nodup rfl tracks loop
  rw [array, whole, Int.toNat_natCast, List.take_length] at done
  cases done
  exact ⟨filled.ops, filled.inFlight, filled.nextFlight, rfl, others, arrays, tracks, rfl⟩

/-- A submit returns while there are ids for the whole queue. -/
theorem submit_total {s : KernelState} {groupId : Int32}
    (few : (s.groups groupId).inFlight.keys.length + (s.groups groupId).opQueue.length ≤ 2 ^ 64)
    (err : Int32) (cancelled : Nat → Bool) :
    ∃ ret next, s.submit groupId err cancelled = some (ret, next) := by
  obtain ⟨filled, loop⟩ := @fill_total s.arrays.length
    ⟨s.ops, (s.groups groupId).inFlight, (s.groups groupId).nextFlight, []⟩ _ few
  unfold submit
  simp only [bind, loop, Option.bind_some]
  split_ifs
  · exact ⟨_, _, rfl⟩
  · exact ⟨_, _, rfl⟩

/-- **What `wait` does** with an event for an id. -/
theorem complete_some {s next : KernelState} {groupId : Int32} {data : UInt64} {res : Int64}
    {op : Nat} (done : s.complete groupId data res = some (op, next)) :
    (s.groups groupId).inFlight.lookup data = some op ∧
      ∃ a array, (s.ops op).cbArray = some a ∧ s.arrays[a]? = some array ∧ next = { s with
        ops := Function.update s.ops op { s.ops op with result := res.toInt32 }
        arrays := s.arrays.set a (finishOne array)
        groups := Function.update s.groups groupId { s.groups groupId with
          inFlight := (s.groups groupId).inFlight.erase data } } := by
  unfold complete at done
  simp only [bind, Option.bind_eq_some_iff] at done
  obtain ⟨op', found, a, isArray, array, inArrays, done⟩ := done
  cases done
  exact ⟨found, a, array, isArray, inArrays, rfl⟩

end KernelState

/-! ### The invariant -/

def KernelState.queue (s : KernelState) (g : Int32) : List Nat :=
  (s.groups g).opQueue

theorem update_queue (groups : Int32 → Group) (g : Int32) (group : Group) :
    (fun g' => (Function.update groups g group g').opQueue) =
      Function.update (fun g' => (groups g').opQueue) g group.opQueue := by
  funext g'
  by_cases here : g' = g
  · rw [here, Function.update_self, Function.update_self]
  · rw [Function.update_of_ne here, Function.update_of_ne here]

/-- The requests the kernel holds for operations of an array. -/
def KernelState.holders (s : KernelState) (a : Nat) : Nat :=
  s.held.countP fun r => (s.ops r.op).cbArray = some a

/-- The requests the kernel holds for a group, with their ids. -/
def KernelState.heldFor (s : KernelState) (g : Int32) : List (UInt64 × Nat) :=
  (s.held.filter (·.group = g)).map fun r => (r.data, r.op)

/-- **The invariant of the engine and the kernel.** -/
structure KernelInv (s : KernelState) : Prop where
  once : Once s.queue (s.held.map (·.op))
  tracks : ∀ g, Tracks (s.groups g).inFlight (s.heldFor g)
  arrayOf : ∀ r ∈ s.held, ∃ a < s.arrays.length, (s.ops r.op).cbArray = some a
  sameGroup : ∀ r ∈ s.held, ∀ r' ∈ s.held,
    (s.ops r.op).cbArray = (s.ops r'.op).cbArray → r.group = r'.group
  counts : ∀ a array, s.arrays[a]? = some array → array.itemsLeft = s.holders a ∧
    array.itemsLeft ≤ array.size ∧
    array.frees = if array.itemsLeft = 0 ∧ array.size ≠ 0 then 1 else 0
  numbers : s.accepted.map (·.submission) = List.range s.accepted.length
  log : (s.returned ++ s.held).Perm s.accepted

theorem kernelInv_initial (ops : Nat → KernelAsyncIop) : KernelInv { ops } where
  once := .empty
  tracks _ := .empty
  arrayOf _ member := by cases member
  sameGroup _ member := by cases member
  counts _ _ found := by cases found
  numbers := rfl
  log := List.Perm.refl []

section Invariant

variable {s next : KernelState}

/-- A request is found by its id. -/
theorem KernelInv.lookup (inv : KernelInv s) {r : KernelRequest} (member : r ∈ s.held) :
    (s.groups r.group).inFlight.lookup r.data = some r.op :=
  (inv.tracks r.group).lookup (List.mem_map_of_mem
    (List.mem_filter.mpr ⟨member, decide_eq_true rfl⟩))

theorem KernelInv.idle_not_held (inv : KernelInv s) {op : Nat} (idle : s.Idle op) :
    op ∉ s.held.map (·.op) := by
  intro member
  obtain ⟨r, isHeld, rfl⟩ := List.mem_map.mp member
  exact (idle r.group).2 r.data (inv.lookup isHeld)

/-- An operation is idle when no queue has it and the kernel has no request of it. -/
theorem KernelInv.idle (inv : KernelInv s) {op : Nat} (notQueued : ∀ g, op ∉ s.queue g)
    (notHeld : op ∉ s.held.map (·.op)) : s.Idle op := by
  refine fun g => ⟨notQueued g, fun data found => ?_⟩
  obtain ⟨r, isHeld, same⟩ := List.mem_map.mp ((inv.tracks g).mem_of_lookup found)
  have isOp : r.op = op := congrArg Prod.snd same
  exact notHeld (isOp ▸ List.mem_map_of_mem (List.mem_of_mem_filter isHeld))

/-! ### Enqueue -/

theorem enqueue_queue (s : KernelState) (op : Nat) : (s.enqueue op).queue =
    Function.update s.queue (s.ops op).groupId (s.queue (s.ops op).groupId ++ [op]) :=
  update_queue s.groups _ _

theorem enqueue_inFlight (s : KernelState) (op : Nat) (g : Int32) :
    ((s.enqueue op).groups g).inFlight = (s.groups g).inFlight := by
  unfold KernelState.enqueue
  dsimp only
  by_cases here : g = (s.ops op).groupId
  · rw [here, Function.update_self]
  · rw [Function.update_of_ne here]

/-- An operation that is not enqueued itself stays idle. -/
theorem KernelState.Idle.enqueue {op other : Nat} (idle : s.Idle op) (ne : op ≠ other) :
    (s.enqueue other).Idle op := by
  intro g
  rw [enqueue_inFlight]
  refine ⟨fun queued => ?_, (idle g).2⟩
  have isQueued : op ∈ (s.enqueue other).queue g := queued
  rw [enqueue_queue] at isQueued
  rcases Once.mem_update isQueued with old | ⟨_, here⟩
  · exact (idle g).1 old
  · rcases List.mem_append.mp here with old | new
    · exact (idle _).1 old
    · exact ne (List.mem_singleton.mp new)

theorem kernelInv_enqueue (inv : KernelInv s) {op : Nat} (idle : s.Idle op) :
    KernelInv (s.enqueue op) where
  once := by
    rw [enqueue_queue]
    exact inv.once.push (fun g => (idle g).1) (inv.idle_not_held idle)
  tracks g := by
    rw [enqueue_inFlight]
    exact inv.tracks g
  arrayOf := inv.arrayOf
  sameGroup := inv.sameGroup
  counts := inv.counts
  numbers := inv.numbers
  log := inv.log

/-- An update of an operation that leaves its array leaves the arrays of all. -/
theorem update_cbArray {ops : Nat → KernelAsyncIop} {op : Nat} {fields : KernelAsyncIop}
    (cbArray : fields.cbArray = (ops op).cbArray) (other : Nat) :
    (Function.update ops op fields other).cbArray = (ops other).cbArray := by
  by_cases here : other = op
  · rw [here, Function.update_self, cbArray]
  · rw [Function.update_of_ne here]

/-- The owner of an operation sets fields that the engine does not look at. -/
theorem kernelInv_set (inv : KernelInv s) {op : Nat} {fields : KernelAsyncIop}
    (cbArray : fields.cbArray = (s.ops op).cbArray) :
    KernelInv { s with ops := Function.update s.ops op fields } := by
  have same := update_cbArray cbArray
  obtain ⟨once, tracks, arrayOf, sameGroup, counts, numbers, log⟩ := inv
  refine ⟨once, tracks, ?_, ?_, ?_, numbers, log⟩
  · simpa only [same] using arrayOf
  · simpa only [same] using sameGroup
  · unfold KernelState.holders at *
    simpa only [same] using counts

/-! ### Submit -/

/-- The requests of a submit join those the kernel holds for its group. -/
theorem heldFor_append {held requests : List KernelRequest} {groupId : Int32}
    (isGroup : ∀ r ∈ requests, r.group = groupId) (g : Int32) :
    (held ++ requests).filter (·.group = g) =
      held.filter (·.group = g) ++ if g = groupId then requests else [] := by
  rw [List.filter_append]
  congr 1
  split_ifs with here
  · exact List.filter_eq_self.mpr fun r member => decide_eq_true ((isGroup r member).trans here.symm)
  · refine List.filter_eq_nil_iff.mpr fun r member same => here ?_
    exact (of_decide_eq_true same).symm.trans (isGroup r member)

section Requests

variable {ops : Nat → KernelAsyncIop} {requests : List KernelRequest}

/-- The new requests are for a new array, so each earlier array has the requests it had. -/
theorem holders_earlier (old : ∀ r ∈ s.held, ops r.op = s.ops r.op)
    (new : ∀ r ∈ requests, (ops r.op).cbArray = some s.arrays.length) {a : Nat}
    (earlier : a < s.arrays.length) :
    (s.held ++ requests).countP (fun r => (ops r.op).cbArray = some a) = s.holders a := by
  have none : requests.countP (fun r => (ops r.op).cbArray = some a) = 0 :=
    List.countP_eq_zero.mpr fun r member same => by
      rw [decide_eq_true_iff, new r member, Option.some.injEq] at same
      omega
  have kept : s.held.countP (fun r => (ops r.op).cbArray = some a) = s.holders a :=
    List.countP_congr fun r member => by rw [old r member]
  rw [List.countP_append, none, kept, Nat.add_zero]

/-- The new array has the new requests. -/
theorem holders_last (inv : KernelInv s) (old : ∀ r ∈ s.held, ops r.op = s.ops r.op)
    (new : ∀ r ∈ requests, (ops r.op).cbArray = some s.arrays.length) :
    (s.held ++ requests).countP (fun r => (ops r.op).cbArray = some s.arrays.length) =
      requests.length := by
  have all : requests.countP (fun r => (ops r.op).cbArray = some s.arrays.length) =
      requests.length :=
    List.countP_eq_length.mpr fun r member => decide_eq_true (new r member)
  have none : s.held.countP (fun r => (ops r.op).cbArray = some s.arrays.length) = 0 :=
    List.countP_eq_zero.mpr fun r member same => by
      obtain ⟨b, below, array⟩ := inv.arrayOf r member
      rw [decide_eq_true_iff, old r member, array, Option.some.injEq] at same
      omega
  rw [List.countP_append, all, none, Nat.zero_add]

/-- A request the kernel held and a new one are for different arrays. -/
theorem cbArray_ne (inv : KernelInv s) (old : ∀ r ∈ s.held, ops r.op = s.ops r.op)
    (new : ∀ r ∈ requests, (ops r.op).cbArray = some s.arrays.length) {r r' : KernelRequest}
    (isHeld : r ∈ s.held) (isNew : r' ∈ requests) :
    (ops r.op).cbArray ≠ (ops r'.op).cbArray := by
  obtain ⟨a, below, array⟩ := inv.arrayOf r isHeld
  rw [old r isHeld, array, new r' isNew, Ne, Option.some.injEq]
  exact Nat.ne_of_lt below

end Requests

theorem kernelInv_submit (inv : KernelInv s) {groupId err : Int32} {cancelled : Nat → Bool}
    {ret : Int32} (whole : err.toInt = (s.groups groupId).opQueue.length)
    (done : s.submit groupId err cancelled = some (ret, next)) : KernelInv next := by
  obtain ⟨ops, inFlight, nextFlight, rfl, others, filled, tracks, rfl⟩ :=
    KernelState.submit_accepted whole (inv.once.queues groupId) (inv.tracks groupId) done
  have pairs := KernelState.requests_pairs s groupId ops (s.groups groupId).opQueue
  have isOps := KernelState.requests_ops s groupId ops (s.groups groupId).opQueue
  have numbers := KernelState.requests_numbers s groupId ops (s.groups groupId).opQueue
  have isGroup := KernelState.requests_group s groupId ops (s.groups groupId).opQueue
  generalize s.requests groupId ops (s.groups groupId).opQueue = requests at *
  have size : (s.groups groupId).opQueue.length = requests.length := by
    rw [← isOps, List.length_map]
  have old : ∀ r ∈ s.held, ops r.op = s.ops r.op := fun r member =>
    others r.op fun queued => inv.once.notBoth groupId r.op queued (List.mem_map_of_mem member)
  have new : ∀ r ∈ requests, (ops r.op).cbArray = some s.arrays.length := fun r member =>
    filled r.op (by rw [← isOps]; exact List.mem_map_of_mem member)
  constructor <;> dsimp only
  · unfold KernelState.queue
    rw [List.map_append, isOps, update_queue]
    exact inv.once.take (List.nil_append _).symm
  · intro g
    unfold KernelState.heldFor
    rw [heldFor_append isGroup]
    by_cases here : g = groupId
    · rw [here, Function.update_self, if_pos rfl, List.map_append, pairs]
      exact tracks
    · rw [Function.update_of_ne here, if_neg here, List.append_nil]
      exact inv.tracks g
  · intro r member
    rw [List.length_append, List.length_singleton]
    rcases List.mem_append.mp member with isHeld | isNew
    · obtain ⟨a, below, array⟩ := inv.arrayOf r isHeld
      exact ⟨a, by omega, by rw [old r isHeld, array]⟩
    · exact ⟨s.arrays.length, by omega, new r isNew⟩
  · intro r member r' member' same
    rcases List.mem_append.mp member with isHeld | isNew <;>
      rcases List.mem_append.mp member' with isHeld' | isNew'
    · rw [old r isHeld, old r' isHeld'] at same
      exact inv.sameGroup r isHeld r' isHeld' same
    · exact absurd same (cbArray_ne inv old new isHeld isNew')
    · exact absurd same.symm (cbArray_ne inv old new isHeld' isNew)
    · rw [isGroup r isNew, isGroup r' isNew']
  · intro a array found
    unfold KernelState.holders
    dsimp only
    by_cases earlier : a < s.arrays.length
    · rw [List.getElem?_append_left earlier] at found
      rw [holders_earlier old new earlier]
      exact inv.counts a array found
    · have last : a = s.arrays.length := by
        have below := (List.getElem?_eq_some_iff.mp found).1
        rw [List.length_append, List.length_singleton] at below
        omega
      rw [last, List.getElem?_concat_length, Option.some.injEq] at found
      rw [last, holders_last inv old new, ← found]
      exact ⟨size, le_rfl, (if_neg fun both => both.2 both.1).symm⟩
  · rw [List.map_append, inv.numbers, numbers, List.length_append, ← size, List.range_eq_range',
      List.range_eq_range', ← List.range'_append_1, Nat.zero_add]
  · rw [← List.append_assoc]
    exact inv.log.append_right requests

/-! ### Wait -/

section Wait

variable {r : KernelRequest} {before after : List KernelRequest}

theorem holders_cons (held : s.held = before ++ r :: after) (a : Nat) :
    s.holders a = (before ++ after).countP (fun r => (s.ops r.op).cbArray = some a) +
      if (s.ops r.op).cbArray = some a then 1 else 0 := by
  unfold KernelState.holders
  rw [held, List.perm_middle.countP_eq, List.countP_cons]
  simp only [decide_eq_true_eq]

/-- The array of a finished request has one item less, the others are as they were. -/
theorem KernelInv.counts_finish (inv : KernelInv s) (held : s.held = before ++ r :: after)
    {a b : Nat} {array array' : CbArray} (isArray : (s.ops r.op).cbArray = some a)
    (inArrays : s.arrays[a]? = some array)
    (found : (s.arrays.set a (KernelState.finishOne array))[b]? = some array') :
    array'.itemsLeft = (before ++ after).countP (fun r => (s.ops r.op).cbArray = some b) ∧
      array'.itemsLeft ≤ array'.size ∧
      array'.frees = if array'.itemsLeft = 0 ∧ array'.size ≠ 0 then 1 else 0 := by
  have count := holders_cons held b
  by_cases here : b = a
  · subst here
    rw [List.getElem?_set_self (List.getElem?_eq_some_iff.mp inArrays).1,
      Option.some.injEq] at found
    obtain ⟨items, bound, frees⟩ := inv.counts b array inArrays
    rw [if_pos isArray] at count
    rw [if_neg (fun both => by omega)] at frees
    rw [← found]
    unfold KernelState.finishOne
    dsimp only
    refine ⟨by omega, by omega, ?_⟩
    rw [frees]
    exact if_congr ⟨fun last => ⟨last, by omega⟩, And.left⟩ rfl rfl
  · rw [List.getElem?_set_ne (Ne.symm here)] at found
    rw [if_neg (by rw [isArray, Option.some.injEq]; exact Ne.symm here), Nat.add_zero] at count
    rw [← count]
    exact inv.counts b array' found

/-- **An event of a held request** returns the operation of that request. -/
theorem KernelInv.complete (inv : KernelInv s) (member : r ∈ s.held) (res : Int64) :
    ∃ next, s.complete r.group r.data res = some (r.op, next) ∧
      (next.ops r.op).result = res.toInt32 := by
  obtain ⟨a, below, isArray⟩ := inv.arrayOf r member
  unfold KernelState.complete
  simp only [inv.lookup member, isArray, List.getElem?_eq_getElem below, bind, Option.bind_some]
  refine ⟨_, rfl, ?_⟩
  dsimp only
  rw [Function.update_self]

theorem kernelInv_wait (inv : KernelInv s) (held : s.held = before ++ r :: after) {res : Int64}
    {op : Nat} (done : s.complete r.group r.data res = some (op, next)) :
    KernelInv { next with
      held := before ++ after
      returned := s.returned ++ [{ r with op := op }] } := by
  have member : r ∈ s.held := by
    rw [held]
    exact List.mem_append_cons_self
  obtain ⟨found, a, array, isArray, inArrays, rfl⟩ := KernelState.complete_some done
  rw [inv.lookup member, Option.some.injEq] at found
  subst found
  have fields : ∀ other, (Function.update s.ops r.op
      { s.ops r.op with result := res.toInt32 } other).cbArray = (s.ops other).cbArray :=
    update_cbArray rfl
  have rest : ∀ r' ∈ before ++ after, r' ∈ s.held := fun r' isRest => by
    rw [held]
    exact List.perm_middle.mem_iff.mpr (List.mem_cons_of_mem _ isRest)
  have middle : (s.held).Perm (r :: (before ++ after)) := by
    rw [held]
    exact List.perm_middle
  constructor <;> dsimp only
  · unfold KernelState.queue
    rw [update_queue]
    dsimp only
    rw [Function.update_eq_self]
    exact (inv.once.perm (middle.map _)).release.1
  · intro g
    unfold KernelState.heldFor
    dsimp only
    have tracks := (inv.tracks g).perm ((middle.filter _).map _)
    by_cases here : g = r.group
    · subst here
      rw [Function.update_self]
      rw [List.filter_cons_of_pos (by simp), List.map_cons] at tracks
      exact tracks.erase
    · rw [Function.update_of_ne here]
      rw [List.filter_cons_of_neg (by simpa using Ne.symm here)] at tracks
      exact tracks
  · intro r' isRest
    rw [fields, List.length_set]
    exact inv.arrayOf r' (rest r' isRest)
  · intro r₁ isRest₁ r₂ isRest₂ same
    rw [fields, fields] at same
    exact inv.sameGroup r₁ (rest r₁ isRest₁) r₂ (rest r₂ isRest₂) same
  · intro b array' found
    unfold KernelState.holders
    simp only [fields]
    exact inv.counts_finish held isArray inArrays found
  · exact inv.numbers
  · refine List.Perm.trans ?_ inv.log
    rw [List.append_assoc, List.singleton_append]
    exact (List.perm_append_left_iff _).mpr middle.symm

/-- **An operation that `wait` returns is idle again**, and may be enqueued once more. -/
theorem kernelWait_idle (inv : KernelInv s) (held : s.held = before ++ r :: after) {res : Int64}
    {op : Nat} (done : s.complete r.group r.data res = some (op, next)) : next.Idle op := by
  have member : r ∈ s.held := by
    rw [held]
    exact List.mem_append_cons_self
  have inv' := kernelInv_wait inv held done
  obtain ⟨found, _, _, _, _, rfl⟩ := KernelState.complete_some done
  rw [inv.lookup member, Option.some.injEq] at found
  subst found
  have middle : (s.held.map (·.op)).Perm (r.op :: (before ++ after).map (·.op)) := by
    rw [held]
    exact List.perm_middle.map _
  obtain ⟨_, notHeld, notQueued⟩ := (inv.once.perm middle).release
  refine inv'.idle (fun g queued => notQueued g ?_) notHeld
  unfold KernelState.queue at queued
  rw [congrFun (update_queue s.groups r.group _) g] at queued
  dsimp only at queued
  rwa [Function.update_eq_self] at queued

end Wait

/-- **Each call keeps the invariant.** -/
theorem kernelInv_step {call : KernelCall} (inv : KernelInv s) (step : KernelStep s call next) :
    KernelInv next := by
  cases step with
  | enqueue idle => exact kernelInv_enqueue inv idle
  | submit whole done => exact kernelInv_submit inv whole done
  | wait held done => exact kernelInv_wait inv held done
  | set _ _ cbArray => exact kernelInv_set inv cbArray

theorem kernelInv_reachable (reached : Reachable kernelSystem s) : KernelInv s :=
  reached.invariant (fun _ isInit => by
    obtain ⟨ops, rfl⟩ := isInit
    exact kernelInv_initial ops) fun _ _ _ inv step => kernelInv_step inv step

end Invariant

/-! ### The contract -/

/-- **The contract of the engine.** -/
structure KernelContract (s : KernelState) : Prop where
  /-- the ids of a group are distinct, for distinct operations, and those that the kernel holds -/
  ids : ∀ g, (s.groups g).inFlight.keys.Nodup ∧
    ((s.groups g).inFlight.entries.map (·.2)).Nodup ∧
    (s.groups g).inFlight.keys.Perm ((s.held.filter (·.group = g)).map (·.data))
  /-- `wait` returns the operation of the request that completed, with its result -/
  wait : ∀ r ∈ s.held, ∀ res, ∃ next, s.complete r.group r.data res = some (r.op, next) ∧
    (next.ops r.op).result = res.toInt32
  /-- a submit that the kernel accepts returns 0, while there are ids for the whole queue -/
  submit : ∀ g, (s.groups g).inFlight.keys.length + (s.groups g).opQueue.length ≤ 2 ^ 64 →
    ∀ (err : Int32) (cancelled : Nat → Bool), err.toInt = (s.groups g).opQueue.length →
      ∃ next, s.submit g err cancelled = some (0, next)
  /-- each submission is returned once or still held -/
  once : (s.returned ++ s.held).Perm s.accepted ∧ (s.accepted.map (·.submission)).Nodup
  /-- each array counts its operations in flight, all of one group -/
  itemsLeft : ∀ (a : Nat) (array : CbArray), s.arrays[a]? = some array → ∃ g,
    array.itemsLeft =
      (s.groups g).inFlight.entries.countP (fun entry => (s.ops entry.2).cbArray = some a) ∧
    ∀ g' ≠ g, ∀ entry ∈ (s.groups g').inFlight.entries, (s.ops entry.2).cbArray ≠ some a
  /-- the array of at least one operation is freed when the last one has completed -/
  freed : ∀ (a : Nat) (array : CbArray), s.arrays[a]? = some array → array.size ≠ 0 →
    array.frees = if array.itemsLeft = 0 then 1 else 0

section Contract

variable {s : KernelState}

theorem KernelInv.ids (inv : KernelInv s) (g : Int32) : (s.groups g).inFlight.keys.Nodup ∧
    ((s.groups g).inFlight.entries.map (·.2)).Nodup ∧
    (s.groups g).inFlight.keys.Perm ((s.held.filter (·.group = g)).map (·.data)) := by
  have entries := (inv.tracks g).entries
  refine ⟨(s.groups g).inFlight.keys_nodup, ?_, ?_⟩
  · have part : ((s.held.filter (·.group = g)).map (·.op)).Sublist (s.held.map (·.op)) :=
      List.filter_sublist.map _
    have distinct := inv.once.once.sublist part
    rw [(entries.map (·.2)).nodup_iff]
    unfold KernelState.heldFor
    rw [List.map_map, List.map_map]
    exact distinct
  · have keys := entries.map (·.1)
    unfold KernelState.heldFor at keys
    rw [List.map_map, List.map_map] at keys
    exact keys

/-- The operations of an array in the map of a group are those the kernel holds for it. -/
theorem KernelInv.countP_entries (inv : KernelInv s) (g : Int32) (a : Nat) :
    (s.groups g).inFlight.entries.countP (fun entry => (s.ops entry.2).cbArray = some a) =
      s.held.countP fun r => (s.ops r.op).cbArray = some a ∧ r.group = g := by
  rw [(inv.tracks g).entries.countP_eq]
  unfold KernelState.heldFor
  rw [List.countP_map, List.countP_map, List.countP_filter]
  refine List.countP_congr fun r _ => ?_
  simp

theorem KernelInv.itemsLeft (inv : KernelInv s) {a : Nat} {array : CbArray}
    (found : s.arrays[a]? = some array) : ∃ g,
    array.itemsLeft =
      (s.groups g).inFlight.entries.countP (fun entry => (s.ops entry.2).cbArray = some a) ∧
    ∀ g' ≠ g, ∀ entry ∈ (s.groups g').inFlight.entries, (s.ops entry.2).cbArray ≠ some a := by
  have holds : ∀ g, ∀ entry ∈ (s.groups g).inFlight.entries, (s.ops entry.2).cbArray = some a →
      ∃ r ∈ s.held, r.group = g ∧ (s.ops r.op).cbArray = some a := by
    intro g entry member isArray
    obtain ⟨pair, isPair, rfl⟩ := List.mem_map.mp ((inv.tracks g).entries.mem_iff.mp member)
    obtain ⟨r, isFiltered, rfl⟩ := List.mem_map.mp isPair
    obtain ⟨isHeld, isGroup⟩ := List.mem_filter.mp isFiltered
    exact ⟨r, isHeld, of_decide_eq_true isGroup, isArray⟩
  rw [(inv.counts a array found).1]
  by_cases any : ∃ r ∈ s.held, (s.ops r.op).cbArray = some a
  · obtain ⟨r, isHeld, isArray⟩ := any
    refine ⟨r.group, ?_, fun g' other entry member same => other ?_⟩
    · rw [inv.countP_entries]
      refine List.countP_congr fun r' isHeld' => ?_
      rw [decide_eq_true_iff, decide_eq_true_iff]
      exact ⟨fun same => ⟨same, inv.sameGroup r' isHeld' r isHeld (same.trans isArray.symm)⟩,
        And.left⟩
    · obtain ⟨r', isHeld', rfl, isArray'⟩ := holds g' entry member same
      exact inv.sameGroup r' isHeld' r isHeld (isArray'.trans isArray.symm)
  · refine ⟨0, ?_, fun g' _ entry member same => any ?_⟩
    · rw [inv.countP_entries]
      refine List.countP_congr fun r' isHeld' => ?_
      rw [decide_eq_true_iff, decide_eq_true_iff]
      exact ⟨fun same => absurd ⟨r', isHeld', same⟩ any, And.left⟩
    · obtain ⟨r', isHeld', _, isArray'⟩ := holds g' entry member same
      exact ⟨r', isHeld', isArray'⟩

theorem KernelInv.contract (inv : KernelInv s) : KernelContract s where
  ids := inv.ids
  submit g few err cancelled whole := by
    obtain ⟨ret, next, done⟩ := KernelState.submit_total few err cancelled
    obtain ⟨_, _, _, rfl, _⟩ :=
      KernelState.submit_accepted whole (inv.once.queues g) (inv.tracks g) done
    exact ⟨next, done⟩
  wait _ member res := inv.complete member res
  once := ⟨inv.log, by rw [inv.numbers]; exact List.nodup_range⟩
  itemsLeft _ _ found := inv.itemsLeft found
  freed a array found nonempty := by
    rw [(inv.counts a array found).2.2]
    exact if_congr ⟨And.left, fun done => ⟨done, nonempty⟩⟩ rfl rfl

/-- **The engine keeps its contract** in every sequence of calls. -/
theorem kernelContract_reachable (reached : Reachable kernelSystem s) : KernelContract s :=
  (kernelInv_reachable reached).contract

end Contract

/-! ### Two groups -/

/-- A heap of operations of group 0, all alike. -/
def plainOps (_ : Nat) : KernelAsyncIop where
  cb := { aioLioOpcode := .ioCmdPread, aioFildes := 3, buf := 0, nbytes := 512, offset := 0 }
  targetData := 0
  time := 0
  readBuf := 0
  writeBuf := 0

theorem plainOps_reachable : Reachable kernelSystem { ops := plainOps } :=
  .of_init ⟨plainOps, rfl⟩

/-- Operations 0 and 1 of group 0, the others of group 1. -/
def twoGroupOps (n : Nat) : KernelAsyncIop :=
  { plainOps n with groupId := if n < 2 then 0 else 1 }

/-- **Two groups.** Operations 0 and 1 are submitted, then operation 2. A `wait` takes operation 1, which is
enqueued and submitted again before the array that it was in is finished. Operation 0 fails. -/
theorem twoGroups_reachable : ∃ s, Reachable kernelSystem s ∧
    s.accepted.map (fun r => (r.group, r.op)) = [(0, 0), (0, 1), (1, 2), (0, 1)] ∧
    s.returned.map (·.op) = [1, 2, 0] ∧ s.held.map (·.op) = [1] ∧
    s.arrays.map (fun array => (array.array, array.itemsLeft, array.frees)) =
      [([0, 1], 0, 1), ([2], 0, 1), ([1], 1, 0)] ∧ (s.ops 0).result = -5 := by
  let start : KernelState := { ops := twoGroupOps }
  have idle : ∀ n, start.Idle n := fun _ _ => ⟨List.not_mem_nil, fun _ found => by cases found⟩
  have begun : Reachable kernelSystem start := .of_init ⟨twoGroupOps, rfl⟩
  have queued := ((begun.step (.enqueue (idle 0))).step
    (.enqueue ((idle 1).enqueue (by decide)))).step
    (.enqueue (((idle 2).enqueue (by decide)).enqueue (by decide)))
  have both := queued.step (@KernelStep.submit _ 0 2 (fun _ => false) 0 _ rfl rfl)
  have other := both.step (@KernelStep.submit _ 1 1 (fun _ => false) 0 _ rfl rfl)
  let request (g : Int32) (op : Nat) (data : UInt64) (submission : Nat) : KernelRequest :=
    { group := g, op := op, data := data, submission := submission }
  have returned := other.step
    (@KernelStep.wait _ (request 0 1 1 1) [request 0 0 0 0] [request 1 2 0 2] 512 _ _ rfl rfl)
  -- the array of operations 0 and 1 is not finished yet
  have again := @kernelWait_idle _ _ (request 0 1 1 1) [request 0 0 0 0] [request 1 2 0 2]
    (kernelInv_reachable other) rfl 512 _ rfl
  have resubmitted := (returned.step (.enqueue again)).step
    (@KernelStep.submit _ 0 1 (fun _ => false) 0 _ rfl rfl)
  have third := resubmitted.step
    (@KernelStep.wait _ (request 1 2 0 2) [request 0 0 0 0] [request 0 1 2 3] 512 _ _ rfl rfl)
  have last := third.step
    (@KernelStep.wait _ (request 0 0 0 0) [] [request 0 1 2 3] (-5) _ _ rfl rfl)
  exact ⟨_, last, rfl, rfl, rfl, rfl, rfl⟩

theorem twoGroups_contract : ∃ s, KernelContract s ∧
    s.accepted.map (fun r => (r.group, r.op)) = [(0, 0), (0, 1), (1, 2), (0, 1)] ∧
    s.returned.map (·.op) = [1, 2, 0] ∧ s.held.map (·.op) = [1] ∧
    s.arrays.map (fun array => (array.array, array.itemsLeft, array.frees)) =
      [([0, 1], 0, 1), ([2], 0, 1), ([1], 1, 0)] ∧ (s.ops 0).result = -5 := by
  obtain ⟨s, reached, rest⟩ := twoGroups_reachable
  exact ⟨s, kernelContract_reachable reached, rest⟩

/-! ### A submit of nothing -/

/-- An array keeps its size. -/
theorem arrays_size_step {s next : KernelState} {call : KernelCall} (inv : KernelInv s)
    (step : KernelStep s call next) {a : Nat} {array : CbArray}
    (found : s.arrays[a]? = some array) :
    ∃ array', next.arrays[a]? = some array' ∧ array'.size = array.size := by
  cases step with
  | enqueue => exact ⟨array, found, rfl⟩
  | submit whole done =>
    obtain ⟨_, _, _, _, _, _, _, rfl⟩ :=
      KernelState.submit_accepted whole (inv.once.queues _) (inv.tracks _) done
    refine ⟨array, ?_, rfl⟩
    dsimp only
    rw [List.getElem?_append_left (List.getElem?_eq_some_iff.mp found).1, found]
  | wait held done =>
    obtain ⟨_, b, last, _, isLast, rfl⟩ := KernelState.complete_some done
    dsimp only
    by_cases here : a = b
    · subst here
      rw [found, Option.some.injEq] at isLast
      exact ⟨_, List.getElem?_set_self (List.getElem?_eq_some_iff.mp found).1, by rw [isLast]; rfl⟩
    · exact ⟨array, by rw [List.getElem?_set_ne (Ne.symm here), found], rfl⟩
  | set => exact ⟨array, found, rfl⟩

/-- **An array of no operations is not freed**, at any time. -/
theorem emptyArray_frees {s last : KernelState} {calls : List KernelCall}
    (reached : Reachable kernelSystem s) (run : Run kernelSystem s calls last) {a : Nat}
    {array : CbArray} (found : s.arrays[a]? = some array) (empty : array.size = 0) :
    ∃ array', last.arrays[a]? = some array' ∧ array'.itemsLeft = 0 ∧ array'.frees = 0 := by
  have kept : ∃ array', last.arrays[a]? = some array' ∧ array'.size = 0 := by
    refine (run.invariant (H := fun s => KernelInv s ∧
      ∃ array', s.arrays[a]? = some array' ∧ array'.size = 0)
      ⟨kernelInv_reachable reached, array, found, empty⟩ ?_).2
    rintro state _ next ⟨inv, array', found', empty'⟩ step
    obtain ⟨array'', found'', size⟩ := arrays_size_step inv step found'
    exact ⟨kernelInv_step inv step, array'', found'', size.trans empty'⟩
  obtain ⟨array', found', empty'⟩ := kept
  obtain ⟨_, bound, frees⟩ := (kernelInv_reachable (reached.run run)).counts a array' found'
  refine ⟨array', found', by omega, ?_⟩
  rw [frees, if_neg fun both => both.2 empty']

/-- Nothing is submitted: the array of no control blocks is there from then on, and never freed. -/
theorem emptySubmission_not_freed : ∃ s, Reachable kernelSystem s ∧
    ∀ calls last, Run kernelSystem s calls last →
      ∃ array, last.arrays[0]? = some array ∧ array.itemsLeft = 0 ∧ array.frees = 0 := by
  obtain ⟨submitted, isSubmitted⟩ : ∃ submitted,
      ({ ops := plainOps } : KernelState).submit 0 0 (fun _ => false) = some (0, submitted) :=
    ⟨_, rfl⟩
  have reached := plainOps_reachable.step (KernelStep.submit rfl isSubmitted)
  cases isSubmitted
  exact ⟨_, reached, fun calls last run => emptyArray_frees reached run rfl rfl⟩

end DiskSpd
