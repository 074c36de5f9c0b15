/-
**The libaio engine keeps the promise of the interface.**

* `KernelStands` — how a group stands: its queue, the requests the kernel holds for its context, the map
  that tracks them, and the arrays of their operations.
* `KernelStands.frame` — a group depends on nothing of the others.
* `kernelHolds_submit` — `submit` puts the queue in flight, or fails and leaves the other groups alone.
* `kernelHolds_wait` — `wait` finds the operation of the request that completed.
* `lawfulKernel` — so the engine keeps the promise, with any failures of `io_submit`.
-/

import DiskSpd.Proof.KernelAio
import DiskSpd.Proof.Manager

namespace DiskSpd

open Dispatch IdPool IAsyncIop LawfulIop

/-- **How a group of the libaio engine stands**: its queue, the requests of its context and the map
that tracks them, and the arrays of their operations. -/
structure KernelStands (s : KernelState) (g : Int32) (standing : Standing) : Prop where
  queue : (s.groups g).opQueue = standing.queue
  flying : ((s.requestsFor g).map (·.op)).Perm standing.flying
  tracks : Tracks (s.groups g).inFlight (s.heldFor g)
  arrayOf : ∀ r ∈ s.requestsFor g, ∃ a < s.arrays.length, (s.ops r.op).cbArray = some a

structure KernelHolds (s : KernelState) (st : Int32 → Standing) : Prop where
  apart : Dispatch.Apart (Standing.place ∘ st)
  stands : ∀ g, (st g).activity ≠ .failed → KernelStands s g (st g)
  /-- what is left of a failed `submit` -/
  lost : ∀ g, (st g).activity = .failed → ((s.requestsFor g).map (·.op)).Subperm (st g).place

section Kernel

variable {s next : KernelState} {st : Int32 → Standing} {g : Int32} {standing : Standing}

theorem mem_requestsFor {r : KernelRequest} :
    r ∈ s.requestsFor g ↔ r ∈ s.held ∧ r.group = g := by
  unfold KernelState.requestsFor
  rw [List.mem_filter, decide_eq_true_iff]

theorem KernelStands.mem_flying (stands : KernelStands s g standing) {r : KernelRequest}
    (member : r ∈ s.requestsFor g) : r.op ∈ standing.flying :=
  stands.flying.mem_iff.mp (List.mem_map_of_mem member)

/-- **Frame.** How a group stands depends on the group, on its requests and on their arrays. -/
theorem KernelStands.frame (stands : KernelStands s g standing) (groups : next.groups g = s.groups g)
    (requests : next.requestsFor g = s.requestsFor g) (arrays : s.arrays.length ≤ next.arrays.length)
    (cbArray : ∀ n ∈ standing.flying, (next.ops n).cbArray = (s.ops n).cbArray) :
    KernelStands next g standing where
  queue := by rw [groups, stands.queue]
  flying := by rw [requests]; exact stands.flying
  tracks := by
    show Tracks (next.groups g).inFlight ((next.requestsFor g).map fun r => (r.data, r.op))
    rw [groups, requests]
    exact stands.tracks
  arrayOf r member := by
    rw [requests] at member
    obtain ⟨a, below, isArray⟩ := stands.arrayOf r member
    exact ⟨a, by omega, by rw [cbArray r.op (stands.mem_flying member), isArray]⟩

/-- A call of one group: what it is left with, and that the others are left alone. -/
theorem KernelHolds.update (holds : KernelHolds s st)
    (apart : Dispatch.Apart (Standing.place ∘ Function.update st g standing))
    (requests : ∀ g' ≠ g, next.requestsFor g' = s.requestsFor g')
    (own : standing.activity ≠ .failed → KernelStands next g standing)
    (lost : standing.activity = .failed → ((next.requestsFor g).map (·.op)).Subperm standing.place)
    (others : ∀ g' ≠ g, (st g').activity ≠ .failed → KernelStands next g' (st g')) :
    KernelHolds next (Function.update st g standing) where
  apart := apart
  stands g' alive := by
    by_cases here : g' = g
    · subst here
      rw [Function.update_self] at alive ⊢
      exact own alive
    · rw [Function.update_of_ne here] at alive ⊢
      exact others g' here alive
  lost g' failed := by
    by_cases here : g' = g
    · subst here
      rw [Function.update_self] at failed ⊢
      exact lost failed
    · rw [Function.update_of_ne here] at failed ⊢
      rw [requests g' here]
      exact holds.lost g' failed

/-- The requests of a group are for different operations of the group. -/
theorem KernelHolds.requests_place (holds : KernelHolds s st) (g : Int32) :
    ((s.requestsFor g).map (·.op)).Subperm (st g).place := by
  by_cases failed : (st g).activity = .failed
  · exact holds.lost g failed
  · exact (holds.stands g failed).flying.subperm.trans (List.sublist_append_right _ _).subperm

/-- An operation of one group is not in flight for another. -/
theorem KernelHolds.elsewhere (holds : KernelHolds s st) {n : Nat} (member : n ∈ (st g).place)
    {g' : Int32} (other : g' ≠ g) : n ∉ (st g').flying := fun flying =>
  other (holds.apart.apart g' g n (List.mem_append_right _ flying) member)

theorem kernelHolds_init (ops : Nat → KernelAsyncIop) : KernelHolds { ops } fun _ => {} where
  apart := .empty
  stands _ _ := ⟨rfl, List.Perm.refl _, .empty, fun _ member => by cases member⟩
  lost _ failed := by cases failed

theorem kernelHolds_store (holds : KernelHolds s st) {n : Nat} (op : KernelAsyncIop)
    (free : ∀ g, n ∉ (st g).place) :
    KernelHolds { s with ops := Function.update s.ops n op } st where
  apart := holds.apart
  stands g alive := by
    refine (holds.stands g alive).frame rfl rfl le_rfl fun m member => ?_
    have ne : m ≠ n := fun same => free g (List.mem_append_right _ (same ▸ member))
    show (Function.update s.ops n op m).cbArray = _
    rw [Function.update_of_ne ne]
  lost := holds.lost

theorem kernelHolds_enqueue (holds : KernelHolds s st) {n : Nat} {q f : List Nat}
    (here : st g = ⟨.outside, q, f⟩) (isGroup : (s.ops n).groupId = g)
    (free : ∀ g, n ∉ (st g).place) :
    KernelHolds (s.enqueue n) (Function.update st g ⟨.outside, q ++ [n], f⟩) := by
  have stands := holds.stands g (by rw [here]; exact nofun)
  rw [here] at stands
  refine holds.update (apart_enqueue holds.apart here free) (fun _ _ => rfl) (fun _ => ?_) nofun
    fun g' other alive => ?_
  · refine ⟨?_, stands.flying, ?_, stands.arrayOf⟩
    · show ((s.enqueue n).groups g).opQueue = q ++ [n]
      unfold KernelState.enqueue
      dsimp only
      rw [isGroup, Function.update_self, stands.queue]
    · rw [enqueue_inFlight]
      exact stands.tracks
  · refine (holds.stands g' alive).frame ?_ rfl le_rfl fun _ _ => rfl
    unfold KernelState.enqueue
    dsimp only
    rw [isGroup, Function.update_of_ne other]

/-- The group enters a call. -/
theorem kernelHolds_call (holds : KernelHolds s st) {q f : List Nat}
    (here : st g = ⟨.outside, q, f⟩) {activity : Activity} (alive : activity ≠ .failed) :
    KernelHolds s (Function.update st g ⟨activity, q, f⟩) := by
  have stands := holds.stands g (by rw [here]; exact nofun)
  rw [here] at stands
  refine holds.update (apart_of_perm holds.apart ?_) (fun _ _ => rfl) (fun _ => ?_)
    (fun failed => absurd failed alive) fun g' _ alive => holds.stands g' alive
  · rw [here]
    exact List.Subperm.refl _
  · exact ⟨stands.queue, stands.flying, stands.tracks, stands.arrayOf⟩

/-! ### Submit -/

/-- The loop of `submit` leaves the other operations alone, and what all of them say. -/
theorem fill_frame {a : Nat} {queue : List Nat} {start final : KernelState.Filling}
    (done : queue.foldlM (KernelState.fill a) start = some final) (empty : start.array = []) :
    final.array = queue ∧ (∀ n ∉ queue, final.ops n = start.ops n) ∧
      ∀ n, Unchanged (start.ops n) (final.ops n) := by
  refine Loop.foldlM_history (fun past state => state.array = past ∧
    (∀ n ∉ past, state.ops n = start.ops n) ∧ ∀ n, Unchanged (start.ops n) (state.ops n)) done
    ⟨empty, fun _ _ => rfl, fun _ => .refl _⟩ ?_
  rintro past state op next _ ⟨array, others, unchanged⟩ step
  obtain ⟨id, _, isArray, _, ops⟩ := KernelState.fill_some step
  have same : Unchanged (state.ops op) { state.ops op with
      cbArray := some a
      cb := { (state.ops op).cb with data := id } } := ⟨rfl, fun inStep => inStep⟩
  rw [ops]
  refine ⟨by rw [isArray, array], fun n outside => ?_, fun n => (unchanged n).trans (same.update n)⟩
  rw [List.mem_append, List.mem_singleton, not_or] at outside
  rw [Function.update_of_ne outside.2, others n outside.1]

/-- **What any submit leaves alone**: the other groups, their requests, and the operations that were
not queued. The new requests are for those that were. -/
structure SubmitFrame (s next : KernelState) (g : Int32) : Prop where
  groups : ∀ g' ≠ g, next.groups g' = s.groups g'
  requests : ∀ g' ≠ g, next.requestsFor g' = s.requestsFor g'
  queued : ∃ more, next.requestsFor g = s.requestsFor g ++ more ∧
    (more.map (·.op)).Sublist (s.groups g).opQueue
  arrays : s.arrays.length ≤ next.arrays.length
  ops : ∀ n ∉ (s.groups g).opQueue, next.ops n = s.ops n
  unchanged : ∀ n, Unchanged (s.ops n) (next.ops n)

theorem submit_frame {err ret : Int32} {cancelled : Nat → Bool}
    (done : s.submit g err cancelled = some (ret, next)) :
    SubmitFrame s next g ∧ (err.toInt ≠ (s.groups g).opQueue.length → ret = err) := by
  unfold KernelState.submit at done
  simp only [bind, Option.bind_eq_some_iff] at done
  obtain ⟨filled, loop, done⟩ := done
  obtain ⟨array, ops, unchanged⟩ := fill_frame loop rfl
  have isGroup := KernelState.requests_group s g filled.ops (filled.array.take err.toInt.toNat)
  have isQueued : ((s.requests g filled.ops (filled.array.take err.toInt.toNat)).map (·.op)).Sublist
      (s.groups g).opQueue := by
    rw [KernelState.requests_ops, array]
    exact List.take_sublist _ _
  generalize s.requests g filled.ops (filled.array.take err.toInt.toNat) = requests at *
  have elsewhere : ∀ more : List KernelRequest, (∀ r ∈ more, r.group = g) → ∀ g' ≠ g,
      (s.held ++ more).filter (·.group = g') = s.requestsFor g' := fun more isGroup g' other => by
    rw [heldFor_append isGroup, if_neg other, List.append_nil]
    rfl
  have queued : ∀ more : List KernelRequest, more.Sublist requests →
      ∃ more', (s.held ++ more).filter (·.group = g) = s.requestsFor g ++ more' ∧
        (more'.map (·.op)).Sublist (s.groups g).opQueue := fun more sub => by
    refine ⟨more, ?_, (sub.map _).trans isQueued⟩
    rw [heldFor_append fun r member => isGroup r (sub.subset member), if_pos rfl]
    rfl
  split_ifs at done with partly
  · cases done
    have kept : ((requests.zipIdx.filter fun request => !cancelled request.2).map (·.1)).Sublist
        requests := by
      have sub := (List.filter_sublist (l := requests.zipIdx)
        (p := fun request => !cancelled request.2)).map (·.1)
      rwa [List.zipIdx_map_fst] at sub
    refine ⟨⟨fun g' other => Function.update_of_ne other _ _,
      elsewhere _ fun r member => isGroup r (kept.subset member), queued _ kept, ?_, ops, unchanged⟩,
      fun _ => rfl⟩
    rw [List.length_append]
    exact Nat.le_add_right _ _
  · cases done
    refine ⟨⟨fun g' other => Function.update_of_ne other _ _, elsewhere _ isGroup,
      queued _ (List.Sublist.refl _), ?_, ops, unchanged⟩, fun whole => absurd whole partly⟩
    rw [List.length_append]
    exact Nat.le_add_right _ _

/-- The other groups stand as they did after a submit. -/
theorem KernelHolds.others_submit (holds : KernelHolds s st) {q f : List Nat}
    (here : st g = ⟨.submitting, q, f⟩) (frame : SubmitFrame s next g) {g' : Int32} (other : g' ≠ g)
    (alive : (st g').activity ≠ .failed) : KernelStands next g' (st g') := by
  have stands := holds.stands g (by rw [here]; exact nofun)
  refine (holds.stands g' alive).frame (frame.groups g' other) (frame.requests g' other)
    frame.arrays fun n flying => ?_
  rw [frame.ops n fun queued => ?_]
  rw [stands.queue] at queued
  exact holds.elsewhere (List.mem_append_left _ queued) other flying

theorem kernelHolds_submit (holds : KernelHolds s st) {q f : List Nat} {err ret : Int32}
    {cancelled : Nat → Bool} (here : st g = ⟨.submitting, q, f⟩)
    (returns : IoSubmitReturns (s.groups g).opQueue.length err)
    (done : s.submit g err cancelled = some (ret, next)) :
    (ret = 0 ∧ ∃ f', f'.Perm (q ++ f) ∧
        KernelHolds next (Function.update st g ⟨.outside, [], f'⟩)) ∨
      (ret ≠ 0 ∧ KernelHolds next (Function.update st g ⟨.failed, q, f⟩)) := by
  obtain ⟨frame, failed⟩ := submit_frame done
  have stands := holds.stands g (by rw [here]; exact nofun)
  have others := fun g' (other : g' ≠ g) (alive : (st g').activity ≠ .failed) =>
    holds.others_submit here frame other alive
  rw [here] at stands
  have queue : (s.groups g).opQueue = q := stands.queue
  by_cases whole : err.toInt = (s.groups g).opQueue.length
  · have nodup : (s.groups g).opQueue.Nodup := by
      have distinct := holds.apart.queues g
      rw [Function.comp_apply, here] at distinct
      rw [queue]
      exact distinct.sublist (List.sublist_append_left q f)
    obtain ⟨ops, inFlight, nextFlight, rfl, old, filled, tracks, rfl⟩ :=
      KernelState.submit_accepted whole nodup stands.tracks done
    have pairs := KernelState.requests_pairs s g ops (s.groups g).opQueue
    have isOps := KernelState.requests_ops s g ops (s.groups g).opQueue
    have isGroup := KernelState.requests_group s g ops (s.groups g).opQueue
    generalize s.requests g ops (s.groups g).opQueue = requests at *
    have joined : (s.held ++ requests).filter (·.group = g) = s.requestsFor g ++ requests := by
      rw [heldFor_append isGroup, if_pos rfl]
      rfl
    refine Or.inl ⟨rfl, (s.requestsFor g ++ requests).map (·.op), ?_,
      holds.update ?_ frame.requests (fun _ => ?_) nofun others⟩
    · rw [List.map_append, isOps, queue]
      exact (stands.flying.append_right q).trans List.perm_append_comm
    · refine apart_of_perm holds.apart (List.Perm.subperm ?_)
      rw [here]
      show ((s.requestsFor g ++ requests).map (·.op)).Perm (q ++ f)
      rw [List.map_append, isOps, queue]
      exact (stands.flying.append_right q).trans List.perm_append_comm
    · refine ⟨?_, ?_, ?_, ?_⟩
      · dsimp only
        rw [Function.update_self]
      · exact List.Perm.of_eq (congrArg (List.map (·.op)) joined)
      · dsimp only
        rw [Function.update_self]
        show Tracks inFlight (((s.held ++ requests).filter (·.group = g)).map fun r => (r.data, r.op))
        rw [joined, List.map_append, pairs]
        exact tracks
      · intro r member
        dsimp only
        rw [List.length_append, List.length_singleton]
        have member' : r ∈ s.requestsFor g ++ requests := joined ▸ member
        rcases List.mem_append.mp member' with isOld | isNew
        · obtain ⟨a, below, isArray⟩ := stands.arrayOf r isOld
          have notQueued : r.op ∉ (s.groups g).opQueue := fun queued => by
            have distinct := holds.apart.queues g
            rw [Function.comp_apply, here] at distinct
            exact (List.nodup_append.mp distinct).2.2 r.op (queue ▸ queued) r.op
              (stands.mem_flying isOld) rfl
          exact ⟨a, by omega, by rw [old r.op notQueued, isArray]⟩
        · exact ⟨s.arrays.length, by omega, filled r.op (by
            rw [← isOps]
            exact List.mem_map_of_mem isNew)⟩
  · refine Or.inr ⟨?_, holds.update (apart_of_perm holds.apart ?_) frame.requests
      (fun alive => absurd rfl alive) (fun _ => ?_) others⟩
    · rw [failed whole]
      intro zero
      have none := returns.2 zero
      rw [zero] at whole
      exact whole (by rw [none]; rfl)
    · rw [here]
      exact List.Subperm.refl _
    · obtain ⟨more, requests, sub⟩ := frame.queued
      rw [requests, List.map_append]
      rw [queue] at sub
      exact ((stands.flying.append_right _).trans List.perm_append_comm).subperm.trans
        (sub.append (List.Sublist.refl f)).subperm

/-! ### Wait -/

/-- An event of any request of the group finds its operation. -/
theorem KernelStands.complete (stands : KernelStands s g standing) {r : KernelRequest}
    (member : r ∈ s.requestsFor g) (res : Int64) :
    ∃ next, s.complete g r.data res = some (r.op, next) := by
  obtain ⟨a, below, isArray⟩ := stands.arrayOf r member
  have found : (s.groups g).inFlight.lookup r.data = some r.op :=
    stands.tracks.lookup (List.mem_map.mpr ⟨r, member, rfl⟩)
  unfold KernelState.complete
  simp only [found, isArray, List.getElem?_eq_getElem below, bind, Option.bind_some]
  exact ⟨_, rfl⟩

theorem kernelHolds_wait (holds : KernelHolds s st) {q f : List Nat} {op : Option Nat}
    (here : st g = ⟨.waiting, q, f⟩) (returned : KernelWaitReturns s g op next) :
    ∃ n f', op = some n ∧ f.Perm (n :: f') ∧
      KernelHolds next (Function.update st g ⟨.outside, q, f'⟩) := by
  have stands := holds.stands g (by rw [here]; exact nofun)
  rw [here] at stands
  cases returned with
  | @null r before after res held isGroup missing =>
    have member : r ∈ s.requestsFor g :=
      mem_requestsFor.mpr ⟨by rw [held]; exact List.mem_append_cons_self, isGroup⟩
    obtain ⟨_, done⟩ := stands.complete member res
    rw [done] at missing
    cases missing
  | @found r before after res op next held isGroup done =>
    have member : r ∈ s.requestsFor g :=
      mem_requestsFor.mpr ⟨by rw [held]; exact List.mem_append_cons_self, isGroup⟩
    obtain ⟨found, a, array, isArray, inArrays, rfl⟩ := KernelState.complete_some done
    have isOp : op = r.op := by
      rw [stands.tracks.lookup (List.mem_map.mpr ⟨r, member, rfl⟩), Option.some.injEq] at found
      exact found.symm
    subst isOp
    have middle : s.held.Perm (r :: (before ++ after)) := by
      rw [held]
      exact List.perm_middle
    have split : (s.requestsFor g).Perm (r :: (before ++ after).filter (·.group = g)) := by
      have filtered := middle.filter (·.group = g)
      rwa [List.filter_cons_of_pos (by simpa using isGroup)] at filtered
    have fields : ∀ n, (Function.update s.ops r.op
        { s.ops r.op with result := res.toInt32 } n).cbArray = (s.ops n).cbArray :=
      update_cbArray rfl
    have requests : ∀ g' ≠ g, (before ++ after).filter (·.group = g') = s.requestsFor g' := by
      intro g' other
      unfold KernelState.requestsFor
      rw [held, List.filter_append, List.filter_append,
        List.filter_cons_of_neg (by simpa [isGroup] using Ne.symm other)]
    refine ⟨r.op, ((before ++ after).filter (·.group = g)).map (·.op), rfl,
      stands.flying.symm.trans (split.map (·.op)),
      holds.update ?_ requests (fun _ => ?_) nofun fun g' other alive => ?_⟩
    · refine apart_of_perm holds.apart ?_
      rw [here]
      have fewer := (List.sublist_cons_self r.op
        (((before ++ after).filter (·.group = g)).map (·.op))).subperm
      exact (List.subperm_append_left q).mpr
        (fewer.trans (stands.flying.symm.trans (split.map (·.op))).symm.subperm)
    · refine ⟨?_, List.Perm.refl _, ?_, fun r' isRest => ?_⟩
      · dsimp only
        rw [Function.update_self]
        exact stands.queue
      · dsimp only
        rw [Function.update_self]
        have tracks : Tracks (s.groups g).inFlight
            ((r :: (before ++ after).filter (·.group = g)).map fun r => (r.data, r.op)) :=
          stands.tracks.perm (split.map _)
        exact tracks.erase
      · show ∃ a' < (s.arrays.set a _).length, (Function.update s.ops r.op _ r'.op).cbArray = some a'
        rw [fields, List.length_set]
        exact stands.arrayOf r' (split.mem_iff.mpr (List.mem_cons_of_mem r isRest))
    · exact (holds.stands g' alive).frame (Function.update_of_ne other _ _) (requests g' other)
        (le_of_eq List.length_set.symm) fun n _ => fields n

/-- An event sets the result of an operation only. -/
theorem kernelWait_unchanged {op : Option Nat} (returned : KernelWaitReturns s g op next) (n : Nat) :
    Unchanged (s.ops n) (next.ops n) := by
  cases returned with
  | null => exact .refl _
  | @found r _ _ res op _ _ _ done =>
    obtain ⟨_, _, _, _, _, rfl⟩ := KernelState.complete_some done
    have same : Unchanged (s.ops op) { s.ops op with result := res.toInt32 } :=
      ⟨rfl, fun inStep => inStep⟩
    exact same.update n

/-- **The libaio engine keeps the promise.** -/
def lawfulKernel : LawfulManager kernelAsyncIOManager where
  Holds := KernelHolds
  apart holds := holds.apart
  requests holds alive := (holds.stands _ alive).flying
  requests_place holds := holds.requests_place _
  init isInit := by
    obtain ⟨ops, rfl⟩ := isInit
    exact kernelHolds_init ops
  store op holds free := kernelHolds_store holds op free
  ops_store _ _ _ := rfl
  enqueue holds here isGroup free := kernelHolds_enqueue holds here isGroup free
  callSubmit holds here := kernelHolds_call holds here nofun
  callWait holds here := kernelHolds_call holds here nofun
  insideSubmit _ _ step := step.elim
  insideWait _ _ step := step.elim
  submitReturns holds here returned := by
    obtain ⟨err, cancelled, sound, done⟩ := returned
    exact kernelHolds_submit holds here sound done
  waitReturns holds here returned := kernelHolds_wait holds here returned
  device _ step := step.elim
  enqueue_ops _ _ _ := .refl _
  callSubmit_ops _ _ _ := .refl _
  callWait_ops _ _ _ := .refl _
  inside_ops step := step.elim
  submitReturns_ops returned := by
    obtain ⟨err, cancelled, _, done⟩ := returned
    exact (submit_frame done).1.unchanged
  waitReturns_ops returned := kernelWait_unchanged returned
  device_ops step := step.elim

end Kernel

end DiskSpd
