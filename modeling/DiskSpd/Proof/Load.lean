/-
**The load on the kernel.**

* `WorkInv.keeps` — a call of an engine for one group takes nothing out of flight, but for the operation
  that `wait` returns.
* `workStep_keeps` — so a step of the threads leaves each thread its requests, or all but that one.
* `workStep_stands`, `jobWork_leaves` — a thread that ends leaves all of its operations with the kernel but
  the one its last `wait` has returned, and nobody takes them back.
* `run_load` — from the warm-up on, until it leaves its loop or fails, a thread has all of its operations
  with the kernel, or all of them but one, however the job, the threads, the engine and the device
  interleave.
-/

import DiskSpd.Proof.Run

namespace DiskSpd

open Transition

/-! ### One step -/

theorem Place.In.alive {place : Place} {activity : Activity} (inCall : place.In activity)
    (notAborted : place ≠ .outside .aborted) : activity ≠ .failed := by
  unfold Place.In at inCall
  split at inCall
  · rw [inCall]
    decide
  · rw [inCall]
    decide
  · exact absurd rfl notAborted
  · rw [inCall]
    decide

section Step

variable {Op Engine : Type} [IAsyncIop Op] [LawfulIop Op] {manager : IAsyncIOManager Op}
  {lawful : LawfulManager manager} {dist : UniformInt Engine} {targets : List Target}
  {params : List ThreadParams} {names : Nat → List Nat} {st : Int32 → Standing}
  {s next : WorkState manager Engine} {fails : Nat → Bool} {a : JobState Op Engine}
  {k m : Nat} {th moved : ThreadParams} {activity : Activity} {q' f' : List Nat}

/-- The number of requests that the kernel has for a thread. -/
def WorkState.load (s : WorkState manager Engine) (th : ThreadParams) : Nat :=
  (manager.requests s.engine th.groupId).length

/-- The requests of a thread that has not failed are what its group has in flight. -/
theorem WorkInv.requests_flying (inv : WorkInv lawful params names st s fails a)
    (isThread : params[k]? = some th) (alive : (s.workers k).place ≠ .outside .aborted) :
    (manager.requests s.engine th.groupId).Perm (st th.groupId).flying :=
  lawful.requests inv.holds ((inv.follows k th isThread).inCall.alive alive)

theorem WorkInv.load_eq (inv : WorkInv lawful params names st s fails a)
    (isThread : params[k]? = some th) (alive : (s.workers k).place ≠ .outside .aborted) :
    s.load th = (st th.groupId).flying.length :=
  (inv.requests_flying isThread alive).length_eq

/-- A step that leaves the groups as they stand. -/
theorem WorkInv.load_of_holds (inv : WorkInv lawful params names st s fails a)
    (holds : lawful.Holds next.engine st) (isThread : params[k]? = some th)
    (alive : (s.workers k).place ≠ .outside .aborted) : s.load th = next.load th := by
  rw [inv.load_eq isThread alive]
  exact (lawful.requests holds ((inv.follows k th isThread).inCall.alive alive)).length_eq.symm

/-- **One group moves**, and at most `lost` of its operations are no longer in flight. -/
theorem WorkInv.keeps (inv : WorkInv lawful params names st s fails a)
    (distinct : DistinctGroups params) (isMoved : params[m]? = some moved)
    (holds : lawful.Holds next.engine (Function.update st moved.groupId ⟨activity, q', f'⟩))
    {lost : Nat} (kept : (st moved.groupId).flying.length ≤ f'.length + lost)
    (isThread : params[k]? = some th) (alive : (s.workers k).place ≠ .outside .aborted)
    (alive' : k = m → activity ≠ .failed) :
    s.load th ≤ next.load th + if k = m then lost else 0 := by
  rw [inv.load_eq isThread alive]
  by_cases here : k = m
  · subst here
    rw [isMoved, Option.some.injEq] at isThread
    subst isThread
    have after : (Function.update st moved.groupId ⟨activity, q', f'⟩ moved.groupId).activity ≠
        .failed := by
      rw [Function.update_self]
      exact alive' rfl
    have same := (lawful.requests holds after).length_eq
    rw [Function.update_self] at same
    rw [if_pos rfl, WorkState.load, same]
    exact kept
  · have other : th.groupId ≠ moved.groupId := fun same =>
      here (distinct k m th moved isThread isMoved same)
    have after : (Function.update st moved.groupId ⟨activity, q', f'⟩ th.groupId).activity ≠
        .failed := by
      rw [Function.update_of_ne other]
      exact (inv.follows k th isThread).inCall.alive alive
    have same := (lawful.requests holds after).length_eq
    rw [Function.update_of_ne other] at same
    rw [if_neg here, WorkState.load, same]
    exact le_rfl

/-- **What a step leaves of the load**: all of it, unless the thread has been in `wait`. -/
structure KeepsLoad (th : ThreadParams) (k : Nat) (s next : WorkState manager Engine) : Prop where
  butOne : s.load th ≤ next.load th + 1
  all : (s.workers k).place ≠ .waiting → s.load th ≤ next.load th

omit [IAsyncIop Op] [LawfulIop Op] in
theorem KeepsLoad.of_le (le : s.load th ≤ next.load th) : KeepsLoad th k s next :=
  ⟨Nat.le_succ_of_le le, fun _ => le⟩

omit [IAsyncIop Op] [LawfulIop Op] in
/-- A step that leaves the engine alone. -/
theorem KeepsLoad.of_engine (same : next.engine = s.engine) : KeepsLoad th k s next := by
  refine .of_le (le_of_eq ?_)
  unfold WorkState.load
  rw [same]

/-- A call that takes nothing out of flight. -/
theorem WorkInv.keepsLoad (inv : WorkInv lawful params names st s fails a)
    (distinct : DistinctGroups params) (isMoved : params[m]? = some moved)
    (holds : lawful.Holds next.engine (Function.update st moved.groupId ⟨activity, q', f'⟩))
    (kept : (st moved.groupId).flying.length ≤ f'.length)
    (isThread : params[k]? = some th) (alive : (s.workers k).place ≠ .outside .aborted)
    (alive' : k = m → activity ≠ .failed) : KeepsLoad th k s next := by
  have kept : (st moved.groupId).flying.length ≤ f'.length + 0 := kept
  have load := inv.keeps distinct isMoved holds kept isThread alive alive'
  rw [ite_self, Nat.add_zero] at load
  exact .of_le load

/-- The construction of an operation, which is queued. -/
theorem WorkInv.construct_holds (inv : WorkInv lawful params names st s fails a)
    (isMoved : params[m]? = some moved) {t : Nat} {i : UInt32} {curr : Int64} {tData : TargetData}
    {percentage : UInt32} {now uninit : UInt64}
    (atPlace : (s.workers m).place = .outside (.issue t i curr)) :
    lawful.Holds (s.construct m (IAsyncIop.construct uninit
      (ThreadState.iopArgs moved tData t i curr percentage now)) (.outside (.advance t i curr))).engine
      (Function.update st moved.groupId
        ⟨.outside, (st moved.groupId).queue ++ [s.made], (st moved.groupId).flying⟩) := by
  obtain ⟨q, f, stands⟩ := inv.stands isMoved atPlace fun _ is => is
  let op : Op :=
    IAsyncIop.construct uninit (ThreadState.iopArgs moved tData t i curr percentage now)
  have stored : lawful.Holds (manager.store s.engine s.made op) st :=
    lawful.store op inv.holds inv.fresh
  have isGroup : (LawfulIop.view (manager.ops (manager.store s.engine s.made op) s.made)).groupId =
      moved.groupId := by
    rw [lawful.ops_store, Function.update_self, LawfulIop.view_construct]
    rfl
  rw [stands]
  exact lawful.enqueue stored stands isGroup inv.fresh

/-- The end of a `submit`. -/
theorem WorkInv.submitReturns_keeps (inv : WorkInv lawful params names st s fails a)
    (distinct : DistinctGroups params) (isMoved : params[m]? = some moved) {ret : Int32}
    {engine : manager.State} (atPlace : (s.workers m).place = .submitting)
    (taken : manager.submitReturns s.engine moved.groupId ret engine)
    (isThread : params[k]? = some th) (alive : (s.workers k).place ≠ .outside .aborted)
    (succeeds : k = m → ret = 0) (engine_eq : next.engine = engine) : KeepsLoad th k s next := by
  subst engine_eq
  obtain ⟨q, f, stands⟩ := inv.stands isMoved atPlace fun _ is => is
  rcases lawful.submitReturns inv.holds stands taken with ⟨_, f', same, holds⟩ | ⟨failed, holds⟩
  · refine inv.keepsLoad distinct isMoved holds ?_ isThread alive fun _ => by decide
    have length := same.length_eq
    rw [List.length_append] at length
    rw [stands]
    show f.length ≤ f'.length
    omega
  · exact inv.keepsLoad distinct isMoved holds (by rw [stands]) isThread alive fun here =>
      absurd (succeeds here) failed

/-- The end of a `wait`: only the thread itself has one operation less in flight. -/
theorem WorkInv.waitReturns_keeps (inv : WorkInv lawful params names st s fails a)
    (distinct : DistinctGroups params) (isMoved : params[m]? = some moved) {op : Option Nat}
    {engine : manager.State} (atPlace : (s.workers m).place = .waiting)
    (taken : manager.waitReturns s.engine moved.groupId op engine) (isThread : params[k]? = some th)
    (alive : (s.workers k).place ≠ .outside .aborted) (engine_eq : next.engine = engine) :
    KeepsLoad th k s next := by
  subst engine_eq
  obtain ⟨q, f, stands⟩ := inv.stands isMoved atPlace fun _ is => is
  obtain ⟨n, f', _, split, holds⟩ := lawful.waitReturns inv.holds stands taken
  have kept : (st moved.groupId).flying.length ≤ f'.length + 1 := by
    rw [stands]
    exact split.length_eq.le
  have load := inv.keeps distinct isMoved holds kept isThread alive fun _ => by decide
  refine ⟨load.trans (Nat.add_le_add_left (by split <;> decide) _), fun notWaiting => ?_⟩
  have other : ¬ k = m := fun here => notWaiting (by rw [here, atPlace])
  rwa [if_neg other] at load

/-- **Each step of the threads or of the device** leaves the load of a thread that does not fail. -/
theorem workStep_keeps (inv : WorkInv lawful params names st s fails a)
    (reached : Reachable (jobSystem Op dist targets params) a) (distinct : DistinctGroups params)
    {turn : Turn} (step : WorkStep manager dist params s turn next) (isThread : params[k]? = some th)
    (alive : (s.workers k).place ≠ .outside .aborted)
    (alive' : (next.workers k).place ≠ .outside .aborted) : KeepsLoad th k s next := by
  cases step with
  | startOffset | targetsDone | overlapDone | advance | leave | throttle | waitLast | fail =>
    exact .of_engine rfl
  | construct isMoved atPlace =>
    exact inv.keepsLoad distinct isMoved (inv.construct_holds isMoved atPlace) le_rfl isThread alive
      fun _ => by decide
  | callSubmit isMoved atPlace =>
    obtain ⟨q, f, stands⟩ := inv.stands isMoved atPlace fun _ is => is
    exact inv.keepsLoad distinct isMoved (lawful.callSubmit inv.holds stands) (by rw [stands])
      isThread alive fun _ => by decide
  | inside isMoved atPlace taken =>
    rcases atPlace with atPlace | atPlace
    · obtain ⟨q, f, stands⟩ := inv.stands isMoved atPlace fun _ is => is
      obtain ⟨q', f', _, more, holds⟩ := lawful.insideSubmit inv.holds stands taken
      exact inv.keepsLoad distinct isMoved holds (by rw [stands]; exact more.length_le) isThread
        alive fun _ => by decide
    · obtain ⟨q, f, stands⟩ := inv.stands isMoved atPlace fun _ is => is
      obtain ⟨f', same, holds⟩ := lawful.insideWait inv.holds stands taken
      exact inv.keepsLoad distinct isMoved holds (by rw [stands]; exact same.length_eq.ge) isThread
        alive fun _ => by decide
  | @submitReturns m moved ret engine isMoved atPlace taken =>
    refine inv.submitReturns_keeps distinct isMoved atPlace taken isThread alive (fun here => ?_) rfl
    subst here
    by_contra failed
    refine alive' ?_
    show (Function.update s.workers k _ k).place = _
    rw [Function.update_self, if_neg failed]
    rfl
  | callWait isMoved atPlace =>
    obtain ⟨q, f, stands⟩ := inv.stands isMoved atPlace fun _ is => is
    exact inv.keepsLoad distinct isMoved (lawful.callWait inv.holds stands) (by rw [stands])
      isThread alive fun _ => by decide
  | waitReturns isMoved atPlace taken =>
    exact inv.waitReturns_keeps distinct isMoved atPlace taken isThread alive rfl
  | complete isMoved atPlace =>
    have free := inv.free reached isMoved (by rw [atPlace]; rfl)
    exact .of_le (inv.load_of_holds (lawful.store _ inv.holds free) isThread alive).le
  | @enqueue m n moved isMoved atPlace =>
    obtain ⟨q, f, stands⟩ := inv.stands isMoved atPlace fun _ is => is
    have follows := inv.follows _ _ isMoved
    have free := inv.free reached isMoved (n := n) (by rw [atPlace]; rfl)
    have isGroup := follows.group n (follows.hasName (by rw [atPlace]; exact List.mem_cons_self))
    exact inv.keepsLoad distinct isMoved (lawful.enqueue inv.holds stands isGroup free)
      (by rw [stands]) isThread alive fun _ => by decide
  | device step => exact .of_le (inv.load_of_holds (lawful.device inv.holds step) isThread alive).le

/-! ### When a thread ends -/

/-- **Each step of another thread or of the device** leaves the group of a thread as it stands. -/
theorem workStep_stands (inv : WorkInv lawful params names st s fails a)
    (reached : Reachable (jobSystem Op dist targets params) a) (distinct : DistinctGroups params)
    {turn : Turn} (step : WorkStep manager dist params s turn next) (isThread : params[k]? = some th)
    (other : ∀ saw, turn ≠ .thread k saw) :
    ∃ st', lawful.Holds next.engine st' ∧ st' th.groupId = st th.groupId := by
  have elsewhere : ∀ {m moved saw}, turn = .thread m saw → params[m]? = some moved →
      ∀ standing, Function.update st moved.groupId standing th.groupId = st th.groupId := by
    intro m moved saw isTurn isMoved standing
    refine Function.update_of_ne (fun same => other saw ?_) _ _
    rw [isTurn, distinct k m th moved isThread isMoved same]
  cases step with
  | startOffset | targetsDone | overlapDone | advance | leave | throttle | waitLast | fail =>
    exact ⟨st, inv.holds, rfl⟩
  | construct isMoved atPlace =>
    exact ⟨_, inv.construct_holds isMoved atPlace, elsewhere rfl isMoved _⟩
  | callSubmit isMoved atPlace =>
    obtain ⟨q, f, stands⟩ := inv.stands isMoved atPlace fun _ is => is
    exact ⟨_, lawful.callSubmit inv.holds stands, elsewhere rfl isMoved _⟩
  | inside isMoved atPlace taken =>
    rcases atPlace with atPlace | atPlace
    · obtain ⟨q, f, stands⟩ := inv.stands isMoved atPlace fun _ is => is
      obtain ⟨_, _, _, _, holds⟩ := lawful.insideSubmit inv.holds stands taken
      exact ⟨_, holds, elsewhere rfl isMoved _⟩
    · obtain ⟨q, f, stands⟩ := inv.stands isMoved atPlace fun _ is => is
      obtain ⟨_, _, holds⟩ := lawful.insideWait inv.holds stands taken
      exact ⟨_, holds, elsewhere rfl isMoved _⟩
  | submitReturns isMoved atPlace taken =>
    obtain ⟨q, f, stands⟩ := inv.stands isMoved atPlace fun _ is => is
    rcases lawful.submitReturns inv.holds stands taken with ⟨_, _, _, holds⟩ | ⟨_, holds⟩
    · exact ⟨_, holds, elsewhere rfl isMoved _⟩
    · exact ⟨_, holds, elsewhere rfl isMoved _⟩
  | callWait isMoved atPlace =>
    obtain ⟨q, f, stands⟩ := inv.stands isMoved atPlace fun _ is => is
    exact ⟨_, lawful.callWait inv.holds stands, elsewhere rfl isMoved _⟩
  | waitReturns isMoved atPlace taken =>
    obtain ⟨q, f, stands⟩ := inv.stands isMoved atPlace fun _ is => is
    obtain ⟨_, _, _, _, holds⟩ := lawful.waitReturns inv.holds stands taken
    exact ⟨_, holds, elsewhere rfl isMoved _⟩
  | complete isMoved atPlace =>
    have free := inv.free reached isMoved (by rw [atPlace]; rfl)
    exact ⟨st, lawful.store _ inv.holds free, rfl⟩
  | @enqueue m n moved isMoved atPlace =>
    obtain ⟨q, f, stands⟩ := inv.stands isMoved atPlace fun _ is => is
    have follows := inv.follows _ _ isMoved
    have free := inv.free reached isMoved (n := n) (by rw [atPlace]; rfl)
    have isGroup := follows.group n (follows.hasName (by rw [atPlace]; exact List.mem_cons_self))
    exact ⟨_, lawful.enqueue inv.holds stands isGroup free, elsewhere rfl isMoved _⟩
  | device step => exact ⟨st, lawful.device inv.holds step, rfl⟩

/-- A thread that has ended stays so, and its requests stay with the kernel. -/
theorem workStep_ended (inv : WorkInv lawful params names st s fails a)
    (reached : Reachable (jobSystem Op dist targets params) a) (distinct : DistinctGroups params)
    {turn : Turn} (step : WorkStep manager dist params s turn next) (isThread : params[k]? = some th)
    (ended : (s.workers k).place = .outside .ended) :
    (next.workers k).place = .outside .ended ∧
      (manager.requests next.engine th.groupId).Perm (manager.requests s.engine th.groupId) := by
  have other : ∀ saw, turn ≠ .thread k saw := by
    rintro saw rfl
    have moved := (workStep_effect step).1.place
    rw [ended] at moved
    cases moved
  have alive : (s.workers k).place ≠ .outside .aborted := by
    rw [ended]
    simp
  constructor
  · cases turn with
    | device => rwa [workStep_device step]
    | thread m saw =>
      rwa [(workStep_effect step).1.others k fun same => other saw (by rw [same])]
  · obtain ⟨st', holds, same⟩ := workStep_stands inv reached distinct step isThread other
    have running := (inv.follows k th isThread).inCall.alive alive
    rw [← same] at running
    exact (lawful.requests holds running).trans (same ▸ (inv.requests_flying isThread alive).symm)

/-- All operations of a thread that works: the one in its hand, and its requests. -/
theorem WorkInv.all_requests (inv : WorkInv lawful params names st s (fun _ => false) a)
    (reached : Reachable (jobSystem Op dist targets params) a) (isThread : params[k]? = some th)
    (works : (s.workers k).place.Works) (atWork : (s.workers k).place.phase false = .work) :
    ((s.workers k).place.hand ++ manager.requests s.engine th.groupId).Nodup ∧
      ((s.workers k).place.hand ++ manager.requests s.engine th.groupId).length =
        th.slots.length := by
  have follows := inv.follows k th isThread
  obtain ⟨linked, depth⟩ := depthInv_reachable reached isThread
  have alive : (s.workers k).place ≠ .outside .aborted := fun aborted => by
    rw [aborted] at atWork
    cases atWork
  have same := (inv.requests_flying isThread alive).append_left (s.workers k).place.hand
  have nodup := follows.nodup linked (inv.apart.queues k)
  have length := follows.pending.length_eq
  have phase : (a.threads k).phase = .work := follows.phase.trans atWork
  have full := inFlight_length depth phase
  unfold Standing.place at nodup length
  rw [follows.works works, List.nil_append] at nodup length
  unfold ThreadState.pendingNames ThreadState.pending at length
  rw [follows.submitted (Or.inl phase), List.nil_append, List.length_map, List.length_map,
    List.length_map, full] at length
  exact ⟨same.nodup_iff.mpr nodup, same.length_eq.trans length.symm⟩

omit [LawfulIop Op] in
/-- How a thread comes to its end: at the head of its loop, or after a `wait`. -/
theorem workStep_ends {turn : Turn} (step : WorkStep manager dist params s turn next)
    (notEnded : (s.workers k).place ≠ .outside .ended)
    (ended : (next.workers k).place = .outside .ended) :
    ((s.workers k).place = .outside .work ∨ ∃ op, (s.workers k).place = .waited op) ∧
      next.engine = s.engine := by
  cases turn with
  | device => exact absurd (workStep_device step ▸ ended) notEnded
  | thread m saw =>
    have here : k = m := by
      by_contra differs
      rw [(workStep_effect step).1.others k differs] at ended
      exact notEnded ended
    subst here
    cases step with
    | leave _ atPlace => exact ⟨Or.inl atPlace, rfl⟩
    | waitLast _ atPlace => exact ⟨Or.inr ⟨_, atPlace⟩, rfl⟩
    | inside | throttle => exact absurd ended notEnded
    | submitReturns =>
      change (Function.update s.workers k _ k).place = _ at ended
      rw [Function.update_self] at ended
      change Place.outside _ = _ at ended
      split at ended <;> cases ended
    | complete =>
      change (Function.update (Function.update s.workers k _) k _ k).place = _ at ended
      rw [Function.update_self] at ended
      cases ended
    | startOffset | targetsDone | construct | overlapDone | advance | callSubmit | callWait
    | waitReturns | fail | enqueue =>
      change (Function.update s.workers k _ k).place = _ at ended
      rw [Function.update_self] at ended
      cases ended

end Step

/-! ### The whole run -/

namespace Waits

variable {options : JobOptions} {s next : Waits} {k : Nat} {label : Option WaitLabel}

/-- A worker comes to a round through the head of its loop. -/
theorem maybe_round (step : options.waitSystem.maybe s label next)
    (round : next.worker k = .waited ∨ next.worker k = .record) :
    s.worker k = .throttle ∨ s.worker k = .waited ∨ s.worker k = .record := by
  match label, step with
  | none, same => exact Or.inr (same ▸ round)
  | some .job, step =>
    rw [(stepJob_effect step).worker] at round
    exact Or.inr round
  | some (.wake _), step =>
    rw [(wake_effect step).worker] at round
    exact Or.inr round
  | some (.worker n _), step =>
    obtain ⟨access, frame⟩ := step_worker_spec step
    by_cases here : k = n
    · subst here
      generalize s.worker k = phase at *
      generalize next.worker k = phase' at *
      cases access with
      | throttle => exact Or.inl rfl
      | waited => exact Or.inr (Or.inl rfl)
      | record => exact Or.inr (Or.inr rfl)
      | setUp | loopTest => rcases round with no | no <;> split at no <;> cases no
      | _ => rcases round with no | no <;> cases no
    · rw [frame.others k here] at round
      exact Or.inr round

end Waits

section Run

variable {Engine : Type} {job : JobOptions} {opened : UInt32 → Nat → JobOptions.Opened}
  {params : List ThreadParams} {dist : UniformInt Engine} {k : Nat} {th : ThreadParams}

/-- The kernel never has more requests of a thread than its group was created for. -/
theorem load_atMost (created : job.createThreads opened = some params)
    {s : WorkState job.ioManager.manager Engine}
    (reached : Reachable (job.workSystem dist params) s) (isThread : params[k]? = some th)
    (few : th.targets.length ≤ 2 ^ 32) : s.load th ≤ th.totalOverlap.toNat := by
  obtain ⟨a, isReached, standsFor⟩ := jobWork_alone created reached
  obtain ⟨linked, inv⟩ := depthInv_reachable isReached isThread
  exact ((standsFor k th isThread).depth (deep_of_inv few linked inv)).bounded

/-- **A thread with nothing on its way to the kernel** has all of its requests there, or all but one when
it has ended. -/
theorem jobWork_submitted (created : job.createThreads opened = some params)
    {s : WorkState job.ioManager.manager Engine}
    (reached : Reachable (job.workSystem dist params) s) (isThread : params[k]? = some th)
    (few : th.targets.length ≤ 2 ^ 32) (submitted : (s.workers k).place.Submitted) :
    th.totalOverlap.toNat ≤ s.load th + 1 ∧
      ((s.workers k).place ≠ .outside .ended → s.load th = th.totalOverlap.toNat) := by
  obtain ⟨a, isReached, standsFor⟩ := jobWork_alone created reached
  have here := standsFor k th isThread
  have length := (here.flights submitted).length_eq
  rw [List.length_map, List.length_map] at length
  obtain ⟨_, inv⟩ := depthInv_reachable isReached isThread
  unfold WorkState.load
  rw [length, totalOverlap_toNat few]
  have isPhase := here.phase
  unfold Place.Submitted at submitted
  split at submitted
  · next place =>
    rw [place] at isPhase ⊢
    have full := inFlight_length inv isPhase
    exact ⟨by omega, fun _ => full⟩
  · next place =>
    rw [place] at isPhase ⊢
    refine ⟨?_, fun no => absurd rfl no⟩
    rcases leavesFlights_reachable isReached isThread isPhase with full | butOne <;> omega
  · next place =>
    rw [place] at isPhase ⊢
    have full := inFlight_length inv isPhase
    exact ⟨by omega, fun _ => full⟩
  · exact submitted.elim

/-- **What a thread leaves behind**, from the state in which it takes its last step to one at any time
later. -/
structure LeavesRequests {Op : Type} [IAsyncIop Op] {manager : IAsyncIOManager Op} (th : ThreadParams)
    (k : Nat) (s last : WorkState manager Engine) : Prop where
  /-- it comes from the head of its loop, or with the operation that its last `wait` has returned -/
  place : (s.workers k).place = .outside .work ∨ ∃ n, (s.workers k).place = .waited (some n)
  ended : (last.workers k).place = .outside .ended
  /-- its requests are those it had then -/
  kept : (manager.requests last.engine th.groupId).Perm (manager.requests s.engine th.groupId)
  /-- and, with the operation that `wait` has returned, all of its operations -/
  distinct : ((s.workers k).place.hand ++ manager.requests last.engine th.groupId).Nodup
  count : ((s.workers k).place.hand ++ manager.requests last.engine th.groupId).length =
    th.totalOverlap.toNat

/-- **No thread waits for its operations when it ends**: all of them are with the kernel still, and stay
there, but for the one that its last `wait` has returned. -/
theorem jobWork_leaves (created : job.createThreads opened = some params)
    {s next last : WorkState job.ioManager.manager Engine}
    (reached : Reachable (job.workSystem dist params) s) (isThread : params[k]? = some th)
    (few : th.targets.length ≤ 2 ^ 32) {turn : Turn}
    (step : (job.workSystem dist params).step s turn next)
    (notEnded : (s.workers k).place ≠ .outside .ended)
    (ended : (next.workers k).place = .outside .ended) {turns : List Turn}
    (run : Run (job.workSystem dist params) next turns last) : LeavesRequests th k s last := by
  have distinct := createThreads_distinctGroups created
  let lawful := job.ioManager.lawful
  obtain ⟨stays, kept⟩ := run.invariant (H := fun t => Reachable (job.workSystem dist params) t ∧
    (t.workers k).place = .outside .ended ∧ (job.ioManager.manager.requests t.engine th.groupId).Perm
      (job.ioManager.manager.requests next.engine th.groupId))
    ⟨reached.step step, ended, .refl _⟩ (fun t turn t' ⟨reached, ended, kept⟩ step => by
      obtain ⟨a, isReached, _, _, inv⟩ :=
        (workProphecy lawful dist job.targets distinct).reachable reached fun _ => false
      obtain ⟨stays, same⟩ := workStep_ended inv isReached distinct step isThread ended
      exact ⟨reached.step step, stays, same.trans kept⟩) |>.2
  obtain ⟨a, isReached, _, _, inv⟩ :=
    (workProphecy lawful dist job.targets distinct).reachable reached fun _ => false
  obtain ⟨place, sameEngine⟩ := workStep_ends step notEnded ended
  rw [sameEngine] at kept
  have place' : (s.workers k).place = .outside .work ∨ ∃ n, (s.workers k).place = .waited (some n) := by
    rcases place with atHead | ⟨op, waited⟩
    · exact Or.inl atHead
    · cases op with
      | none => exact absurd waited (inv.follows k th isThread).notNull
      | some n => exact Or.inr ⟨n, waited⟩
  have works : (s.workers k).place.Works ∧ (s.workers k).place.phase false = .work := by
    rcases place' with atHead | ⟨n, waited⟩
    · rw [atHead]
      exact ⟨trivial, rfl⟩
    · rw [waited]
      exact ⟨trivial, rfl⟩
  obtain ⟨nodup, count⟩ := inv.all_requests isReached isThread works.1 works.2
  have same := kept.append_left (s.workers k).place.hand
  exact ⟨place', stays, kept, same.nodup_iff.mpr nodup,
    (same.length_eq.trans count).trans (totalOverlap_toNat few).symm⟩

/-- The second thread ends after a `wait` has returned its first operation, and the first thread leaves
after it. -/
theorem pairJob_leaves : ∃ s last : WorkState pairJob.ioManager.manager Int32,
    (s.workers 1).place = .waited (some 2) ∧ (last.workers 0).place = .outside .ended ∧
      pairJob.ioManager.manager.requests last.engine 1 = [3] ∧
      LeavesRequests (pairThread 1) 1 s last := by
  obtain ⟨_, s, _, _, ⟨reached, first, waited, held⟩, _⟩ := pairJob_works heldValue 0
  have isFirst : pairThreads[0]? = some (pairThread 0) := rfl
  have isSecond : pairThreads[1]? = some (pairThread 1) := rfl
  have step : (pairJob.workSystem heldValue pairThreads).step s (.thread 1 none)
      (s.goto 1 (.outside .ended)) := .waitLast isSecond waited
  have leaves : (pairJob.workSystem heldValue pairThreads).step (s.goto 1 (.outside .ended))
      (.thread 0 none) ((s.goto 1 (.outside .ended)).goto 0 (.outside .ended)) := .leave isFirst first
  refine ⟨s, _, waited, ?_, ?_, jobWork_leaves pairJob_created reached isSecond (by decide) step ?_ rfl
    (.single leaves)⟩
  · rfl
  · exact held
  · rw [waited]
    simp

/-- A step of the run leaves the load of a thread that does not fail. -/
theorem work_keeps (created : job.createThreads opened = some params)
    {s next : WorkState job.ioManager.manager Engine} {turn : Option Turn}
    (reached : Reachable (job.workSystem dist params) s)
    (step : (job.workSystem dist params).maybe s turn next) (isThread : params[k]? = some th)
    (alive : (s.workers k).place ≠ .outside .aborted)
    (alive' : (next.workers k).place ≠ .outside .aborted) : KeepsLoad th k s next := by
  cases turn with
  | none =>
    cases step
    exact .of_le le_rfl
  | some turn =>
    have distinct := createThreads_distinctGroups created
    obtain ⟨a, isReached, _, _, inv⟩ :=
      (workProphecy job.ioManager.lawful dist job.targets distinct).reachable reached fun _ => false
    exact workStep_keeps inv isReached distinct step isThread alive alive'

variable {s next : Waits × WorkState job.ioManager.manager Engine}

/-- The load of a thread that has submitted its first requests and has not failed. -/
def Loaded (th : ThreadParams) (k : Nat) (s : Waits × WorkState job.ioManager.manager Engine) : Prop :=
  s.1.worker k ≠ .setUp → ¬ (s.2.workers k).place.SetsUp →
    (s.2.workers k).place ≠ .outside .aborted → th.totalOverlap.toNat ≤ s.2.load th + 1

theorem loaded_step (created : job.createThreads opened = some params)
    (reached : Reachable (job.runSystem dist params) s) (isThread : params[k]? = some th)
    (few : th.targets.length ≤ 2 ^ 32) {label : Option WaitLabel × Option Turn}
    (step : (job.runSystem dist params).step s label next) (loaded : Loaded th k s) :
    Loaded th k next := by
  intro notSetUp notSetsUp alive'
  have reached' := reached.step step
  have isAt := (runInv_reachable reached isThread).isAt
  have isAt' := (runInv_reachable reached' isThread).isAt
  by_cases submitted : (next.2.workers k).place.Submitted
  · exact (jobWork_submitted created reached'.snd isThread few submitted).1
  have round : next.1.worker k = .waited ∨ next.1.worker k = .record := by
    generalize next.1.worker k = phase at *
    generalize (next.2.workers k).place = place at *
    cases phase with
    | waited => exact Or.inl rfl
    | record => exact Or.inr rfl
    | setUp => exact absurd rfl notSetUp
    | report | notifyReport | setInitialized | loopTest | throttle | ended =>
      rw [isAt'] at submitted
      exact absurd trivial submitted
    | abortRun | abortError | abortNotify | aborted =>
      rcases isAt' with rfl | rfl
      · exact absurd rfl alive'
      · exact absurd trivial notSetsUp
  have before := Waits.maybe_round step.1 round
  have placed : s.1.worker k ≠ .setUp ∧ ¬ (s.2.workers k).place.SetsUp ∧
      (s.2.workers k).place ≠ .outside .aborted := by
    generalize s.1.worker k = phase at *
    generalize (s.2.workers k).place = place at *
    rcases before with rfl | rfl | rfl
    · rw [isAt]
      exact ⟨by decide, id, nofun⟩
    · rcases isAt with rfl | ⟨_, rfl⟩
      · exact ⟨by decide, id, nofun⟩
      · exact ⟨by decide, id, nofun⟩
    · rcases isAt with ⟨_, rfl⟩ | ⟨_, rfl⟩ | rfl | rfl
      · exact ⟨by decide, id, nofun⟩
      · exact ⟨by decide, id, nofun⟩
      · exact ⟨by decide, id, nofun⟩
      · exact ⟨by decide, id, nofun⟩
  have keeps := work_keeps created reached.snd step.2.1 isThread placed.2.2 alive'
  by_cases waiting : (s.2.workers k).place = .waiting
  · have full := (jobWork_submitted created reached.snd isThread few (by rw [waiting]; trivial)).2
      (by rw [waiting]; exact nofun)
    exact full ▸ keeps.butOne
  · have load := loaded placed.1 placed.2.1 placed.2.2
    have all := keeps.all waiting
    omega

/-- **The load of a thread.** -/
structure RunLoad (th : ThreadParams) (k : Nat)
    (s : Waits × WorkState job.ioManager.manager Engine) : Prop where
  /-- never more than its group was created for -/
  atMost : s.2.load th ≤ th.totalOverlap.toNat
  atHead : (s.2.workers k).place = .outside .work ∨ (s.2.workers k).place = .waiting →
    s.2.load th = th.totalOverlap.toNat
  /-- past the barrier all of its operations are with the kernel, or all but one -/
  atLeast : s.1.job.PastBarrier → (s.2.workers k).place ≠ .outside .aborted →
    th.totalOverlap.toNat ≤ s.2.load th + 1

theorem loaded_reachable (created : job.createThreads opened = some params)
    (reached : Reachable (job.runSystem dist params) s) (isThread : params[k]? = some th)
    (few : th.targets.length ≤ 2 ^ 32) : Loaded th k s := by
  refine (reached.invariant (H := fun s => Reachable (job.runSystem dist params) s ∧ Loaded th k s)
    (fun first isInit => ⟨.of_init isInit, ?_⟩) fun s label next before step => ?_).2
  · rw [Loaded, isInit.1]
    exact fun no => absurd rfl no
  · exact ⟨before.1.step step, loaded_step created before.1 isThread few step before.2⟩

/-- Past the barrier a thread that has not failed lacks one request at most. -/
theorem load_past (created : job.createThreads opened = some params)
    (reached : Reachable (job.runSystem dist params) s) (isThread : params[k]? = some th)
    (few : th.targets.length ≤ 2 ^ 32) (past : s.1.job.PastBarrier)
    (alive : (s.2.workers k).place ≠ .outside .aborted) :
    th.totalOverlap.toNat ≤ s.2.load th + 1 := by
  obtain ⟨_, notSetUp, notSetsUp⟩ := run_reported created reached isThread past
  exact loaded_reachable created reached isThread few notSetUp notSetsUp alive

/-- **The load is kept up**, from the warm-up on, until a thread fails: also while it deals with a
completed operation, calls `submit` or leaves. -/
theorem run_load (created : job.createThreads opened = some params)
    (reached : Reachable (job.runSystem dist params) s) (isThread : params[k]? = some th)
    -- the paths are arguments of main, and their number is an int
    (few : th.targets.length ≤ 2 ^ 32) : RunLoad th k s := by
  refine ⟨load_atMost created reached.snd isThread few, fun atPlace => ?_,
    load_past created reached isThread few⟩
  refine (jobWork_submitted created reached.snd isThread few ?_).2 ?_
  · rcases atPlace with atPlace | atPlace <;> rw [atPlace] <;> trivial
  · rcases atPlace with atPlace | atPlace <;> rw [atPlace] <;> exact nofun

end Run

/-- The first thread has left with both of its requests, and the second lacks one. -/
theorem pairJob_load : ∃ s : Waits × WorkState pairJob.ioManager.manager Int32,
    s.1.job = .passed ∧ s.2.load (pairThread 0) = 2 ∧ RunLoad (pairThread 0) 0 s ∧
      s.2.load (pairThread 1) = 1 ∧ RunLoad (pairThread 1) 1 s := by
  obtain ⟨_, _, s, _, _, reached, passed, _, _, _, _, first, second⟩ := pairJob_passes
  exact ⟨s, passed, congrArg List.length first,
    run_load pairJob_created reached rfl (by decide), congrArg List.length second,
    run_load pairJob_created reached rfl (by decide)⟩

end DiskSpd
