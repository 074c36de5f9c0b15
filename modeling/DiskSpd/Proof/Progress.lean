/-
**The calls of an engine return.**

* `callSystem` — a call of one group, alone with the device.
* `PosixInv.keys_le` — the flight ids in use are no more than the operations.
* `posix_submit_returns`, `posix_wait_returns` — `submit` works the queue off; `wait` gets past
  `aio_suspend` as soon as a request completes, and its scan ends at one that has.
* `LiveManager` — the promise that a call which is alone with the device can return; both engines keep
  it, and no call of theirs waits for another thread.
* `jobWork_returns` — so in a job no thread is ever stuck in a call.
-/

import DiskSpd.Proof.Assignment
import DiskSpd.Proof.Requests

namespace DiskSpd

open Dispatch IdPool IAsyncIop LawfulIop Transition

section Call

variable {Op : Type} [IAsyncIop Op]

/-- **A call of a group, alone with the device**, as long as it does not end the program. The steps are
named as those of the threads are. -/
def IAsyncIOManager.callSystem (manager : IAsyncIOManager Op) (g : Int32) (k : Nat) :
    System manager.State Turn where
  init _ := True
  step s turn next :=
    turn = .thread k none ∧ manager.inside s g next ∧ ¬ manager.exits next g ∨
      turn = .device ∧ manager.device s next

/-- **Only a step inside a call of a group ends the program** for the group. -/
structure ExitsInside (manager : IAsyncIOManager Op) : Prop where
  store {s : manager.State} {g : Int32} {n : Nat} {op : Op} :
    manager.exits (manager.store s n op) g → manager.exits s g
  enqueue {s : manager.State} {g : Int32} {n : Nat} :
    manager.exits (manager.enqueue s n) g → manager.exits s g
  callSubmit {s : manager.State} {g g' : Int32} :
    manager.exits (manager.callSubmit s g') g → manager.exits s g
  callWait {s : manager.State} {g g' : Int32} :
    manager.exits (manager.callWait s g') g → manager.exits s g
  inside {s next : manager.State} {g g' : Int32} : g ≠ g' → manager.inside s g' next →
    manager.exits next g → manager.exits s g
  submitReturns {s next : manager.State} {g g' ret : Int32} : manager.submitReturns s g' ret next →
    manager.exits next g → manager.exits s g
  waitReturns {s next : manager.State} {g g' : Int32} {op : Option Nat} :
    manager.waitReturns s g' op next → manager.exits next g → manager.exits s g
  device {s next : manager.State} {g : Int32} : manager.device s next →
    manager.exits next g → manager.exits s g

variable [LawfulIop Op] {manager : IAsyncIOManager Op}

/-- Every operation that a group has queued or in flight is among these. -/
def AmongThese (all : List Nat) (st : Int32 → Standing) : Prop :=
  ∀ g, ∀ n ∈ (st g).place, n ∈ all

/-- What a group has is no more than the operations. -/
theorem AmongThese.length_le {all q f : List Nat} {st : Int32 → Standing} {g : Int32}
    {activity : Activity} (among : AmongThese all st)
    (apart : Dispatch.Apart (Standing.place ∘ st)) (here : st g = ⟨activity, q, f⟩) :
    q.length + f.length ≤ all.length := by
  have length := (List.subperm_of_subset (apart.queues g) (among g)).length_le
  rw [Function.comp_apply, here] at length
  exact List.length_append.symm.trans_le length

theorem AmongThese.update {all : List Nat} {st : Int32 → Standing} {g : Int32} {standing : Standing}
    (among : AmongThese all st) (kept : ∀ n ∈ standing.place, n ∈ (st g).place) :
    AmongThese all (Function.update st g standing) := by
  intro g' n member
  by_cases same : g' = g
  · subst same
    rw [Function.update_self] at member
    exact among g' n (kept n member)
  · rw [Function.update_of_ne same] at member
    exact among g' n member

/-- **A group in a call**, with its operations among these. -/
structure InCall (lawful : LawfulManager manager) (all : List Nat) (g : Int32) (activity : Activity)
    (s : manager.State) : Prop where
  stands : ∃ st q f, lawful.Holds s st ∧ st g = ⟨activity, q, f⟩ ∧ AmongThese all st

variable {lawful : LawfulManager manager} {all : List Nat} {g : Int32} {s next : manager.State}

theorem InCall.insideSubmit (inCall : InCall lawful all g .submitting s)
    (step : manager.inside s g next) : InCall lawful all g .submitting next := by
  obtain ⟨st, q, f, holds, here, among⟩ := inCall.stands
  obtain ⟨q', f', same, _, holds'⟩ := lawful.insideSubmit holds here step
  refine ⟨_, q', f', holds', Function.update_self _ _ _, among.update fun n member => ?_⟩
  rw [here]
  exact same.mem_iff.mp member

theorem InCall.insideWait (inCall : InCall lawful all g .waiting s)
    (step : manager.inside s g next) : InCall lawful all g .waiting next := by
  obtain ⟨st, q, f, holds, here, among⟩ := inCall.stands
  obtain ⟨f', same, holds'⟩ := lawful.insideWait holds here step
  refine ⟨_, q, f', holds', Function.update_self _ _ _, among.update fun n member => ?_⟩
  rw [here]
  exact (same.append_left q).mem_iff.mp member

theorem InCall.device {activity : Activity} (inCall : InCall lawful all g activity s)
    (step : manager.device s next) : InCall lawful all g activity next := by
  obtain ⟨st, q, f, holds, here, among⟩ := inCall.stands
  exact ⟨st, q, f, lawful.device holds step, here, among⟩

/-- **A call that is alone with the device can return**, `submit` with success and `wait` with an
operation, as long as the operations are fewer than an `int` counts. -/
structure LiveManager (lawful : LawfulManager manager) : Prop where
  submit {s : manager.State} {g : Int32} {all : List Nat} (k : Nat) :
    InCall lawful all g .submitting s → all.length < 2 ^ 31 →
    ∃ turns before after, Run (manager.callSystem g k) s turns before ∧
      manager.submitReturns before g 0 after
  wait {s : manager.State} {g : Int32} {all : List Nat} (k : Nat) :
    InCall lawful all g .waiting s → all.length < 2 ^ 31 → manager.requests s g ≠ [] →
    ¬ manager.exits s g →
    ∃ turns before after n, Run (manager.callSystem g k) s turns before ∧
      manager.waitReturns before g (some n) after
  /-- each operation has an outcome, at the latest after the device has got on with it -/
  outcome (s : manager.State) (n : Nat) :
    ∃ next err ret, (next = s ∨ manager.device s next) ∧ manager.outcome next n err ret

end Call

/-! ### libaio -/

theorem int32_ofNat_toInt {n : Nat} (small : n < 2 ^ 31) : (Int32.ofNat n).toInt = n := by
  rw [Int32.toInt_ofNat_of_lt small]

/-- `submit` and `wait` return at once. -/
theorem liveKernel : LiveManager lawfulKernel where
  submit {s g all} k inCall few := by
    obtain ⟨st, q, f, holds, here, among⟩ := inCall.stands
    have stands := holds.stands g (by rw [here]; exact nofun)
    have length := among.length_le holds.apart here
    rw [here] at stands
    have queue : (s.groups g).opQueue.length = q.length := congrArg List.length stands.queue
    have keys : (s.groups g).inFlight.keys.length = f.length := by
      have tracked := stands.tracks.length_eq
      have flying := stands.flying.length_eq
      unfold KernelState.heldFor at tracked
      rw [List.length_map, List.length_map] at tracked
      rw [List.length_map] at flying
      unfold AList.keys List.keys
      rw [List.length_map]
      exact tracked.trans flying
    have whole : (Int32.ofNat (s.groups g).opQueue.length).toInt = (s.groups g).opQueue.length :=
      int32_ofNat_toInt (by omega)
    have nodup : (s.groups g).opQueue.Nodup := by
      have distinct := holds.apart.queues g
      rw [Function.comp_apply, here] at distinct
      rw [stands.queue]
      exact distinct.sublist (List.sublist_append_left q f)
    have ids : (s.groups g).inFlight.keys.length + (s.groups g).opQueue.length ≤ 2 ^ 64 := by omega
    obtain ⟨ret, next, done⟩ := KernelState.submit_total ids
      (Int32.ofNat (s.groups g).opQueue.length) fun _ => false
    obtain ⟨_, _, _, rfl, _⟩ := KernelState.submit_accepted whole nodup stands.tracks done
    refine ⟨[], s, next, .refl, _, _, ⟨whole.le, fun zero => ?_⟩, done⟩
    rw [zero] at whole
    exact Int.natCast_eq_zero.mp whole.symm
  wait {s g all} k inCall _ some _ := by
    obtain ⟨st, q, f, holds, here, _⟩ := inCall.stands
    have stands := holds.stands g (by rw [here]; exact nofun)
    obtain ⟨n, member⟩ := List.exists_mem_of_ne_nil _ some
    obtain ⟨r, isRequest, _⟩ := List.mem_map.mp member
    obtain ⟨held, isGroup⟩ := mem_requestsFor.mp isRequest
    obtain ⟨before, after, split⟩ := List.append_of_mem held
    obtain ⟨next, done⟩ := stands.complete isRequest 0
    exact ⟨[], s, _, r.op, .refl, .found split isGroup done⟩
  outcome s n := ⟨s, (s.ops n).err, (s.ops n).result, Or.inl rfl, rfl, rfl⟩

/-- No call ends the program. -/
theorem exitsInsideKernel : ExitsInside kernelAsyncIOManager where
  store := id
  enqueue := id
  callSubmit := id
  callWait := id
  inside _ _ := id
  submitReturns _ := id
  waitReturns _ := id
  device _ := id

/-! ### POSIX aio -/

section Posix

variable {s next : PosixState} {g ret : Int32} {all : List Nat}

/-- The flight ids in use are those of different operations. -/
theorem PosixInv.keys_le (inv : PosixInv s)
    (among : ∀ g, ∀ n ∈ (s.groups g).place, n ∈ all) :
    s.suspendInFlight.keys.length ≤ all.length := by
  have ids : s.suspendInFlight.keys ⊆ all.map s.flightId := fun id member => by
    obtain ⟨op, found⟩ := Option.isSome_iff_exists.mp (AList.lookup_isSome.mpr member)
    obtain ⟨read, g, flying, _⟩ := inv.owned id op found
    rw [← read]
    exact List.mem_map_of_mem (among g op (List.mem_append_right _ flying))
  have few := (List.subperm_of_subset s.suspendInFlight.nodupKeys ids).length_le
  rwa [List.length_map] at few

theorem PosixHolds.keys_le {st : Int32 → Standing} (holds : PosixHolds s st)
    (among : AmongThese all st) : s.suspendInFlight.keys.length ≤ all.length :=
  holds.inv.keys_le fun g n member => among g n ((holds.stands g).place.subset member)

/-- How many steps `submit` has before it returns. -/
def PosixGroup.submitSteps (group : PosixGroup) : Nat :=
  2 * group.queue.length + if group.pc = .submitting then 0 else 1

section Group

variable {group group' : PosixGroup} {n cb place : Nat} {flightId : UInt32}

theorem GroupAdvance.starts (advance : GroupAdvance s group 0 group') (pc : group.pc = .submitting)
    (some : group.queue ≠ []) :
    group'.pc ≠ .idle ∧ group'.submitSteps < group.submitSteps := by
  cases advance with
  | submitted _ none => exact absurd none some
  | refused _ _ failed => exact absurd rfl failed
  | @started rest m _ split =>
    refine ⟨nofun, ?_⟩
    unfold PosixGroup.submitSteps
    simp only [split, pc, List.length_append, List.length_singleton, reduceCtorEq, if_true, if_false]
    omega
  | registered no | suspended no | exhausted no | passed no | chosen no | took no =>
    rw [pc] at no
    cases no

theorem GroupAdvance.registers (advance : GroupAdvance s group ret group')
    (pc : group.pc = .registering n) :
    group'.pc ≠ .idle ∧ group'.submitSteps < group.submitSteps := by
  cases advance with
  | registered =>
    refine ⟨nofun, ?_⟩
    unfold PosixGroup.submitSteps
    simp only [pc, reduceCtorEq, if_true, if_false]
    omega
  | submitted no | refused no | started no | suspended no | exhausted no | passed no | chosen no
  | took no =>
    rw [pc] at no
    cases no

/-- How many steps `wait` has before it takes an operation out of the map. -/
def PosixGroup.waitSteps (group : PosixGroup) : Nat :=
  match group.pc with
  | .suspending => group.suspendVec.length + 2
  | .scanning place => group.suspendVec.length + 1 - place
  | _ => 0

theorem GroupAdvance.scans (advance : GroupAdvance s group ret group')
    (pc : group.pc = .scanning place) (below : place < group.suspendVec.length)
    (exit : group'.pc ≠ .noCompletedIops) :
    (group'.pc = .scanning (place + 1) ∨ ∃ cb flightId, group'.pc = .taking cb flightId) ∧
      group'.waitSteps < group.waitSteps := by
  unfold PosixGroup.waitSteps
  cases advance with
  | exhausted => exact absurd rfl exit
  | passed here =>
    rw [pc, PosixPc.scanning.injEq] at here
    subst here
    rw [pc]
    refine ⟨Or.inl rfl, ?_⟩
    show group.suspendVec.length + 1 - (place + 1) < group.suspendVec.length + 1 - place
    omega
  | chosen =>
    rw [pc]
    refine ⟨Or.inr ⟨_, _, rfl⟩, ?_⟩
    show 0 < group.suspendVec.length + 1 - place
    omega
  | submitted no | refused no | started no | registered no | suspended no | took no =>
    rw [pc] at no
    cases no

theorem GroupAdvance.takes (advance : GroupAdvance s group ret group')
    (pc : group.pc = .taking cb flightId) :
    group'.pc = .idle ∧ group'.returned.getLast? = some (s.suspendInFlight.lookup flightId) := by
  cases advance with
  | took here =>
    rw [pc, PosixPc.taking.injEq] at here
    rw [here.2]
    exact ⟨rfl, List.getLast?_concat⟩
  | submitted no | refused no | started no | registered no | suspended no | exhausted no | passed no
  | chosen no =>
    rw [pc] at no
    cases no

theorem GroupAdvance.submits (advance : GroupAdvance s group ret group')
    (pc : group.pc = .submitting) (empty : group.queue = []) :
    group'.pc = .idle ∧ group'.submitted.getLast? = some 0 := by
  cases advance with
  | submitted => exact ⟨rfl, List.getLast?_concat⟩
  | refused _ split | started _ split =>
    rw [empty] at split
    exact absurd split.symm (List.append_ne_nil_of_right_ne_nil _ (List.cons_ne_nil _ _))
  | registered no | suspended no | exhausted no | passed no | chosen no | took no =>
    rw [pc] at no
    cases no

end Group

/-- A step of `submit` waits for no request. -/
theorem suspendSound_submit (pc : (s.groups g).pc ≠ .suspending) : s.SuspendSound g ret :=
  fun suspending => absurd suspending pc

theorem advance_submitting (pc : (s.groups g).pc = .submitting) (ret : Int32) :
    s.advance g ret = some (s.start g ret) := by
  unfold PosixState.advance
  rw [pc]

theorem advance_registering {n : Nat} (pc : (s.groups g).pc = .registering n) :
    s.advance g ret = s.register g n := by
  unfold PosixState.advance
  rw [pc]

theorem advance_suspending (pc : (s.groups g).pc = .suspending) :
    s.advance g 0 = some (s.goto g (.scanning 0)) := by
  unfold PosixState.advance
  rw [pc]
  rfl

theorem advance_scanning {place : Nat} (pc : (s.groups g).pc = .scanning place) (ret : Int32) :
    s.advance g ret = some (s.scan g place) := by
  unfold PosixState.advance
  rw [pc]

theorem advance_taking {cb : Nat} {flightId : UInt32} (pc : (s.groups g).pc = .taking cb flightId)
    (ret : Int32) : s.advance g ret = some (s.take g flightId) := by
  unfold PosixState.advance
  rw [pc]

/-- A group in `submit` is not in an `exit`. -/
theorem submit_runs (inCall : InCall lawfulPosix all g .submitting s) :
    ¬ posixSuspendAsyncIOManager.exits s g := by
  obtain ⟨st, q, f, holds, here, _⟩ := inCall.stands
  have stands := (holds.stands g).pc
  rw [here] at stands
  rintro (error | none)
  · rcases stands with pc | ⟨n, pc⟩
    · exact absurd (pc.symm.trans error) (by decide)
    · exact absurd (pc.symm.trans error) (by simp)
  · rcases stands with pc | ⟨n, pc⟩
    · exact absurd (pc.symm.trans none) (by decide)
    · exact absurd (pc.symm.trans none) (by simp)

/-- **`submit` works the queue off**, when the system accepts what it is given. -/
theorem posix_submit_step (inCall : InCall lawfulPosix all g .submitting s)
    (few : all.length < 2 ^ 31) :
    (s.groups g).pc = .submitting ∧ (s.groups g).queue = [] ∨
      ∃ next, posixSuspendAsyncIOManager.inside s g next ∧
        (next.groups g).submitSteps < (s.groups g).submitSteps := by
  obtain ⟨st, q, f, holds, here, among⟩ := inCall.stands
  have stands := (holds.stands g).pc
  rw [here] at stands
  rcases stands with pc | ⟨n, pc⟩
  · by_cases empty : (s.groups g).queue = []
    · exact Or.inl ⟨pc, empty⟩
    · have done := advance_submitting pc 0
      obtain ⟨goesOn, less⟩ := (advance_group done).1.starts pc empty
      exact Or.inr ⟨_, ⟨0, suspendSound_submit (by rw [pc]; nofun), done, goesOn⟩, less⟩
  · obtain ⟨next, registers⟩ := s.register_total g n ((holds.keys_le among).trans_lt (by omega))
    have done : s.advance g 0 = some next := (advance_registering pc).trans registers
    obtain ⟨goesOn, less⟩ := (advance_group done).1.registers pc
    exact Or.inr ⟨next, ⟨0, suspendSound_submit (by rw [pc]; nofun), done, goesOn⟩, less⟩

theorem posix_submit_returns (k : Nat) (inCall : InCall lawfulPosix all g .submitting s)
    (few : all.length < 2 ^ 31) :
    ∃ turns before after, Run (posixSuspendAsyncIOManager.callSystem g k) s turns before ∧
      posixSuspendAsyncIOManager.submitReturns before g 0 after := by
  have down : ∀ s, InCall lawfulPosix all g .submitting s →
      ((s.groups g).pc = .submitting ∧ (s.groups g).queue = []) ∨ ∃ turns next,
        Run (posixSuspendAsyncIOManager.callSystem g k) s turns next ∧
          InCall lawfulPosix all g .submitting next ∧
          (next.groups g).submitSteps < (s.groups g).submitSteps := fun s inCall =>
    (posix_submit_step inCall few).imp id fun ⟨next, step, less⟩ =>
      have inCall' := inCall.insideSubmit step
      ⟨_, next, .single (Or.inl ⟨rfl, step, submit_runs inCall'⟩), inCall', less⟩
  obtain ⟨turns, before, run, _, pc, empty⟩ :=
    Run.leads (fun s : PosixState => (s.groups g).submitSteps) down inCall
  have done := advance_submitting pc 0
  obtain ⟨idle, last⟩ := (advance_group done).1.submits pc empty
  exact ⟨turns, before, _, run, 0, pc, done, idle, last⟩

/-- A group in `wait` that has something to wait for. -/
structure InWait (all : List Nat) (g : Int32) (s : PosixState) : Prop where
  inCall : InCall lawfulPosix all g .waiting s
  nonempty : (s.groups g).pc = .suspending → (s.groups g).suspendVec ≠ []
  runs : ¬ posixSuspendAsyncIOManager.exits s g

/-- `aio_suspend` returns as soon as one of the requests completes. -/
theorem InWait.suspend (inWait : InWait all g s) (few : all.length < 2 ^ 31) (k : Nat)
    (pc : (s.groups g).pc = .suspending) :
    ∃ turns next, Run (posixSuspendAsyncIOManager.callSystem g k) s turns next ∧ InWait all g next ∧
      (next.groups g).waitSteps < (s.groups g).waitSteps := by
  obtain ⟨st, q, f, holds, here, among⟩ := inWait.inCall.stands
  have length := among.length_le holds.apart here
  have flying : (s.groups g).suspendVec.length = f.length := by
    have same := ((holds.stands g).flying (by rw [here]; nofun)).length_eq
    rwa [here, PosixGroup.flying_plain (.of_eq pc trivial)] at same
  obtain ⟨cb, member⟩ := List.exists_mem_of_ne_nil _ (inWait.nonempty pc)
  let done : PosixState := { s with inProgress := Function.update s.inProgress cb false }
  have completes : posixSuspendAsyncIOManager.device s done := ⟨cb, rfl⟩
  have listed : (s.groups g).listed = (s.groups g).suspendVec := by
    unfold PosixGroup.listed
    rw [int32_ofNat_toInt (by omega), Int.toNat_natCast, List.take_length]
  have sound : done.SuspendSound g 0 := fun _ _ =>
    ⟨cb, listed ▸ member, Function.update_self cb false s.inProgress⟩
  have resumes : done.advance g 0 = some (done.goto g (.scanning 0)) := advance_suspending pc
  have atScan : (done.goto g (.scanning 0)).groups g = { s.groups g with pc := .scanning 0 } :=
    setGroup_here _ _ _
  have step : posixSuspendAsyncIOManager.inside done g (done.goto g (.scanning 0)) :=
    ⟨0, sound, resumes, by rw [atScan]; nofun⟩
  have runs : ¬ posixSuspendAsyncIOManager.exits (done.goto g (.scanning 0)) g := fun no => by
    change ((done.goto g (.scanning 0)).groups g).pc = .suspendError ∨
      ((done.goto g (.scanning 0)).groups g).pc = .noCompletedIops at no
    rw [atScan] at no
    rcases no with no | no <;> cases no
  refine ⟨_, _, (Run.single (Or.inr ⟨rfl, completes⟩)).snoc (Or.inl ⟨rfl, step, runs⟩),
    ⟨(inWait.inCall.device completes).insideWait step, fun no => ?_, runs⟩, ?_⟩
  · rw [atScan] at no
    cases no
  · rw [atScan]
    unfold PosixGroup.waitSteps
    rw [pc]
    exact Nat.lt_succ_self _

/-- The scan goes on to the next control block, or ends. -/
theorem InWait.scan (inWait : InWait all g s) (k : Nat) {place : Nat}
    (pc : (s.groups g).pc = .scanning place) :
    ∃ turns next, Run (posixSuspendAsyncIOManager.callSystem g k) s turns next ∧ InWait all g next ∧
      (next.groups g).waitSteps < (s.groups g).waitSteps := by
  obtain ⟨st, q, f, holds, here, among⟩ := inWait.inCall.stands
  obtain ⟨j, cb, ahead, isCb, _⟩ := (holds.inv.sound g).scanning place pc
  have below := (List.getElem?_eq_some_iff.mp isCb).1
  have done := advance_scanning pc 0
  have sound : s.SuspendSound g 0 := suspendSound_submit (by rw [pc]; nofun)
  obtain ⟨after, less⟩ := (advance_group done).1.scans pc (by omega)
    ((holds.inv.advance sound done).contract.exit g)
  have notIdle : ((s.scan g place).groups g).pc ≠ .idle ∧
      ((s.scan g place).groups g).pc ≠ .suspending ∧
      ((s.scan g place).groups g).pc ≠ .suspendError ∧
      ((s.scan g place).groups g).pc ≠ .noCompletedIops := by
    rcases after with after | ⟨cb, flightId, after⟩ <;> rw [after] <;> exact ⟨nofun, nofun, nofun, nofun⟩
  have step : posixSuspendAsyncIOManager.inside s g (s.scan g place) := ⟨0, sound, done, notIdle.1⟩
  have runs : ¬ posixSuspendAsyncIOManager.exits (s.scan g place) g :=
    fun exits => exits.elim notIdle.2.2.1 notIdle.2.2.2
  exact ⟨_, _, .single (Or.inl ⟨rfl, step, runs⟩),
    ⟨inWait.inCall.insideWait step, fun no => absurd no notIdle.2.1, runs⟩, less⟩

theorem posix_wait_returns (k : Nat) (inWait : InWait all g s) (few : all.length < 2 ^ 31) :
    ∃ turns before after n, Run (posixSuspendAsyncIOManager.callSystem g k) s turns before ∧
      posixSuspendAsyncIOManager.waitReturns before g (some n) after := by
  have down : ∀ s, InWait all g s → (∃ cb flightId, (s.groups g).pc = .taking cb flightId) ∨
      ∃ turns next, Run (posixSuspendAsyncIOManager.callSystem g k) s turns next ∧
        InWait all g next ∧ (next.groups g).waitSteps < (s.groups g).waitSteps := fun s inWait => by
    obtain ⟨st, q, f, holds, here, among⟩ := inWait.inCall.stands
    have stands := (holds.stands g).pc
    rw [here] at stands
    rcases stands with pc | pc | ⟨place, pc⟩ | ⟨cb, flightId, pc⟩
    · exact Or.inr (inWait.suspend few k pc)
    · exact absurd (Or.inl pc) inWait.runs
    · exact Or.inr (inWait.scan k pc)
    · exact Or.inl ⟨cb, flightId, pc⟩
  obtain ⟨turns, before, run, inWait', cb, flightId, pc⟩ :=
    Run.leads (fun s : PosixState => (s.groups g).waitSteps) down inWait
  obtain ⟨st, q, f, holds, _⟩ := inWait'.inCall.stands
  have done := advance_taking pc 0
  have last := ((advance_group done).1.takes pc).2
  rw [(holds.inv.contract.wait g cb flightId pc).1] at last
  exact ⟨turns, before, _, cb, run, 0, cb, flightId, pc, done, last⟩

/-- Where a group is in an `exit`. -/
theorem exits_of_pc {pc : PosixPc} {g' : Int32} (runs : pc ≠ .suspendError ∧ pc ≠ .noCompletedIops)
    (here : (next.groups g').pc = pc) (others : ∀ g ≠ g', next.groups g = s.groups g)
    (exits : posixSuspendAsyncIOManager.exits next g) : posixSuspendAsyncIOManager.exits s g := by
  by_cases same : g = g'
  · subst same
    rcases exits with error | none
    · exact absurd (here.symm.trans error) runs.1
    · exact absurd (here.symm.trans none) runs.2
  · change (next.groups g).pc = _ ∨ (next.groups g).pc = _ at exits
    rw [others g same] at exits
    exact exits

theorem exits_goto {pc : PosixPc} {g' : Int32} (runs : pc ≠ .suspendError ∧ pc ≠ .noCompletedIops)
    (exits : posixSuspendAsyncIOManager.exits (s.goto g' pc) g) :
    posixSuspendAsyncIOManager.exits s g := by
  refine exits_of_pc runs ?_ (fun g other => Function.update_of_ne other _ _) exits
  show ((s.setGroup g' _).groups g').pc = pc
  rw [setGroup_here]

theorem enqueue_pc (s : PosixState) (n : Nat) (g : Int32) :
    ((s.enqueue n).groups g).pc = (s.groups g).pc := by
  show (Function.update s.groups (s.ops n).groupId _ g).pc = (s.groups g).pc
  by_cases here : g = (s.ops n).groupId
  · subst here
    rw [Function.update_self]
  · rw [Function.update_of_ne here]

/-- `aio_suspend` fails inside `wait`, and so does the search for a completed operation. -/
theorem exitsInsidePosix : ExitsInside posixSuspendAsyncIOManager where
  store := id
  enqueue {s g n} exits := by
    have same : ((s.enqueue n).groups g).pc = (s.groups g).pc := enqueue_pc s n g
    exact exits.imp same.symm.trans same.symm.trans
  callSubmit exits := exits_goto (by decide) exits
  callWait exits := exits_goto (by decide) exits
  inside other step exits := by
    obtain ⟨_, _, done, _⟩ := step
    change (_ : PosixPc) = _ ∨ (_ : PosixPc) = _ at exits
    rw [(advance_group done).2 _ other] at exits
    exact exits
  submitReturns step exits := by
    obtain ⟨_, _, done, idle, _⟩ := step
    exact exits_of_pc (by decide) idle (advance_group done).2 exits
  waitReturns step exits := by
    obtain ⟨_, cb, flightId, pc, done, _⟩ := step
    obtain ⟨advance, others⟩ := advance_group done
    exact exits_of_pc (by decide) (advance.takes pc).1 others exits
  device step exits := by
    obtain ⟨n, rfl⟩ := step
    exact exits

theorem livePosix : LiveManager lawfulPosix where
  submit := posix_submit_returns
  wait {s g all} k inCall few some runs := by
    have flying : (s.groups g).flying ≠ [] := some
    refine posix_wait_returns k ⟨inCall, fun pc => ?_, runs⟩ few
    rwa [PosixGroup.flying_plain (.of_eq pc trivial)] at flying
  outcome s n := by
    refine ⟨_, 0, 0, Or.inr ⟨n, rfl⟩, ?_⟩
    show Function.update s.inProgress n false n = false
    rw [Function.update_self]

end Posix

/-- **No call of the engine of a job waits for another thread.** -/
theorem IoEngine.live : (engine : IoEngine) → LiveManager engine.lawful
  | .kernelAio => liveKernel
  | .posixAio => livePosix

theorem IoEngine.exitsInside : (engine : IoEngine) → ExitsInside engine.manager
  | .kernelAio => exitsInsideKernel
  | .posixAio => exitsInsidePosix

/-! ### The threads of a job -/

section Work

variable {Op Engine : Type} [IAsyncIop Op] {manager : IAsyncIOManager Op} {dist : UniformInt Engine}
  {targets : List Target} {params : List ThreadParams} {s : WorkState manager Engine} {k : Nat}
  {th : ThreadParams}

/-- How many operations the threads make. -/
def operationCount (params : List ThreadParams) : Nat :=
  (params.map fun th => th.slots.length).sum

variable [LawfulIop Op] {lawful : LawfulManager manager} {names : Nat → List Nat}
  {st : Int32 → Standing} {fails : Nat → Bool} {a : JobState Op Engine}

/-- The operations of all threads. -/
def allNames (params : List ThreadParams) (names : Nat → List Nat) : List Nat :=
  params.zipIdx.flatMap fun thread => names thread.2

theorem WorkInv.among (inv : WorkInv lawful params names st s fails a) :
    AmongThese (allNames params names) st := by
  intro g n member
  obtain ⟨k, th, isThread, _, isName⟩ := inv.named_place member
  exact List.mem_flatMap.mpr ⟨(th, k), List.mem_zipIdx_iff_getElem?.mpr isThread, isName⟩

theorem WorkInv.count (inv : WorkInv lawful params names st s fails a)
    (reached : Reachable (jobSystem Op dist targets params) a) :
    (allNames params names).length ≤ operationCount params := by
  have each : ∀ thread ∈ params.zipIdx, (names thread.2).length ≤ thread.1.slots.length :=
    fun ⟨th, k⟩ member => by
      have isThread : params[k]? = some th := List.mem_zipIdx_iff_getElem?.mp member
      rw [(inv.follows k th isThread).named.length]
      exact (depthInv_reachable reached isThread).2.length_le
  unfold allNames operationCount
  rw [List.length_flatMap]
  conv_rhs => rw [← List.zipIdx_map_fst 0 params, List.map_map]
  exact List.sum_le_sum each

/-- A thread in a call is in it for the engine. -/
theorem WorkInv.inCall (inv : WorkInv lawful params names st s fails a)
    (isThread : params[k]? = some th) {place : Place} (atPlace : (s.workers k).place = place)
    {activity : Activity} (only : ∀ other, place.In other → other = activity) :
    InCall lawful (allNames params names) th.groupId activity s.engine := by
  obtain ⟨q, f, here⟩ := inv.stands isThread atPlace only
  exact ⟨st, q, f, inv.holds, here, inv.among⟩

/-- `submit` can succeed. -/
theorem WorkInv.submitReturns (live : LiveManager lawful)
    (inv : WorkInv lawful params names st s fails a)
    (isReached : Reachable (jobSystem Op dist targets params) a) (isThread : params[k]? = some th)
    (few : operationCount params < 2 ^ 31) (atPlace : (s.workers k).place = .submitting) :
    ∃ turns engine after, Run (manager.callSystem th.groupId k) s.engine turns engine ∧
      manager.submitReturns engine th.groupId 0 after :=
  live.submit k (inv.inCall isThread atPlace fun _ is => is) ((inv.count isReached).trans_lt few)

/-- `wait` can return an operation. -/
theorem WorkInv.waitReturns (live : LiveManager lawful)
    (inv : WorkInv lawful params names st s (fun _ => false) a)
    (isReached : Reachable (jobSystem Op dist targets params) a) (isThread : params[k]? = some th)
    (few : operationCount params < 2 ^ 31) (some : th.slots ≠ [])
    (atPlace : (s.workers k).place = .waiting) (runs : ¬ manager.exits s.engine th.groupId) :
    ∃ turns engine after n, Run (manager.callSystem th.groupId k) s.engine turns engine ∧
      manager.waitReturns engine th.groupId (.some n) after := by
  have standsFor := inv.standsFor isReached isThread rfl
  have flights := (standsFor.flights (by rw [atPlace]; trivial)).length_eq
  have phase : (a.threads k).phase = .work := by rw [standsFor.phase, atPlace]; rfl
  rw [List.length_map, List.length_map,
    inFlight_length (depthInv_reachable isReached isThread).2 phase] at flights
  have requests : manager.requests s.engine th.groupId ≠ [] := fun none => by
    rw [none] at flights
    exact some (List.eq_nil_of_length_eq_zero flights.symm)
  exact live.wait k (inv.inCall isThread atPlace fun _ is => is)
    ((inv.count isReached).trans_lt few) requests runs

end Work

section Job

variable {Engine : Type} {job : JobOptions} {opened : UInt32 → Nat → JobOptions.Opened}
  {params : List ThreadParams} {dist : UniformInt Engine} {k : Nat} {th : ThreadParams}
  {calls : List (Key × Option CString)} {stat : CString → Stat}

/-- Each thread of an accepted job has a target. -/
theorem createThreads_busy (ok : parseCommandLine calls stat = .ok job)
    (created : job.createThreads opened = some params) : ∀ th ∈ params, th.targets ≠ [] := by
  obtain ⟨_, nonempty, count⟩ := parseCommandLine_job ok
  have enough : job.useTotalThreads = false → job.totalThreads.toNat = job.rounds.length := by
    intro mode
    have fits := (createThreads_frame created).2.1 mode
    have bound := job.totalThreads.toNat_lt
    rw [length_rounds_perTarget mode] at fits ⊢
    have total := count mode
    rw [Nat.mod_eq_of_lt (by omega)] at total
    exact total
  obtain ⟨final, done⟩ : ∃ final, job.assignThreads opened = some final :=
    assignThreads_total fun mode => (enough mode).ge
  have right := (assignThreads_assigning done).right nonempty enough
  rw [assignThreads_created done] at created
  intro th member none
  obtain ⟨n, isThread⟩ := List.getElem?_of_mem member
  rw [Loop.mapM_getElem? created n] at isThread
  obtain ⟨params', found, setUp⟩ := Option.bind_eq_some_iff.mp isThread
  rw [(setUpThread_frame setUp).1] at none
  rw [List.getElem?_map, Option.map_eq_some_iff] at found
  obtain ⟨th', isThread', rfl⟩ := found
  have member' := List.mem_of_getElem? isThread'
  cases mode : job.useTotalThreads with
  | true =>
    obtain ⟨targets, _⟩ := right.everyTarget mode th' member'
    rw [none, List.map_nil] at targets
    exact nonempty (List.zipIdx_eq_nil_iff.mp targets.symm)
  | false =>
    obtain ⟨tData, targets⟩ := right.oneTarget mode th' member'
    rw [targets] at none
    cases none

/-- Each thread of an accepted job has operations. -/
theorem createThreads_slots (ok : parseCommandLine calls stat = .ok job)
    (created : job.createThreads opened = some params) (isThread : params[k]? = some th) :
    th.slots ≠ [] := by
  have member := List.mem_of_getElem? isThread
  obtain ⟨tData, isTarget⟩ := List.exists_mem_of_ne_nil _ (createThreads_busy ok created th member)
  have overlap := (thread_accepted ok (createThreads_serves created th member) tData isTarget).overlap
  have part : tData.target.overlap.toNat ∈ th.targets.map fun tData => tData.target.overlap.toNat :=
    List.mem_map_of_mem isTarget
  have length := List.single_le_sum (fun _ _ => Nat.zero_le _) _ part
  rw [← slots_length] at length
  intro none
  rw [none, List.length_nil] at length
  omega

end Job

end DiskSpd
