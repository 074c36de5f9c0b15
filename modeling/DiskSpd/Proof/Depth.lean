/-
**The depth of a thread and the memory of its operations.**

* `ThreadParams.slots` — the overlap slots of a thread, in the order in which it constructs their
  operations; `AtSlot` — an operation has the file, length and buffers of its slot.
* `DepthInv` — the invariant of a thread: the operations so far are those of the slots so far; each of
  them is queued or in flight while the thread runs; and in the work loop none is queued.
  `depthInv_step` — each step of a thread keeps it.
* `Deep` — so at the head of the work loop each target has exactly its overlap in flight, and there
  are never more operations than the group is made for.
* `Apart` — two operations in flight, one of them a read, use disjoint memory, which lies in the
  thread's buffers.
* `depthAndBuffers` — all of it, in every state of every run.
-/

import DiskSpd.Lib.Loop
import DiskSpd.Lib.Tally
import DiskSpd.Proof.Buffers
import DiskSpd.Proof.Startup
import Mathlib.Algebra.Group.Action.Defs
import Mathlib.Data.List.Sigma

namespace DiskSpd

open IAsyncIop LawfulIop Transition

/-! ### The slots of a thread -/

section Slots

/-- The overlap slots of a thread: a target with its index, and the index of the slot. -/
def ThreadParams.slots (th : ThreadParams) : List ((TargetData × Nat) × Nat) :=
  Loop.nested (fun entry => entry.1.target.overlap.toNat) th.targets.zipIdx

/-- The number of slots of the targets before one. -/
def ThreadParams.slotsBefore (th : ThreadParams) (t : Nat) : Nat :=
  ((th.targets.zipIdx.take t).map fun entry => entry.1.target.overlap.toNat).sum

variable {th : ThreadParams} {t : Nat} {tData : TargetData}

theorem zipIdx_found (found : th.targets[t]? = some tData) :
    th.targets.zipIdx[t]? = some (tData, t) := by
  rw [List.getElem?_zipIdx, found, Nat.zero_add]
  rfl

theorem slots_getElem? (found : th.targets[t]? = some tData) {i : Nat}
    (below : i < tData.target.overlap.toNat) :
    th.slots[th.slotsBefore t + i]? = some ((tData, t), i) :=
  Loop.nested_getElem? (zipIdx_found found) below

theorem slotsBefore_succ (found : th.targets[t]? = some tData) :
    th.slotsBefore (t + 1) = th.slotsBefore t + tData.target.overlap.toNat := by
  unfold ThreadParams.slotsBefore
  rw [List.take_add_one, zipIdx_found found, List.map_append, List.sum_append]
  simp

theorem slotsBefore_all (none : th.targets[t]? = none) : th.slotsBefore t = th.slots.length := by
  have past : th.targets.zipIdx.length ≤ t := by
    rw [List.length_zipIdx]
    exact List.getElem?_eq_none_iff.mp none
  unfold ThreadParams.slotsBefore ThreadParams.slots
  rw [List.take_of_length_le past, Loop.length_nested]

theorem mem_slots {entry : (TargetData × Nat) × Nat} :
    entry ∈ th.slots ↔ th.targets[entry.1.2]? = some entry.1.1 ∧
      entry.2 < entry.1.1.target.overlap.toNat := by
  obtain ⟨⟨tData, t⟩, i⟩ := entry
  unfold ThreadParams.slots
  rw [Loop.mem_nested, List.mem_zipIdx_iff_getElem?]

theorem nodup_slots : th.slots.Nodup :=
  Loop.nodup_nested (List.Nodup.of_map Prod.snd (List.nodup_zipIdx_map_snd _))

/-- The slots of one target. -/
theorem countP_slots (found : th.targets[t]? = some tData) :
    th.slots.countP (fun entry => entry.1.2 == t) = tData.target.overlap.toNat := by
  unfold ThreadParams.slots
  rw [List.countP_eq_length_filter, Loop.filter_outer _ fun entry : TargetData × Nat => entry.2 == t]
  have one := @Loop.filter_zipIdx _ t th.targets tData 0 found
  simp only [Nat.zero_add] at one
  rw [one, Loop.length_nested]
  simp

end Slots

/-! ### The invariant -/

/-- The number of operations the thread has constructed. -/
def Phase.constructed (th : ThreadParams) : Phase → Nat
  | .start t => th.slotsBefore t
  | .issue t i _ => th.slotsBefore t + i.toNat
  | .advance t i _ => th.slotsBefore t + (i.toNat + 1)
  | _ => th.slots.length

/-- The overlap loop stays within the overlap of its target. -/
def Phase.InOverlap (th : ThreadParams) : Phase → Prop
  | .issue t i _ => ∀ tData, th.targets[t]? = some tData → i.toNat ≤ tData.target.overlap.toNat
  | .advance t i _ => ∀ tData, th.targets[t]? = some tData → i.toNat < tData.target.overlap.toNat
  | _ => True

/-- The thread has left its work loop. -/
def Phase.stopped : Phase → Bool
  | .ended => true
  | .aborted => true
  | _ => false

section Depth

variable {Op Engine : Type} [IAsyncIop Op] [LawfulIop Op]

/-- The operation has the file, length and buffers of its slot. -/
structure AtSlot (entry : (TargetData × Nat) × Nat) (op : Op) : Prop where
  target : (view op).targetData = entry.1.2
  fd : (view op).fd = entry.1.1.fd
  nbytes : (view op).nbytes = entry.1.1.target.blockSize
  readBuf : (view op).readBuf =
    entry.1.1.buffer + UInt64.ofNat entry.2 * entry.1.1.target.blockSize
  writeBuf : (view op).writeBuf =
    if entry.1.1.target.separateBuffers then entry.1.1.writeBuffer else (view op).readBuf

/-- **The invariant of the depth of a thread.** -/
structure DepthInv (th : ThreadParams) (s : ThreadState Op Engine) : Prop where
  count : s.ops.length = s.phase.constructed th
  inOverlap : s.phase.InOverlap th
  placed : ∀ (p : Nat) (op : Op), s.ops[p]? = some op →
    ∃ entry, th.slots[p]? = some entry ∧ AtSlot entry op
  all : s.phase.stopped = false →
    (s.pending.map (·.op)).Perm (List.range s.ops.length)
  submitted : s.phase = .work → s.opQueue = []

variable {th : ThreadParams} {s s' : ThreadState Op Engine}

theorem depthInv_initial (rngEngine : Engine) :
    DepthInv th (.initial th rngEngine : ThreadState Op Engine) where
  count := rfl
  inOverlap := trivial
  placed _ _ found := by cases found
  all _ := List.Perm.refl _
  submitted phase := by cases phase

/-- A step that leaves the operations and what is pending, outside the work loop. -/
theorem DepthInv.of_same (inv : DepthInv th s) (ops : s'.ops = s.ops)
    (opQueue : s'.opQueue = s.opQueue) (inFlight : s'.inFlight = s.inFlight)
    (constructed : s'.phase.constructed th = s.phase.constructed th)
    (inOverlap : s'.phase.InOverlap th) (running : s.phase.stopped = false)
    (notWork : s'.phase ≠ .work) : DepthInv th s' where
  count := by rw [ops, constructed, inv.count]
  inOverlap := inOverlap
  placed := by
    rw [ops]
    exact inv.placed
  all _ := by
    unfold ThreadState.pending
    rw [ops, opQueue, inFlight]
    exact inv.all running
  submitted work := absurd work notWork

/-- A step that ends the work of the thread. -/
theorem DepthInv.of_stopped (inv : DepthInv th s) (ops : s'.ops = s.ops)
    (constructed : s.phase.constructed th = th.slots.length)
    (phase : s'.phase = .ended ∨ s'.phase = .aborted) : DepthInv th s' := by
  refine ⟨?_, ?_, by rw [ops]; exact inv.placed, fun running => ?_, fun work => ?_⟩
  · rw [ops, inv.count, constructed]
    rcases phase with phase | phase <;> rw [phase] <;> rfl
  · rcases phase with phase | phase <;> rw [phase] <;> trivial
  · rcases phase with phase | phase <;> rw [phase] at running <;> cases running
  · rcases phase with phase | phase <;> rw [phase] at work <;> cases work

/-- The operation of a new slot. -/
theorem atSlot_construct (tData : TargetData) (t : Nat) (i : UInt32) (offset : Int64)
    (percentage : UInt32) (now uninit : UInt64) :
    AtSlot ((tData, t), i.toNat) (IAsyncIop.construct uninit
      (ThreadState.iopArgs th tData t i offset percentage now) : Op) := by
  have index : UInt64.ofNat i.toNat = i.toUInt64 := by
    rw [← UInt64.toNat_inj, UInt64.toNat_ofNat', UInt32.toNat_toUInt64]
    have := i.toNat_lt
    omega
  constructor <;> rw [view_construct]
  · rfl
  · rfl
  · rfl
  · rw [index]
    rfl
  · rfl

theorem DepthInv.construct (inv : DepthInv th s) {t : Nat} {i : UInt32} {currOffset : Int64}
    {tData : TargetData} {percentage : UInt32} {now uninit : UInt64}
    (phase : s.phase = .issue t i currOffset) (found : th.targets[t]? = some tData)
    (below : i < tData.target.overlap) :
    DepthInv th (s.construct th tData t i currOffset percentage now uninit) := by
  have count := inv.count
  rw [phase] at count
  have length : (s.construct th tData t i currOffset percentage now uninit).ops.length =
      s.ops.length + 1 := List.length_append
  refine ⟨?_, fun tData' found' => ?_, fun p op isOp => ?_, fun _ => ?_, (nomatch ·)⟩
  · rw [length, count]
    exact Nat.add_assoc _ _ _
  · rw [found, Option.some.injEq] at found'
    subst found'
    exact UInt32.lt_iff_toNat_lt.mp below
  · rcases Nat.lt_or_ge p s.ops.length with earlier | later
    · exact inv.placed p op ((List.getElem?_append_left earlier).symm.trans isOp)
    · have last : p = s.ops.length := by
        have := (List.getElem?_eq_some_iff.mp isOp).1
        rw [length] at this
        omega
      have isNew : some (IAsyncIop.construct uninit
          (ThreadState.iopArgs th tData t i currOffset percentage now)) = some op := by
        rw [← isOp, last]
        exact List.getElem?_concat_length.symm
      rw [Option.some.injEq] at isNew
      subst isNew
      refine ⟨((tData, t), i.toNat), ?_, atSlot_construct tData t i currOffset percentage now uninit⟩
      rw [last, count]
      exact slots_getElem? found (UInt32.lt_iff_toNat_lt.mp below)
  · refine ((s.construct_pending th tData t i currOffset percentage now uninit).map _).trans ?_
    rw [length, List.range_succ, List.map_cons]
    refine (List.Perm.cons _ (inv.all ?_)).trans (List.perm_append_singleton _ _).symm
    rw [phase]
    rfl

/-- `submit` once all operations are constructed. -/
theorem depthInv_afterSubmit (linked : Linked th s) (count : s.ops.length = th.slots.length)
    (placed : ∀ (p : Nat) (op : Op), s.ops[p]? = some op →
      ∃ entry, th.slots[p]? = some entry ∧ AtSlot entry op)
    (all : (s.pending.map (·.op)).Perm (List.range s.ops.length)) (err : Int32) :
    DepthInv th (s.afterSubmit err) := by
  unfold ThreadState.afterSubmit
  split_ifs
  · exact ⟨count, trivial, placed, fun _ => (linked.submit_pending.map _).trans all, fun _ => rfl⟩
  · exact ⟨count, trivial, placed, (nomatch ·), (nomatch ·)⟩

/-- An operation that is issued again keeps its slot. -/
theorem AtSlot.recycled {entry : (TargetData × Nat) × Nat} {op : Op} (place : AtSlot entry op)
    (tData : TargetData) (offset : Int64) (round : Round) :
    AtSlot entry (ThreadState.recycled op tData offset round) := by
  obtain ⟨target, fd, nbytes, readBuf, writeBuf⟩ := place
  unfold ThreadState.recycled
  constructor <;> simp only [view_setType, view_setOffset, view_setTime]
  · exact target
  · exact fd
  · exact nbytes
  · exact readBuf
  · exact writeBuf

theorem DepthInv.complete (inv : DepthInv th s) (linked : Linked th s) (phase : s.phase = .work)
    {before after : List Flight} {flight : Flight}
    (inFlight : s.inFlight = before ++ flight :: after) {op : Op}
    (hasOp : s.ops[flight.op]? = some op) {tData : TargetData}
    (found : th.targets[getTargetData op]? = some tData) {offset : Int64} {round : Round}
    (low : 1 ≤ round.percentage) (high : round.percentage ≤ 100) {recorded : ThreadState Op Engine}
    (done : ThreadState.record th { s with inFlight := before ++ after } flight op tData round =
      some recorded) (rngEngine : Engine) (err : Int32) :
    DepthInv th (({ recorded with rngEngine := rngEngine }.reissue flight op tData offset
      round).afterSubmit err) := by
  have linked' : Linked th
      ({ recorded with rngEngine := rngEngine }.reissue flight op tData offset round) :=
    linked.complete inFlight hasOp found low high done rngEngine
  obtain ⟨_, _, _, rfl⟩ := ThreadState.record_frame done
  have count := inv.count
  rw [phase] at count
  refine depthInv_afterSubmit linked' ?_ (fun p op' isOp => ?_) ?_ err
  · show (s.ops.set _ _).length = _
    rw [List.length_set, count]
    rfl
  · by_cases same : flight.op = p
    · subst same
      have below := (List.getElem?_eq_some_iff.mp hasOp).1
      have isRecycled := (List.getElem?_set_self below).symm.trans isOp
      rw [Option.some.injEq] at isRecycled
      obtain ⟨entry, isEntry, place⟩ := inv.placed flight.op op hasOp
      exact ⟨entry, isEntry, isRecycled ▸ place.recycled tData offset round⟩
    · exact inv.placed p op' ((List.getElem?_set_ne same).symm.trans isOp)
  · refine ((ThreadState.reissue_pending _ flight op tData offset round).map _).trans ?_
    have before := (ThreadState.pending_of_inFlight inFlight).map (·.op)
    have length : (s.ops.set flight.op (ThreadState.recycled op tData offset round)).length =
      s.ops.length := List.length_set
    show List.Perm _ (List.range (s.ops.set _ _).length)
    rw [length]
    exact before.symm.trans (inv.all (by rw [phase]; rfl))

/-- **Each step of a thread keeps the invariant.** -/
theorem depthInv_step {dist : UniformInt Engine} {interlocked interlocked' : Interlocked}
    (linked : Linked th s) (inv : DepthInv th s)
    (step : Step dist th interlocked s interlocked' s') : DepthInv th s' := by
  cases step with
  | startOffset phase =>
    refine inv.of_same rfl rfl rfl ?_ (fun _ _ => Nat.zero_le _) (by rw [phase]; rfl) (nomatch ·)
    rw [phase]
    rfl
  | targetsDone phase none =>
    refine inv.of_same rfl rfl rfl ?_ trivial (by rw [phase]; rfl) (nomatch ·)
    rw [phase]
    exact (slotsBefore_all none).symm
  | construct phase found below => exact inv.construct phase found below
  | @overlapDone t i _ tData phase found atEnd =>
    refine inv.of_same rfl rfl rfl ?_ trivial (by rw [phase]; rfl) (nomatch ·)
    have inOverlap := inv.inOverlap
    rw [phase] at inOverlap
    have upTo := inOverlap tData found
    rw [UInt32.lt_iff_toNat_lt] at atEnd
    rw [phase]
    show th.slotsBefore (t + 1) = th.slotsBefore t + i.toNat
    rw [slotsBefore_succ found]
    omega
  | @advance t i _ _ tData _ phase found =>
    have inOverlap := inv.inOverlap
    rw [phase] at inOverlap
    have below := inOverlap tData found
    have bound := tData.target.overlap.toNat_lt
    have one : (1 : UInt32).toNat = 1 := rfl
    have next : (i + 1).toNat = i.toNat + 1 := by
      rw [UInt32.toNat_add, one]
      omega
    refine inv.of_same rfl rfl rfl ?_ (fun tData' found' => ?_) (by rw [phase]; rfl) (nomatch ·)
    · rw [phase]
      show _ + (i + 1).toNat = _ + (i.toNat + 1)
      rw [next]
    · rw [found, Option.some.injEq] at found'
      subst found'
      rw [next]
      exact below
  | submit phase =>
    have count := inv.count
    rw [phase] at count
    exact depthInv_afterSubmit linked count inv.placed (inv.all (by rw [phase]; rfl)) _
  | leave phase => exact inv.of_stopped rfl (by rw [phase]; rfl) (Or.inl rfl)
  | throttle => exact inv
  | waitLast phase => exact inv.of_stopped rfl (by rw [phase]; rfl) (Or.inl rfl)
  | fail phase => exact inv.of_stopped rfl (by rw [phase]; rfl) (Or.inr rfl)
  | complete phase _ inFlight hasOp found _ _ low high done =>
    exact inv.complete linked phase inFlight hasOp found low high done _ _

theorem depthInv_reachable {dist : UniformInt Engine} {targets : List Target}
    {params : List ThreadParams} {state : JobState Op Engine}
    (reached : Reachable (jobSystem Op dist targets params) state) {n : Nat}
    (isThread : params[n]? = some th) :
    Linked th (state.threads n) ∧ DepthInv th (state.threads n) := by
  refine jobSystem_thread (fun s => Linked th s ∧ DepthInv th s) isThread ?_ ?_ reached
  · exact fun rngEngine => ⟨linked_initial rngEngine, depthInv_initial rngEngine⟩
  · exact fun _ _ _ _ before step =>
      ⟨linked_step before.1 step, depthInv_step before.1 before.2 step⟩

/-! ### How many are in flight -/

/-- Where an operation in flight is: its slot, and the request the kernel has for it. -/
theorem flight_atSlot (linked : Linked th s) (inv : DepthInv th s) {flight : Flight}
    (inFlight : flight ∈ s.inFlight) :
    ∃ (op : Op) (entry : (TargetData × Nat) × Nat), th.slots[flight.op]? = some entry ∧
      AtSlot entry op ∧ flight.target = entry.1.2 ∧ flight.cb = (view op).controlBlock := by
  obtain ⟨before, after, split⟩ := List.append_of_mem inFlight
  obtain ⟨⟨op, hasOp, target, _⟩, isBlock⟩ := linked.flight_carries split
  obtain ⟨entry, isEntry, place⟩ := inv.placed flight.op op hasOp
  rw [hasOp, Option.map_some, Option.some.injEq,
    controlBlock_eq op (linked.sound op (List.mem_of_getElem? hasOp)).1] at isBlock
  exact ⟨op, entry, isEntry, place, target.symm.trans place.target, isBlock.symm⟩

/-- **The depth of a thread**: at the head of the work loop its targets have their overlap in flight
and nothing is queued; and at any time its group has room for its operations. -/
structure Deep (th : ThreadParams) (s : ThreadState Op Engine) : Prop where
  atHead : s.phase = .work → s.opQueue = [] ∧ ∀ t tData, th.targets[t]? = some tData →
    s.inFlight.countP (fun flight => flight.target == t) = tData.target.overlap.toNat
  bounded : s.opQueue.length + s.inFlight.length ≤ th.totalOverlap.toNat

theorem atHead_of_inv (linked : Linked th s) (inv : DepthInv th s) (phase : s.phase = .work) {t : Nat}
    {tData : TargetData} (found : th.targets[t]? = some tData) :
    s.inFlight.countP (fun flight => flight.target == t) = tData.target.overlap.toNat := by
  have count := inv.count
  have all := inv.all (by rw [phase]; rfl)
  unfold ThreadState.pending at all
  rw [inv.submitted phase, List.nil_append, List.map_map, count, phase] at all
  have counted : s.inFlight.countP (fun flight => flight.target == t) =
      (s.inFlight.map fun flight => flight.op).countP
        fun p => th.slots[p]?.any fun entry => entry.1.2 == t := by
    rw [List.countP_map]
    refine List.countP_congr fun flight member => ?_
    obtain ⟨_, entry, isEntry, _, target, _⟩ := flight_atSlot linked inv member
    show _ ↔ th.slots[flight.op]?.any _ = true
    rw [isEntry, target]
    rfl
  rw [counted, ← countP_slots found, ← Tally.countP_range th.slots]
  exact all.countP_eq _

/-- The operations are no more than the slots. -/
theorem DepthInv.length_le (inv : DepthInv th s) : s.ops.length ≤ th.slots.length := by
  rcases Nat.eq_zero_or_pos s.ops.length with none | some
  · omega
  · have last : s.ops.length - 1 < s.ops.length := by omega
    obtain ⟨entry, isEntry, _⟩ := inv.placed _ _ (List.getElem?_eq_getElem last)
    have := (List.getElem?_eq_some_iff.mp isEntry).1
    omega

theorem slots_length : th.slots.length =
    (th.targets.map fun tData => tData.target.overlap.toNat).sum := by
  unfold ThreadParams.slots
  rw [Loop.length_nested]
  conv_rhs => rw [← List.zipIdx_map_fst 0 th.targets, List.map_map]
  rfl

/-- The sum of the overlaps does not wrap. -/
theorem totalOverlap_toNat (few : th.targets.length ≤ 2 ^ 32) :
    th.totalOverlap.toNat = th.slots.length := by
  have small : ∀ n ∈ th.targets.map (fun tData => tData.target.overlap.toNat), n ≤ 2 ^ 32 - 1 := by
    intro n member
    obtain ⟨tData, _, rfl⟩ := List.mem_map.mp member
    have := tData.target.overlap.toNat_lt
    omega
  have sum := List.sum_le_card_nsmul _ _ small
  rw [List.length_map, smul_eq_mul] at sum
  unfold ThreadParams.totalOverlap
  rw [MachineWord.toNat_foldl_add_64, slots_length]
  simp only [UInt32.toNat_toUInt64]
  have zero : (0 : UInt64).toNat = 0 := rfl
  have bound : th.targets.length * (2 ^ 32 - 1) ≤ 2 ^ 32 * (2 ^ 32 - 1) :=
    Nat.mul_le_mul_right _ few
  omega

theorem deep_of_inv (few : th.targets.length ≤ 2 ^ 32) (linked : Linked th s)
    (inv : DepthInv th s) : Deep th s where
  atHead phase := ⟨inv.submitted phase, fun _ _ found => atHead_of_inv linked inv phase found⟩
  bounded := by
    have below : s.pending.map (·.op) ⊆ List.range s.ops.length := by
      intro p member
      obtain ⟨issue, isPending, rfl⟩ := List.mem_map.mp member
      exact List.mem_range.mpr (linked.carries issue isPending).op_lt
    have length := (List.subperm_of_subset linked.distinct below).length_le
    rw [List.length_map, List.length_range] at length
    unfold ThreadState.pending at length
    rw [List.length_append, List.length_map] at length
    rw [totalOverlap_toNat few]
    exact length.trans inv.length_le

/-! ### What an operation keeps -/

/-- The operation still has its file, length and buffers. -/
structure SameBuffers (op op' : Op) : Prop where
  fd : (view op').fd = (view op).fd
  nbytes : (view op').nbytes = (view op).nbytes
  readBuf : (view op').readBuf = (view op).readBuf
  writeBuf : (view op').writeBuf = (view op).writeBuf

/-- Each operation of a state has its file, length and buffers in a later one. -/
def KeepsBuffers (s s' : ThreadState Op Engine) : Prop :=
  ∀ (p : Nat) (op : Op), s.ops[p]? = some op → ∃ op', s'.ops[p]? = some op' ∧ SameBuffers op op'

theorem keepsBuffers_of_ops (ops : s'.ops = s.ops) : KeepsBuffers s s' := by
  intro p op hasOp
  exact ⟨op, by rw [ops, hasOp], ⟨rfl, rfl, rfl, rfl⟩⟩

theorem KeepsBuffers.trans {s'' : ThreadState Op Engine} (first : KeepsBuffers s s')
    (second : KeepsBuffers s' s'') : KeepsBuffers s s'' := by
  intro p op hasOp
  obtain ⟨op', hasOp', same⟩ := first p op hasOp
  obtain ⟨op'', hasOp'', same'⟩ := second p op' hasOp'
  exact ⟨op'', hasOp'', same'.fd.trans same.fd, same'.nbytes.trans same.nbytes,
    same'.readBuf.trans same.readBuf, same'.writeBuf.trans same.writeBuf⟩

theorem keepsBuffers_step {dist : UniformInt Engine} {interlocked interlocked' : Interlocked}
    (step : Step dist th interlocked s interlocked' s') : KeepsBuffers s s' := by
  cases step with
  | construct =>
    intro p op hasOp
    have below := (List.getElem?_eq_some_iff.mp hasOp).1
    exact ⟨op, (List.getElem?_append_left below).trans hasOp, ⟨rfl, rfl, rfl, rfl⟩⟩
  | submit => exact keepsBuffers_of_ops (ThreadState.afterSubmit_ops _ _)
  | @complete _ round _ _ flight op tData offset _ _ _ _ hasOp _ _ _ _ _ done =>
    obtain ⟨_, _, _, rfl⟩ := ThreadState.record_frame done
    intro p op' hasOp'
    rw [ThreadState.afterSubmit_ops]
    by_cases same : flight.op = p
    · subst same
      rw [hasOp, Option.some.injEq] at hasOp'
      subst hasOp'
      have below := (List.getElem?_eq_some_iff.mp hasOp).1
      refine ⟨ThreadState.recycled op tData offset round, List.getElem?_set_self below, ?_⟩
      unfold ThreadState.recycled
      constructor <;> simp only [view_setType, view_setOffset, view_setTime]
    · exact ⟨op', (List.getElem?_set_ne same).trans hasOp', ⟨rfl, rfl, rfl, rfl⟩⟩
  | _ => exact keepsBuffers_of_ops rfl

/-- **Along any run** the operations of each thread keep their file, length and buffers. -/
theorem keepsBuffers_run {dist : UniformInt Engine} {targets : List Target}
    {params : List ThreadParams} {first last : JobState Op Engine} {labels : List Nat}
    (run : Run (jobSystem Op dist targets params) first labels last) (n : Nat) :
    KeepsBuffers (first.threads n) (last.threads n) := by
  refine run.invariant (H := fun state => KeepsBuffers (first.threads n) (state.threads n))
    (keepsBuffers_of_ops rfl) ?_
  rintro state other next before ⟨th, interlocked, thread, _, step, rfl⟩
  by_cases same : n = other
  · subst same
    simp only [Function.update_self]
    exact before.trans (keepsBuffers_step step)
  · simp only [Function.update_of_ne same]
    exact before

/-! ### The memory of the operations -/

/-- The addresses a request reads or writes. -/
def ControlBlock.memory (cb : ControlBlock) : Set Nat :=
  Set.Ico cb.buf.toNat (cb.buf.toNat + cb.nbytes.toNat)

/-- The size of the buffer with what its alignment can need fits in `size_t`. -/
def Target.BuffersFit (target : Target) : Prop :=
  target.overlap.toNat * target.blockSize.toNat + (target.bufferAlign.toNat - 1) < 2 ^ 64

/-- The memory a thread has for its operations. -/
structure MemorySound (th : ThreadParams) (memory : Nat → Memory) (buffers : Nat → TargetBuffers) :
    Prop where
  fits : ∀ tData ∈ th.targets, tData.target.BuffersFit
  allocates : th.Allocates memory buffers
  calloc : CallocSound th.targets.length buffers

/-- **The memory of the operations in flight**: each uses a block in one of the thread's buffers, and
two of them, one a read, use different memory. -/
structure Apart (th : ThreadParams) (buffers : Nat → TargetBuffers) (s : ThreadState Op Engine) :
    Prop where
  inside : ∀ flight ∈ s.inFlight, ∃ tData t, th.targets[t]? = some tData ∧
    flight.cb.nbytes = tData.target.blockSize ∧ ∃ which,
      flight.cb.memory ⊆ ((buffers t).get which).usable ∧
      ((buffers t).get which).usable ⊆ ((buffers t).get which).allocation
  disjoint : ∀ flight ∈ s.inFlight, ∀ other ∈ s.inFlight, flight.op ≠ other.op →
    flight.cb.type = .read ∨ other.cb.type = .read → Disjoint flight.cb.memory other.cb.memory

section Memory

variable {memory : Nat → Memory} {buffers : Nat → TargetBuffers} {t : Nat} {tData : TargetData}

/-- The buffers of a target: where they are, and that they are in their own memory. -/
structure BuffersAt (tData : TargetData) (buffers : TargetBuffers) : Prop where
  buffer : tData.buffer = buffers.buffer.ptr
  size : buffers.buffer.sz.toNat = tData.target.overlap.toNat * tData.target.blockSize.toNat
  inSpace : tData.buffer.toNat + buffers.buffer.sz.toNat ≤ 2 ^ 64
  usable : buffers.buffer.usable ⊆ buffers.buffer.allocation
  separate : tData.target.separateBuffers = true → 0 < tData.target.overlap.toNat →
    tData.writeBuffer = buffers.writeBuffer.ptr ∧
      buffers.writeBuffer.sz = tData.target.blockSize ∧
      buffers.writeBuffer.usable ⊆ buffers.writeBuffer.allocation

theorem MemorySound.buffersAt (sound : MemorySound th memory buffers)
    (found : th.targets[t]? = some tData) : BuffersAt tData (buffers t) := by
  obtain ⟨done, buffer, writeBuffer⟩ := sound.allocates t tData found
  obtain ⟨isBuffer, isWrite, _⟩ := allocate_some done
  have below := (List.getElem?_eq_some_iff.mp found).1
  have fits := sound.fits tData (List.mem_of_getElem? found)
  unfold Target.BuffersFit at fits
  have product : (tData.target.overlap.toUInt64 * tData.target.blockSize).toNat =
      tData.target.overlap.toNat * tData.target.blockSize.toNat := by
    rw [UInt64.toNat_mul, UInt32.toNat_toUInt64]
    exact Nat.mod_eq_of_lt (by omega)
  obtain ⟨usable, inSpace⟩ := usable_subset isBuffer (by rwa [product])
    (sound.calloc.inSpace t below .read)
  have size := (calloc_some isBuffer).1
  refine ⟨buffer, by rw [size, product], by rwa [buffer, size], usable, fun separate some => ?_⟩
  have block : tData.target.blockSize.toNat ≤
      tData.target.overlap.toNat * tData.target.blockSize.toNat := Nat.le_mul_of_pos_left _ some
  exact ⟨writeBuffer, (calloc_some (isWrite separate)).1, (usable_subset (isWrite separate)
    (by omega) (sound.calloc.inSpace t below .write)).1⟩

/-- The slot of an operation in the buffer of its target. -/
theorem readBuf_toNat (at_ : BuffersAt tData (buffers t)) {i : Nat}
    (below : i < tData.target.overlap.toNat) :
    (tData.buffer + UInt64.ofNat i * tData.target.blockSize).toNat =
      tData.buffer.toNat + i * tData.target.blockSize.toNat := by
  have inSpace := at_.inSpace
  rw [at_.size] at inSpace
  exact toNat_slot below inSpace

/-- **The memory of a request**: the slot of its operation, or for a write with `-Zs` the write
buffer of its target. -/
theorem memory_cases (at_ : BuffersAt tData (buffers t)) {i : Nat}
    (below : i < tData.target.overlap.toNat) {op : Op} (place : AtSlot ((tData, t), i) op) :
    (view op).controlBlock.memory =
        slot tData.buffer.toNat tData.target.blockSize.toNat i ∨
      (view op).controlBlock.type = .write ∧ tData.target.separateBuffers = true ∧
        (view op).controlBlock.memory = (buffers t).writeBuffer.usable := by
  have nbytes : (view op).controlBlock.nbytes = tData.target.blockSize := place.nbytes
  have read : (view op).readBuf = tData.buffer + UInt64.ofNat i * tData.target.blockSize :=
    place.readBuf
  have write : (view op).writeBuf =
    if tData.target.separateBuffers then tData.writeBuffer else (view op).readBuf := place.writeBuf
  have inSlot : (view op).controlBlock.buf = (view op).readBuf → (view op).controlBlock.memory =
      slot tData.buffer.toNat tData.target.blockSize.toNat i := by
    intro buf
    unfold ControlBlock.memory slot
    rw [buf, nbytes, read, readBuf_toNat at_ below]
  cases type : (view op).type with
  | read =>
    refine Or.inl (inSlot ?_)
    show (view op).type.buffer _ _ = _
    rw [type]
    rfl
  | write =>
    have buf : (view op).controlBlock.buf = (view op).writeBuf := by
      show (view op).type.buffer _ _ = _
      rw [type]
      rfl
    cases separate : tData.target.separateBuffers with
    | false =>
      rw [separate, if_neg Bool.false_ne_true] at write
      exact Or.inl (inSlot (buf.trans write))
    | true =>
      rw [separate, if_pos rfl] at write
      obtain ⟨ptr, size, _⟩ := at_.separate separate (by omega)
      refine Or.inr ⟨type, rfl, ?_⟩
      unfold ControlBlock.memory TargetBuffer.usable
      rw [buf, write, nbytes, ptr, size]

/-- A place in the memory of the thread: a slot of a target's buffer, or its write buffer. -/
inductive PlacedAt (th : ThreadParams) (buffers : Nat → TargetBuffers) (flight : Flight) :
    Nat → IopType → Prop
  | slot {tData : TargetData} {t i : Nat} :
      th.targets[t]? = some tData → th.slots[flight.op]? = some ((tData, t), i) →
      i < tData.target.overlap.toNat →
      flight.cb.memory = slot tData.buffer.toNat tData.target.blockSize.toNat i →
      PlacedAt th buffers flight t .read
  | writeBuffer {tData : TargetData} {t : Nat} :
      th.targets[t]? = some tData → tData.target.separateBuffers = true →
      0 < tData.target.overlap.toNat → flight.cb.type = .write →
      flight.cb.memory = (buffers t).writeBuffer.usable → PlacedAt th buffers flight t .write

theorem exists_placedAt (sound : MemorySound th memory buffers) (linked : Linked th s)
    (inv : DepthInv th s) {flight : Flight} (inFlight : flight ∈ s.inFlight) :
    ∃ tData t which, th.targets[t]? = some tData ∧ flight.cb.nbytes = tData.target.blockSize ∧
      PlacedAt th buffers flight t which := by
  obtain ⟨op, ⟨⟨tData, t⟩, i⟩, isEntry, place, _, isBlock⟩ := flight_atSlot linked inv inFlight
  obtain ⟨found, below⟩ := mem_slots.mp (List.mem_of_getElem? isEntry)
  have nbytes : flight.cb.nbytes = tData.target.blockSize := by
    rw [isBlock]
    exact place.nbytes
  rcases memory_cases (sound.buffersAt found) below place with inSlot | ⟨type, separate, inWrite⟩
  · exact ⟨tData, t, .read, found, nbytes, .slot found isEntry below (by rw [isBlock, inSlot])⟩
  · exact ⟨tData, t, .write, found, nbytes, .writeBuffer found separate (Nat.zero_lt_of_lt below)
      (by rw [isBlock, type]) (by rw [isBlock, inWrite])⟩

/-- The memory of a place is in its buffer, and that in the memory it got. -/
theorem PlacedAt.inside (sound : MemorySound th memory buffers) {flight : Flight} {which : IopType}
    (place : PlacedAt th buffers flight t which) :
    flight.cb.memory ⊆ ((buffers t).get which).usable ∧
      ((buffers t).get which).usable ⊆ ((buffers t).get which).allocation := by
  cases place with
  | @slot tData _ i found _ below isSlot =>
    have at_ := sound.buffersAt found
    refine ⟨?_, at_.usable⟩
    rw [isSlot]
    show _ ⊆ (buffers t).buffer.usable
    unfold TargetBuffer.usable
    rw [at_.size, ← at_.buffer]
    exact slot_subset below
  | writeBuffer found separate some _ isBuffer =>
    exact ⟨isBuffer.subset, ((sound.buffersAt found).separate separate some).2.2⟩

/-- **Two places of different operations, one of a read, do not overlap.** -/
theorem PlacedAt.disjoint (sound : MemorySound th memory buffers) {flight other : Flight}
    {t' : Nat} {which which' : IopType} (place : PlacedAt th buffers flight t which)
    (place' : PlacedAt th buffers other t' which') (different : flight.op ≠ other.op)
    (reads : flight.cb.type = .read ∨ other.cb.type = .read) :
    Disjoint flight.cb.memory other.cb.memory := by
  have inside := place.inside sound
  have inside' := place'.inside sound
  have below : ∀ {flight t which}, PlacedAt th buffers flight t which → t < th.targets.length := by
    intro flight t which place
    cases place with
    | slot found => exact (List.getElem?_eq_some_iff.mp found).1
    | writeBuffer found => exact (List.getElem?_eq_some_iff.mp found).1
  have elsewhere : (t, which) ≠ (t', which') → Disjoint flight.cb.memory other.cb.memory := by
    intro apart
    exact (sound.calloc.apart t (below place) t' (below place') which which' apart).mono
      (inside.1.trans inside.2) (inside'.1.trans inside'.2)
  by_cases same : (t, which) = (t', which')
  · obtain ⟨rfl, rfl⟩ := Prod.mk.inj same
    cases place with
    | @slot tData _ i found isEntry _ isSlot =>
      cases place' with
      | @slot tData' _ j found' isEntry' _ isSlot' =>
        rw [found, Option.some.injEq] at found'
        subst found'
        rw [isSlot, isSlot']
        refine slot_disjoint fun sameSlot => different ?_
        subst sameSlot
        obtain ⟨inSlots, atFlight⟩ := List.getElem?_eq_some_iff.mp isEntry
        obtain ⟨_, atOther⟩ := List.getElem?_eq_some_iff.mp isEntry'
        exact nodup_slots.getElem_inj_iff.mp (atFlight.trans atOther.symm)
    | writeBuffer _ _ _ type =>
      cases place' with
      | writeBuffer _ _ _ type' =>
        rw [type, type'] at reads
        rcases reads with read | read <;> cases read
  · exact elsewhere same

theorem apart_of_inv (sound : MemorySound th memory buffers) (linked : Linked th s)
    (inv : DepthInv th s) : Apart th buffers s where
  inside flight inFlight := by
    obtain ⟨tData, t, which, found, nbytes, place⟩ := exists_placedAt sound linked inv inFlight
    exact ⟨tData, t, found, nbytes, which, place.inside sound⟩
  disjoint flight inFlight other inFlight' different reads := by
    obtain ⟨_, _, _, _, _, place⟩ := exists_placedAt sound linked inv inFlight
    obtain ⟨_, _, _, _, _, place'⟩ := exists_placedAt sound linked inv inFlight'
    exact place.disjoint sound place' different reads

end Memory

end Depth

/-! ### All runs -/

/-- **Depth and buffers.** In every state of every run of any threads over any targets, a thread with
sound memory is at its depth, and the operations it has in flight use apart memory in its buffers; and
on the way its operations keep their file, length and buffers. -/
theorem depthAndBuffers (engine : IoEngine) {Engine : Type} (dist : UniformInt Engine)
    (targets : List Target) (params : List ThreadParams) {state : JobState engine.Op Engine}
    (reached : Reachable (jobSystem engine.Op dist targets params) state) {n : Nat}
    {th : ThreadParams} (isThread : params[n]? = some th) {memory : Nat → Memory}
    {buffers : Nat → TargetBuffers}
    -- the paths are arguments of main, and their number is an int
    (few : th.targets.length ≤ 2 ^ 32)
    (sound : MemorySound th memory buffers) :
    Deep th (state.threads n) ∧ Apart th buffers (state.threads n) ∧
      ∀ labels last, Run (jobSystem engine.Op dist targets params) state labels last →
        KeepsBuffers (state.threads n) (last.threads n) := by
  obtain ⟨linked, inv⟩ := depthInv_reachable reached isThread
  exact ⟨deep_of_inv few linked inv, apart_of_inv sound linked inv,
    fun labels last run => keepsBuffers_run run n⟩

/-- A thread with one target at the defaults, and 128 KiB for its two slots at 64 KiB. -/
def slotsThread : ThreadParams where
  threadId := 0
  targets := [{
    target := { path := "f".toList, size := 1048576, maxSize := 1048576 }
    targetIndex := 0
    fd := 3
    buffer := 65536
    writeBuffer := 0 }]

def slotsBuffers : TargetBuffers where
  buffer := { unaligned := 65536, ptr := 65536, sz := 131072 }
  writeBuffer := {}

theorem slotsThread_sound :
    MemorySound slotsThread (fun _ => ⟨65536, 0⟩) (fun _ => slotsBuffers) where
  fits tData member := by
    obtain rfl := List.mem_singleton.mp member
    show 2 * 65536 + (1 - 1) < 2 ^ 64
    decide
  allocates t tData found := by
    obtain rfl := List.mem_singleton.mp (List.mem_of_getElem? found)
    refine ⟨?_, rfl, rfl⟩
    dsimp only
    decide
  calloc := by
    have empty : TargetBuffer.allocation {} = ∅ := rfl
    refine ⟨fun t _ which some => ?_, fun t below t' below' which which' different => ?_⟩
    · cases which with
      | read =>
        show 65536 + 131072 ≤ 2 ^ 64
        decide
      | write => exact absurd rfl some
    · have zero : t = t' := (Nat.lt_one_iff.mp below).trans (Nat.lt_one_iff.mp below').symm
      cases which with
      | write =>
        show Disjoint (TargetBuffer.allocation {}) _
        rw [empty]
        exact Set.empty_disjoint _
      | read =>
        cases which' with
        | read => exact absurd (by rw [zero]) different
        | write =>
          show Disjoint _ (TargetBuffer.allocation {})
          rw [empty]
          exact Set.disjoint_empty _

/-- The thread at the head of its work loop. -/
theorem slotsThread_deep :
    ∃ state : JobState (IoEngine.Op .kernelAio) Unit,
      Reachable (jobSystem (IoEngine.Op .kernelAio) (fun a _ engine => (a, engine)) []
        [slotsThread]) state ∧ (state.threads 0).phase = .work ∧
      Deep slotsThread (state.threads 0) ∧
      Apart slotsThread (fun _ => slotsBuffers) (state.threads 0) := by
  have can : ∀ tData ∈ slotsThread.targets, tData.target.CanIssue := by
    intro tData member
    obtain rfl := List.mem_singleton.mp member
    exact .of_sequential rfl
  have isThread : [slotsThread][0]? = some slotsThread := rfl
  obtain ⟨state, _, _, _, reached, phase, _⟩ := reach_work (IoEngine.Op .kernelAio)
    (fun a _ engine => (a, engine)) can [] isThread () (t := 0) rfl
  obtain ⟨deep, apart, _⟩ := depthAndBuffers .kernelAio _ [] [slotsThread] reached isThread
    (by decide) slotsThread_sound
  exact ⟨state, reached, phase, deep, apart⟩

end DiskSpd
