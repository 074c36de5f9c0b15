/-
**The memory and the alignment of what the kernel has.**

* `placedAt_of_op` — where the control block of an operation points, whether it is queued or in flight.
* `JobMemorySound` — the threads of a job have got their buffers from `std::calloc`, each its own.
* `KernelApart`, `jobWork_apart` — two requests of a job, of the same thread or of two, use different
  memory when one of them is a read, and each uses a buffer of its own thread.
* `jobWork_aligned` — a request to a target with `O_DIRECT` is aligned exactly when the base offset of
  the target is.
-/

import DiskSpd.Proof.Direct
import DiskSpd.Proof.Requests

namespace DiskSpd

open Alignment IAsyncIop LawfulIop Transition

/-! ### Memory -/

section Placed

variable {Op Engine : Type} [IAsyncIop Op] [LawfulIop Op] {th : ThreadParams}
  {t : ThreadState Op Engine} {memory : Nat → Memory} {buffers : Nat → TargetBuffers}

/-- **The place of a control block**: that of the slot of its operation. -/
theorem placedAt_of_op (sound : MemorySound th memory buffers) (linked : Linked th t)
    (inv : DepthInv th t) {flight : Flight} {op : Op} (isOp : t.ops[flight.op]? = some op)
    (isBlock : flight.cb = controlBlock op) :
    ∃ tData i which, th.targets[i]? = some tData ∧ flight.cb.nbytes = tData.target.blockSize ∧
      PlacedAt th buffers flight i which := by
  rw [controlBlock_eq op (linked.sound op (List.mem_of_getElem? isOp)).1] at isBlock
  obtain ⟨⟨⟨tData, i⟩, slot⟩, isEntry, place⟩ := inv.placed flight.op op isOp
  obtain ⟨found, below⟩ := mem_slots.mp (List.mem_of_getElem? isEntry)
  have nbytes : flight.cb.nbytes = tData.target.blockSize := by
    rw [isBlock]
    exact place.nbytes
  rcases memory_cases (sound.buffersAt found) below place with inSlot | ⟨type, separate, inWrite⟩
  · exact ⟨tData, i, .read, found, nbytes, .slot found isEntry below (by rw [isBlock, inSlot])⟩
  · exact ⟨tData, i, .write, found, nbytes, .writeBuffer found separate (Nat.zero_lt_of_lt below)
      (by rw [isBlock, type]) (by rw [isBlock, inWrite])⟩

end Placed

/-- The memory of the threads of a job: that of each thread is sound, and two of them have got
different memory. -/
structure JobMemorySound (params : List ThreadParams) (memory : Nat → Nat → Memory)
    (buffers : Nat → Nat → TargetBuffers) : Prop where
  sound : ∀ k th, params[k]? = some th → MemorySound th (memory k) (buffers k)
  apart : ∀ k th k' th', params[k]? = some th → params[k']? = some th' → k ≠ k' →
    ∀ t < th.targets.length, ∀ t' < th'.targets.length, ∀ which which',
      Disjoint ((buffers k t).get which).allocation ((buffers k' t').get which').allocation

section Apart

variable {Engine : Type} {job : JobOptions} {opened : UInt32 → Nat → JobOptions.Opened}
  {params : List ThreadParams} {dist : UniformInt Engine} {memory : Nat → Nat → Memory}
  {buffers : Nat → Nat → TargetBuffers}

/-- **The memory of the requests**: each is in a buffer of its thread, and two of them, one a read, use
different memory. -/
structure KernelApart {Op : Type} [IAsyncIop Op] {manager : IAsyncIOManager Op}
    (params : List ThreadParams) (buffers : Nat → Nat → TargetBuffers)
    (s : WorkState manager Engine) : Prop where
  inside : ∀ (k : Nat) (th : ThreadParams), params[k]? = some th →
    ∀ n ∈ manager.requests s.engine th.groupId, ∃ t tData which, th.targets[t]? = some tData ∧
      (s.request n).2.memory ⊆ ((buffers k t).get which).usable ∧
      ((buffers k t).get which).usable ⊆ ((buffers k t).get which).allocation
  disjoint : ∀ (k k' : Nat) (th th' : ThreadParams), params[k]? = some th →
    params[k']? = some th' → ∀ n ∈ manager.requests s.engine th.groupId, ∀ n' ∈ manager.requests s.engine th'.groupId,
      (k, n) ≠ (k', n') → (s.request n).2.type = .read ∨ (s.request n').2.type = .read →
        Disjoint (s.request n).2.memory (s.request n').2.memory

/-- Over an engine, a request is at the place of an operation of its thread. -/
theorem StandsFor.placed {Op : Type} [IAsyncIop Op] [LawfulIop Op] {manager : IAsyncIOManager Op}
    {s : WorkState manager Engine} {k : Nat} {th : ThreadParams} {t : ThreadState Op Engine}
    (standsFor : StandsFor th s k t) (linked : Linked th t) (inv : DepthInv th t)
    (sound : MemorySound th (memory k) (buffers k)) :
    ∃ names : List Nat, ∀ n ∈ manager.requests s.engine th.groupId, ∃ flight : Flight,
      names[flight.op]? = some n ∧ flight.cb = (s.request n).2 ∧
        ∃ i tData which, th.targets[i]? = some tData ∧ PlacedAt th (buffers k) flight i which := by
  obtain ⟨names, named⟩ := standsFor.requests
  refine ⟨names, fun n member => ?_⟩
  obtain ⟨issue, _, isName, op, isOp, same⟩ := named n member
  have isBlock : (s.request n).2 = controlBlock op := congrArg Prod.snd same
  let flight : Flight := { issue with cb := (s.request n).2 }
  have atFlight : t.ops[flight.op]? = some op := isOp
  obtain ⟨tData, i, which, found, _, place⟩ := placedAt_of_op sound linked inv atFlight isBlock
  exact ⟨flight, isName, rfl, i, tData, which, found, place⟩

/-- **The requests of a job use apart memory**, over either engine, at any moment of any run: those of
threads that have ended or failed with those of threads that work. -/
theorem jobWork_apart (created : job.createThreads opened = some params)
    (sound : JobMemorySound params memory buffers) {s : WorkState job.ioManager.manager Engine}
    (reached : Reachable (job.workSystem dist params) s) : KernelApart params buffers s := by
  obtain ⟨a, isReached, standsFor⟩ := jobWork_alone created reached
  have placed := fun k th isThread =>
    have depth := depthInv_reachable isReached isThread
    (standsFor k th isThread).placed depth.1 depth.2 (sound.sound k th isThread)
  constructor
  · intro k th isThread n member
    obtain ⟨_, each⟩ := placed k th isThread
    obtain ⟨flight, _, isBlock, i, tData, which, found, place⟩ := each n member
    have inside := place.inside (sound.sound k th isThread)
    rw [isBlock] at inside
    exact ⟨i, tData, which, found, inside⟩
  · intro k k' th th' isThread isThread' n member n' member' different reads
    by_cases same : k = k'
    · subst same
      rw [isThread, Option.some.injEq] at isThread'
      subst isThread'
      obtain ⟨_, each⟩ := placed k th isThread
      obtain ⟨flight, isName, isBlock, _, _, _, _, place⟩ := each n member
      obtain ⟨flight', isName', isBlock', _, _, _, _, place'⟩ := each n' member'
      rw [← isBlock, ← isBlock'] at reads ⊢
      refine place.disjoint (sound.sound k th isThread) place' (fun same => different ?_) reads
      rw [same, isName', Option.some.injEq] at isName
      rw [isName]
    · obtain ⟨_, each⟩ := placed k th isThread
      obtain ⟨_, each'⟩ := placed k' th' isThread'
      obtain ⟨flight, _, isBlock, i, _, which, found, place⟩ := each n member
      obtain ⟨flight', _, isBlock', i', _, which', found', place'⟩ := each' n' member'
      have inside := place.inside (sound.sound k th isThread)
      have inside' := place'.inside (sound.sound k' th' isThread')
      rw [← isBlock, ← isBlock']
      exact (sound.apart k th k' th' isThread isThread' same i (List.getElem?_eq_some_iff.mp found).1
        i' (List.getElem?_eq_some_iff.mp found').1 which which').mono (inside.1.trans inside.2)
        (inside'.1.trans inside'.2)

end Apart

/-! ### Alignment -/

section Aligned

variable {Engine : Type} {calls : List (Key × Option CString)} {stat : CString → Stat}
  {job : JobOptions} {sectors : Nat → UInt64} {opened : UInt32 → Nat → JobOptions.Opened}
  {params : List ThreadParams} {dist : UniformInt Engine} {k : Nat} {th : ThreadParams}

/-- The offsets of the operations of a target with aligned strides leave the remainder of its base
offset. -/
theorem ops_congruent (created : job.createThreads opened = some params) {target : Target}
    (found : job.targets[k]? = some target) (accepted : target.Accepted)
    (aligned : target.StridesAligned) {a : JobState job.ioManager.Op Engine}
    (reached : Reachable (job.system dist params) a) {n : Nat} (isThread : params[n]? = some th)
    {op : job.ioManager.Op} (isOp : op ∈ (a.threads n).ops) {tData : TargetData}
    (isTarget : th.targets[getTargetData op]? = some tData) (index : tData.targetIndex = k) :
    target.Congruent (getOffset op) := by
  have serves := servesUnder_any created found
  refine (((congruent_closed aligned dist).reachable serves ?_ reached).2 n th
    isThread).ops op isOp tData isTarget index
  rw [found, Option.map_some, Option.getD_some]
  intro interlocked
  rw [accepted.interlockedOffset interlocked]
  exact Int.ModEq.refl _

/-- A request for a target of the thread: one with `O_DIRECT` is aligned exactly when the base offset of
the target is. -/
def RequestAligned (th : ThreadParams) (request : Nat × ControlBlock) : Prop :=
  ∃ tData, th.targets[request.1]? = some tData ∧ (tData.target.openFlags.direct = true →
    (request.2.Aligned tData.target.sectorSize ↔
      (tData.target.sectorSize.toNat : Int) ∣ tData.target.baseOffset.toInt))

/-- **The alignment of the requests that the kernel has**, over either engine, at any moment of any
run. -/
theorem jobWork_aligned (ok : parseCommandLine calls stat = .ok job)
    (created : (job.withSectors sectors).createThreads opened = some params)
    (allocates : ∀ th ∈ params, ∃ memory buffers, th.Allocates memory buffers)
    (power : ∀ target ∈ (job.withSectors sectors).targets, target.openFlags.direct = true →
      PowerOfTwo target.sectorSize)
    (checked : ∀ target ∈ (job.withSectors sectors).targets,
      target.checkSetUp ((job.withSectors sectors).noThreads target) = .ok ())
    {s : WorkState (job.withSectors sectors).ioManager.manager Engine}
    (reached : Reachable ((job.withSectors sectors).workSystem dist params) s)
    (isThread : params[k]? = some th) :
    ∀ n ∈ (job.withSectors sectors).ioManager.manager.requests s.engine th.groupId,
      RequestAligned th (s.request n) := by
  intro n member
  obtain ⟨a, isReached, standsFor⟩ := jobWork_alone created reached
  obtain ⟨_, named⟩ := (standsFor k th isThread).requests
  obtain ⟨issue, _, _, op, isOp, same⟩ := named n member
  have inOps := List.mem_of_getElem? isOp
  obtain ⟨inStep, tData, isTarget, args⟩ := (linked_reachable isReached isThread).sound op inOps
  rw [same, RequestAligned]
  rw [← getTargetData_eq] at isTarget
  refine ⟨tData, isTarget, fun direct => ?_⟩
  have found := (createThreads_serves created th (List.mem_of_getElem? isThread) tData
    (List.mem_of_getElem? isTarget)).1
  have isMember := List.mem_of_getElem? found
  have accepted : tData.target.Accepted := by
    obtain ⟨_, each⟩ : ∃ dummy, ∀ target ∈ (job.withSectors sectors).targets,
        target.Accepted ∧ target.SameOptions dummy := withSectors_targets ok
    exact (each _ isMember).1
  obtain ⟨block, stride, threadOffset⟩ :=
    checkSetUp_aligned (power _ isMember direct) direct (checked _ isMember)
  have congruent := ops_congruent created found accepted ⟨power _ isMember direct, stride, threadOffset⟩
    isReached isThread inOps isTarget rfl
  have offset : (controlBlock op).offset = getOffset op := by
    rw [controlBlock_eq op inStep, getOffset_eq]
    rfl
  constructor
  · intro aligned
    have multiple := aligned.offset
    rw [offset] at multiple
    exact congruent.dvd_iff.mp multiple
  · intro base
    obtain ⟨memory, buffers, allocated⟩ := allocates th (List.mem_of_getElem? isThread)
    obtain ⟨done, buffer, writeBuffer⟩ := allocated _ tData isTarget
    have multiple := congruent.dvd_iff.mpr base
    rw [getOffset_eq] at multiple
    rw [controlBlock_eq op inStep]
    exact aligned_of_sound (power _ isMember direct) direct block done buffer writeBuffer args multiple

end Aligned

/-! ### Two threads with two slots each -/

/-- The memory of one buffer is sound. -/
theorem callocSound_single {buffer : TargetBuffer}
    (inSpace : buffer.unaligned.toNat + buffer.requested.toNat ≤ 2 ^ 64) :
    CallocSound 1 fun _ => { buffer, writeBuffer := {} } := by
  have empty : TargetBuffer.allocation {} = ∅ := rfl
  refine ⟨fun t _ which some => ?_, fun t below t' below' which which' different => ?_⟩
  · cases which with
    | read => exact inSpace
    | write => exact absurd rfl some
  · have zero : t = t' := (Nat.lt_one_iff.mp below).trans (Nat.lt_one_iff.mp below').symm
    cases which with
    | write =>
      show Disjoint (TargetBuffer.allocation {}) _
      rw [empty]
      exact Set.empty_disjoint _
    | read =>
      cases which' with
      | read => exact absurd (by rw [zero]) different
      | write =>
        show Disjoint _ (TargetBuffer.allocation {})
        rw [empty]
        exact Set.disjoint_empty _

/-- 128 KiB for the two slots of a thread. -/
def pairBuffers (k : Nat) : TargetBuffers where
  buffer := {
    unaligned := 65536 + 196608 * UInt64.ofNat k
    ptr := 65536 + 196608 * UInt64.ofNat k
    sz := 131072 }
  writeBuffer := {}

def pairMemory (k : Nat) : Memory :=
  ⟨65536 + 196608 * UInt64.ofNat k, 0⟩

/-- The buffers of the two threads are next to each other. -/
theorem pairBuffers_apart : Disjoint (pairBuffers 0).buffer.allocation (pairBuffers 1).buffer.allocation := by
  show Disjoint (Set.Ico 65536 196608) (Set.Ico 262144 393216)
  exact Set.Ico_disjoint_Ico.mpr (by decide)

theorem pairThread_sound {k : Nat} (isPair : k = 0 ∨ k = 1) :
    MemorySound (pairThread (UInt32.ofNat k)) (fun _ => pairMemory k) fun _ => pairBuffers k where
  fits tData member := by
    obtain rfl := List.mem_singleton.mp member
    show 2 * 65536 + (1 - 1) < 2 ^ 64
    decide
  allocates t tData found := by
    obtain rfl := List.mem_singleton.mp (List.mem_of_getElem? found)
    have first : pairTarget.allocate (pairMemory 0) = some (pairBuffers 0) := by decide
    have second : pairTarget.allocate (pairMemory 1) = some (pairBuffers 1) := by decide
    rcases isPair with rfl | rfl
    · exact ⟨first, rfl, rfl⟩
    · exact ⟨second, rfl, rfl⟩
  calloc := by
    rcases isPair with rfl | rfl
    · exact callocSound_single (by decide)
    · exact callocSound_single (by decide)

theorem pairThreads_sound : JobMemorySound pairThreads (fun k _ => pairMemory k)
    (fun k _ => pairBuffers k) := by
  have entry : ∀ {k : Nat} {th : ThreadParams}, pairThreads[k]? = some th →
      (k = 0 ∨ k = 1) ∧ th = pairThread (UInt32.ofNat k) := by
    intro k th isThread
    rcases k with _ | _ | k
    · exact ⟨Or.inl rfl, (Option.some.inj isThread).symm⟩
    · exact ⟨Or.inr rfl, (Option.some.inj isThread).symm⟩
    · cases isThread
  have empty : TargetBuffer.allocation {} = ∅ := rfl
  refine ⟨fun k th isThread => ?_, fun k th k' th' isThread isThread' different t _ t' _ which which' => ?_⟩
  · obtain ⟨isPair, rfl⟩ := entry isThread
    exact pairThread_sound isPair
  · cases which with
    | write =>
      show Disjoint (TargetBuffer.allocation {}) _
      rw [empty]
      exact Set.empty_disjoint _
    | read =>
      cases which' with
      | write =>
        show Disjoint _ (TargetBuffer.allocation {})
        rw [empty]
        exact Set.disjoint_empty _
      | read =>
        rcases (entry isThread).1 with rfl | rfl <;> rcases (entry isThread').1 with rfl | rfl
        · exact absurd rfl different
        · exact pairBuffers_apart
        · exact pairBuffers_apart.symm
        · exact absurd rfl different

/-- A read of the first thread and a write of the second, while both have two requests. -/
theorem pairJob_apart : ∃ s : WorkState kernelAsyncIOManager Int32,
    kernelAsyncIOManager.requests s.engine 0 = [0, 1] ∧
      kernelAsyncIOManager.requests s.engine 1 = [2, 3] ∧
      (s.request 1).2.type = .read ∧ (s.request 2).2.type = .write ∧
      KernelApart pairThreads (fun k _ => pairBuffers k) s := by
  obtain ⟨s, _, _, ⟨reached, _, _, first, second, read, write⟩, _⟩ := pairJob_works heldValue 0
  exact ⟨s, first, second, read, write, jobWork_apart pairJob_created pairThreads_sound reached⟩

/-! ### One slot with O_DIRECT -/

/-- A job on one target with one thread. -/
def slotJob (target : Target) : JobOptions where
  totalThreads := 1
  targets := [target]

def slotThread (target : Target) : ThreadParams where
  threadId := 0
  targets := [{ target := target, targetIndex := 0, fd := 3, buffer := 65536, writeBuffer := 0 }]

/-- The thread gets to its work loop over libaio, and the kernel has its operation. -/
theorem slotJob_works {target : Target} (slot : target.overlap = 1)
    (sequential : target.useRandomAlignment = false) (default : target.useInterlocked = false)
    {Engine : Type} (dist : UniformInt Engine) (rngEngine : Engine) :
    ∃ s : WorkState (slotJob target).ioManager.manager Engine,
      Reachable ((slotJob target).workSystem dist [slotThread target]) s ∧
        (s.workers 0).place = .outside .work ∧
        (slotJob target).ioManager.manager.requests s.engine 0 = [0] := by
  let first : WorkState kernelAsyncIOManager Engine := {
    interlocked := fun k => ((slotJob target).targets[k]?.map (·.interlockedOffset)).getD 0
    workers := fun _ => .initial (slotThread target) rngEngine
    engine := { ops := plainOps } }
  have isThread : [slotThread target][0]? = some (slotThread target) := rfl
  have start : Reachable ((slotJob target).workSystem dist [slotThread target]) first := by
    refine .of_init ⟨fun _ => rfl, fun k th found => ?_, ⟨plainOps, rfl⟩, rfl⟩
    obtain rfl := List.mem_singleton.mp (List.mem_of_getElem? found)
    exact ⟨rngEngine, rfl⟩
  have below : (0 : UInt32) < target.overlap := by rw [slot]; decide
  have full : ¬ 0 + 1 < target.overlap := by rw [slot]; decide
  have started := start.step (.startOffset isThread rfl rfl
    (getStartOffset_default sequential default _ _))
  have constructed := started.step (@WorkStep.construct _ _ _ _ _ _ _ 0 0 (slotThread target) 0 _ _
    1 0 0 isThread rfl rfl below (by decide) (by decide))
  have advanced := constructed.step (.advance isThread rfl rfl
    (getNextOffset_default sequential default _ _ _))
  have looped := advanced.step (.overlapDone isThread rfl rfl full)
  have done := looped.step (.targetsDone isThread rfl rfl)
  have called := done.step (.callSubmit isThread rfl)
  have accepted : IoSubmitReturns 1 1 := ⟨by decide, fun no => by cases no⟩
  have submitted := called.step (.submitReturns isThread rfl ⟨1, fun _ => false, accepted, rfl⟩)
  exact ⟨_, submitted, rfl, rfl⟩

/-- `-Sd -B512 -o1 f` -/
def directSlotCalls : List (Key × Option CString) :=
  [(.option 'S', some "d".toList), (.option 'B', some "512".toList), (.option 'o', some "1".toList),
    (.keyArg, some "f".toList)]

def directSlotTarget : Target :=
  { sectorBaseTarget with overlap := 1 }

/-- The job on a device with sectors of 512 bytes. -/
def directSlotJob : JobOptions :=
  (slotJob directSlotTarget).withSectors fun _ => 512

/-- The request of the slot is aligned. -/
theorem directSlotJob_aligned : ∃ s : WorkState directSlotJob.ioManager.manager Int32,
    directSlotJob.ioManager.manager.requests s.engine 0 = [0] ∧
      RequestAligned (slotThread directSlotTarget) (s.request 0) := by
  have slot : directSlotTarget.overlap = 1 := rfl
  obtain ⟨s, reached, _, held⟩ := slotJob_works slot rfl rfl heldValue 0
  have ok : parseCommandLine directSlotCalls (fun _ => .file 1048576) =
    .ok (slotJob directSlotTarget) := rfl
  have created : directSlotJob.createThreads (fun _ _ => ⟨3, 65536, 0⟩) =
    some [slotThread directSlotTarget] := rfl
  have isThread : [slotThread directSlotTarget][0]? = some (slotThread directSlotTarget) := rfl
  refine ⟨s, held, jobWork_aligned ok created (directThread_allocates rfl) (fun target member _ => ?_)
    (fun target member => ?_) reached isThread 0 (held ▸ List.mem_cons_self)⟩
  · obtain rfl := List.mem_singleton.mp member
    exact ⟨9, rfl⟩
  · obtain rfl := List.mem_singleton.mp member
    rfl

end DiskSpd
