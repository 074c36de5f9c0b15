/-
**The alignment of the requests to a target with `O_DIRECT`.**

* `checkSetUp_aligned` — what the check of `run_job` says: block size, stride and thread stride are
  multiples of the sector size. The base offset is not among them.
* `congruent_closed` — so in every access mode each offset of the target leaves the same remainder as
  its base offset.
* `aligned_of_sound` — the byte count and the buffer of a sound request are multiples of the sector
  size.
* `requestsAligned_iff` — for an accepted target: every request of every run is aligned exactly when
  the base offset is, or nothing is ever submitted to the target. One byte of `-B` passes the check
  (`byteJob_not_aligned`).
-/

import DiskSpd.Proof.Accounting
import DiskSpd.Proof.Buffers
import DiskSpd.Proof.Startup
import DiskSpd.Proof.ThreadOffsets
import DiskSpd.Proof.Threads

namespace DiskSpd

open Alignment IAsyncIop Transition

/-! ### The offsets -/

section Offsets

variable {target : Target}

/-- **The check of `run_job`** on a target with `O_DIRECT`. -/
theorem checkSetUp_aligned (power : PowerOfTwo target.sectorSize)
    (direct : target.openFlags.direct = true) {noThreads : UInt32}
    (checked : target.checkSetUp noThreads = .ok ()) :
    target.sectorSize.toNat ∣ target.blockSize.toNat ∧
      (target.sectorSize.toNat : Int) ∣ target.stride.toInt ∧
      (target.sectorSize.toNat : Int) ∣ target.threadOffset.toInt := by
  obtain ⟨_, aligned, _⟩ := bind_ok.mp checked
  simp only [rejectIf_ok, direct, Bool.true_and, Bool.or_eq_false_iff, bne_eq_false_iff_eq,
    mask_eq_zero_iff power, dvd_toUInt64_iff power] at aligned
  exact ⟨aligned.1.1, aligned.1.2, aligned.2⟩

/-- The offset leaves the remainder of the base offset. -/
def Target.Congruent (target : Target) (offset : Int64) : Prop :=
  offset.toInt ≡ target.baseOffset.toInt [ZMOD target.sectorSize.toNat]

/-- The strides of the target are multiples of its sector size. -/
structure Target.StridesAligned (target : Target) : Prop where
  power : PowerOfTwo target.sectorSize
  stride : (target.sectorSize.toNat : Int) ∣ target.stride.toInt
  threadOffset : (target.sectorSize.toNat : Int) ∣ target.threadOffset.toInt

variable (aligned : target.StridesAligned) (relThreadId : UInt32)

include aligned

theorem threadBase_congruent : target.Congruent (target.getThreadBaseOffset relThreadId) :=
  add_mul_modEq aligned.power target.baseOffset _ aligned.threadOffset

/-- A stride further, or back to the base offset of the thread. -/
theorem correctOverflow_congruent {curr : Int64} (congruent : target.Congruent curr) :
    target.Congruent (target.correctOverflow relThreadId (curr + target.stride)) := by
  unfold Target.correctOverflow
  split_ifs
  · exact threadBase_congruent aligned relThreadId
  · exact (add_modEq aligned.power curr aligned.stride).trans congruent

variable {Engine : Type} {dist : UniformInt Engine}

theorem randomOffset_congruent {engine next : Engine} {offset : Int64}
    (done : target.randomOffset dist engine = some (offset, next)) : target.Congruent offset := by
  unfold Target.randomOffset at done
  split_ifs at done
  cases done
  exact add_mul_modEq aligned.power target.baseOffset _ aligned.stride

/-- The shared offset of an interlocked target leaves the remainder too. -/
def Target.SharedCongruent (target : Target) (offset : Int64) : Prop :=
  target.useInterlocked = true → target.Congruent offset

variable (dist) in
/-- **Each offset of the target leaves the remainder of its base offset**, in every access mode. -/
theorem congruent_closed :
    OffsetsClosed dist target (fun _ => True) target.Congruent target.SharedCongruent :=
  .of_steps (fun _ _ _ _ draw => randomOffset_congruent aligned draw)
    (fun _ relThreadId _ => threadBase_congruent aligned relThreadId)
    fun _ relThreadId _ _ congruent => correctOverflow_congruent aligned relThreadId congruent

end Offsets

/-! ### The requests -/

/-- A request at an offset, of a length and in memory that are multiples of the sector size. -/
structure ControlBlock.Aligned (sectorSize : UInt64) (cb : ControlBlock) : Prop where
  offset : (sectorSize.toNat : Int) ∣ cb.offset.toInt
  nbytes : sectorSize.toNat ∣ cb.nbytes.toNat
  buf : sectorSize.toNat ∣ cb.buf.toNat

/-- **The length and the buffer of a sound request**, from buffers that `allocate` aligned. -/
theorem aligned_of_sound {tData : TargetData} {memory : Memory} {buffers : TargetBuffers}
    (power : PowerOfTwo tData.target.sectorSize) (direct : tData.target.openFlags.direct = true)
    (block : tData.target.sectorSize.toNat ∣ tData.target.blockSize.toNat)
    (allocated : tData.target.allocate memory = some buffers)
    (buffer : tData.buffer = buffers.buffer.ptr)
    (writeBuffer : tData.writeBuffer = buffers.writeBuffer.ptr) {args : IopArgs}
    (sound : ArgsSound tData args)
    (offset : (tData.target.sectorSize.toNat : Int) ∣ args.offset.toInt) :
    args.controlBlock.Aligned tData.target.sectorSize := by
  obtain ⟨isBuffer, isWrite, _⟩ := allocate_some allocated
  have sector : tData.target.bufferAlign = tData.target.sectorSize := by
    unfold Target.bufferAlign
    rw [direct, if_pos rfl]
  rw [sector] at isBuffer isWrite
  obtain ⟨i, _, slot⟩ := sound.readBuf
  have read : tData.target.sectorSize.toNat ∣ args.readBuf.toNat := by
    rw [slot, buffer]
    exact dvd_toNat_add power (calloc_dvd isBuffer) (dvd_toNat_mul power _ block)
  have write : tData.target.sectorSize.toNat ∣ args.writeBuf.toNat := by
    rw [sound.writeBuf]
    split_ifs with separate
    · rw [writeBuffer]
      exact calloc_dvd (isWrite separate)
    · exact read
  refine ⟨offset, ?_, ?_⟩
  · show _ ∣ args.nbytes.toNat
    rwa [sound.nbytes]
  · show _ ∣ (args.type.buffer args.readBuf args.writeBuf).toNat
    cases args.type with
    | read => exact read
    | write => exact write

section Issued

variable {Op Engine : Type} [IAsyncIop Op] [LawfulIop Op] {dist : UniformInt Engine}
  {th : ThreadParams} {s s' : ThreadState Op Engine}

/-- What is queued, in flight or has been was issued. -/
structure IssuedInv (s : ThreadState Op Engine) : Prop where
  queued : s.opQueue ⊆ s.issued
  submitted : s.submitted.map (·.toIssue) ⊆ s.issued

omit [LawfulIop Op] in
theorem IssuedInv.afterSubmit (inv : IssuedInv s) (err : Int32) : IssuedInv (s.afterSubmit err) := by
  unfold ThreadState.afterSubmit
  split_ifs
  · refine ⟨List.nil_subset _, ?_⟩
    show (s.submitted ++ s.flights).map _ ⊆ _
    rw [List.map_append]
    refine List.append_subset.mpr ⟨inv.submitted, fun issue member => ?_⟩
    obtain ⟨flight, isFlight, rfl⟩ := List.mem_map.mp member
    exact inv.queued (ThreadState.mem_flights isFlight).1
  · exact ⟨inv.queued, inv.submitted⟩

omit [IAsyncIop Op] [LawfulIop Op] in
/-- An issue joins the queue and the history together. -/
theorem IssuedInv.enqueue (inv : IssuedInv s) (issue : Issue) : IssuedInv (s.enqueue issue) where
  queued := List.append_subset.mpr ⟨List.Subset.trans inv.queued (List.subset_append_left _ _),
    List.subset_append_right _ _⟩
  submitted := List.Subset.trans inv.submitted (List.subset_append_left _ _)

omit [LawfulIop Op] in
theorem issuedInv_step {interlocked interlocked' : Interlocked} (inv : IssuedInv s)
    (step : Step dist th interlocked s interlocked' s') : IssuedInv s' := by
  cases step with
  | construct =>
    obtain ⟨queued, submitted⟩ := inv.enqueue _
    exact ⟨queued, submitted⟩
  | submit => exact inv.afterSubmit _
  | complete _ _ _ _ _ _ _ _ _ done =>
    obtain ⟨bytes, results, records, rfl⟩ := ThreadState.record_frame done
    refine IssuedInv.afterSubmit ?_ _
    obtain ⟨queued, submitted⟩ := inv.enqueue _
    exact ⟨queued, submitted⟩
  | _ => exact ⟨inv.queued, inv.submitted⟩

end Issued

/-! ### All runs of a job -/

/-- **The requests to a target are aligned**: in every run of the threads of the job, each request to
the target that the kernel got, and each one that the queued operations stand for. -/
def RequestsAligned (job : JobOptions) (params : List ThreadParams) (k : Nat) (target : Target) :
    Prop :=
  ∀ (Engine : Type) (dist : UniformInt Engine) (state : JobState job.ioManager.Op Engine),
    Reachable (job.system dist params) state →
    ∀ (n : Nat) (th : ThreadParams), params[n]? = some th →
      ∀ flight ∈ (state.threads n).submitted ++ (state.threads n).flights,
        ∀ tData, th.targets[flight.target]? = some tData → tData.targetIndex = k →
          flight.cb.Aligned target.sectorSize

section Run

variable {job : JobOptions} {opened : UInt32 → Nat → JobOptions.Opened}
  {params : List ThreadParams} {k : Nat} {target : Target}

/-- A request of a thread was issued and is sound. -/
theorem request_issued {Engine : Type} {dist : UniformInt Engine}
    {state : JobState job.ioManager.Op Engine} (reached : Reachable (job.system dist params) state)
    {n : Nat} {th : ThreadParams} (isThread : params[n]? = some th) {flight : Flight}
    (member : flight ∈ (state.threads n).submitted ++ (state.threads n).flights) :
    flight.toIssue ∈ (state.threads n).issued ∧ FlightSound th flight := by
  have inv : IssuedInv (state.threads n) := jobSystem_thread IssuedInv isThread
    (fun _ => ⟨List.Subset.refl _, List.Subset.refl _⟩)
    (fun _ _ _ _ before step => issuedInv_step before step) reached
  rcases List.mem_append.mp member with old | queued
  · exact ⟨inv.submitted (List.mem_map_of_mem old),
      (accountInv_reachable reached isThread).requests flight old⟩
  · exact ⟨inv.queued (ThreadState.mem_flights queued).1,
      (linked_reachable reached isThread).flights_sound flight queued⟩

theorem servesUnder_any (created : job.createThreads opened = some params)
    (found : job.targets[k]? = some target) :
    ∀ th ∈ params, th.ServesUnder k target fun _ => True :=
  fun th isThread _ member index =>
    ⟨(serves_target (createThreads_serves created th isThread) found member index).1, trivial⟩

/-- The offsets of a target with aligned strides leave the remainder of its base offset. -/
theorem issued_congruent (created : job.createThreads opened = some params)
    (found : job.targets[k]? = some target) (accepted : target.Accepted)
    (aligned : target.StridesAligned) {Engine : Type} {dist : UniformInt Engine}
    {state : JobState job.ioManager.Op Engine} (reached : Reachable (job.system dist params) state)
    {n : Nat} {th : ThreadParams} (isThread : params[n]? = some th) {issue : Issue}
    (member : issue ∈ (state.threads n).issued) {tData : TargetData}
    (isTarget : th.targets[issue.target]? = some tData) (index : tData.targetIndex = k) :
    target.Congruent issue.offset := by
  have serves := servesUnder_any created found
  refine (((congruent_closed aligned dist).reachable serves ?_ reached).2 n th
    isThread).issued issue member tData isTarget index
  rw [found, Option.map_some, Option.getD_some]
  intro interlocked
  rw [accepted.interlockedOffset interlocked]
  exact Int.ModEq.refl _

/-- **An aligned base offset aligns every request.** -/
theorem requestsAligned_of_base (created : job.createThreads opened = some params)
    (found : job.targets[k]? = some target) (accepted : target.Accepted)
    (direct : target.openFlags.direct = true) (power : PowerOfTwo target.sectorSize)
    (checked : target.checkSetUp (job.noThreads target) = .ok ())
    (allocates : ∀ th ∈ params, ∃ memory buffers, th.Allocates memory buffers)
    (base : (target.sectorSize.toNat : Int) ∣ target.baseOffset.toInt) :
    RequestsAligned job params k target := by
  obtain ⟨block, stride, threadOffset⟩ := checkSetUp_aligned power direct checked
  intro Engine dist state reached n th isThread flight member tData isTarget index
  obtain ⟨issued, tData', args, isTarget', sound, offset, request⟩ :=
    request_issued reached isThread member
  rw [isTarget, Option.some.injEq] at isTarget'
  subst isTarget'
  have congruent := issued_congruent created found accepted ⟨power, stride, threadOffset⟩ reached
    isThread issued isTarget index
  obtain ⟨memory, buffers, allocated⟩ := allocates th (List.mem_of_getElem? isThread)
  obtain ⟨done, buffer, writeBuffer⟩ := allocated _ tData isTarget
  have same := (serves_target (createThreads_serves created th (List.mem_of_getElem? isThread))
    found (List.mem_of_getElem? isTarget) index).1
  rw [request]
  rw [← same] at power direct block congruent base ⊢
  refine aligned_of_sound power direct block done buffer writeBuffer sound ?_
  rw [offset]
  exact congruent.dvd_iff.mpr base

/-- A target that no thread works on. -/
theorem requestsAligned_of_noThreads (created : job.createThreads opened = some params)
    (found : job.targets[k]? = some target) (none : job.noThreads target = 0) :
    RequestsAligned job params k target := by
  intro Engine dist state reached n th isThread flight member tData isTarget index
  have below := (serves_target (createThreads_serves created th (List.mem_of_getElem? isThread))
    found (List.mem_of_getElem? isTarget) index).2
  rw [none] at below
  exact absurd below (Nat.not_lt_zero _)

/-- The offset functions of a target divide by 0 before anything is issued to it. -/
theorem requestsAligned_of_divides (created : job.createThreads opened = some params)
    (found : job.targets[k]? = some target) (random : target.useRandomAlignment = true)
    (zero : target.stride = 0) : RequestsAligned job params k target := by
  intro Engine dist state reached n th isThread flight member tData isTarget index
  have closed : OffsetsClosed dist target (fun _ => True) (fun _ => False) (fun _ => True) := by
    refine ⟨fun _ _ _ _ _ _ call => ?_, fun _ _ _ _ _ _ _ call => ?_⟩
    · unfold Target.getStartOffset Target.randomOffset at call
      rw [random, if_pos rfl, if_pos zero] at call
      cases call
    · unfold Target.getNextOffset Target.randomOffset at call
      rw [random, if_pos rfl, if_pos zero] at call
      cases call
  have serves := servesUnder_any created found
  have issued := (request_issued reached isThread member).1
  exact (((closed.reachable serves trivial reached).2 n th isThread).issued _ issued tData isTarget
    index).elim

/-- **A request of each target a thread gets to**: its offset leaves the remainder of the base
offset, so that is aligned if the request is. -/
theorem base_of_requestsAligned (created : job.createThreads opened = some params)
    (found : job.targets[k]? = some target) (accepted : target.Accepted)
    (direct : target.openFlags.direct = true) (power : PowerOfTwo target.sectorSize)
    (checked : target.checkSetUp (job.noThreads target) = .ok ())
    (working : job.noThreads target ≠ 0) (can : ∀ target ∈ job.targets, target.CanIssue)
    (aligned : RequestsAligned job params k target) :
    (target.sectorSize.toNat : Int) ∣ target.baseOffset.toInt := by
  obtain ⟨_, stride, threadOffset⟩ := checkSetUp_aligned power direct checked
  have positive : (0 : UInt32).toNat < (job.noThreads target).toNat :=
    Nat.pos_of_ne_zero fun zero => working (UInt32.toNat_inj.mp zero)
  obtain ⟨n, th, t, tData, isThread, _, isT, same, index⟩ :=
    createThreads_covers created found positive
  have serves := createThreads_serves created th (List.mem_of_getElem? isThread)
  let dist : UniformInt Unit := fun a _ engine => (a, engine)
  obtain ⟨state, before, new, after, reached, _, _, flights, _, isNew, _, count, _⟩ :=
    reach_work job.ioManager.Op dist
      (fun tData member => can _ (List.mem_of_getElem? (serves tData member).1)) job.targets isThread
      () isT
  obtain ⟨issue, first⟩ : ∃ issue, issue ∈ new := List.exists_mem_of_length_pos (by
    rw [count, same]
    exact accepted.overlap)
  have inFlight : issue ∈ (state.threads n).inFlight.map (·.toIssue) := by
    rw [flights]
    exact List.mem_append_left _ (List.mem_append_right _ first)
  obtain ⟨flight, isFlight, rfl⟩ := List.mem_map.mp inFlight
  have submitted : flight ∈ (state.threads n).submitted :=
    (accountInv_reachable reached isThread).once.subset (List.mem_append_right _ isFlight)
  have member := List.mem_append_left (state.threads n).flights submitted
  obtain ⟨issued, tData', args, _, _, offset, request⟩ := request_issued reached isThread member
  have isTarget : th.targets[flight.target]? = some tData := by rw [isNew _ first, isT]
  have congruent := issued_congruent created found accepted ⟨power, stride, threadOffset⟩ reached
    isThread issued isTarget index
  have multiple := (aligned Unit dist state reached n th isThread flight member tData isTarget
    index).offset
  rw [request] at multiple
  refine congruent.dvd_iff.mp ?_
  rw [← offset]
  exact multiple

end Run

section Accepted

variable {calls : List (Key × Option CString)} {stat : CString → Stat} {job : JobOptions}
  {opened : UInt32 → Nat → JobOptions.Opened} {params : List ThreadParams} {k : Nat}
  {target : Target} {sectors : Nat → UInt64}

/-- The targets stay accepted, with the same options, on devices of any sector sizes. -/
theorem withSectors_targets (ok : parseCommandLine calls stat = .ok job) :
    ∃ dummy, ∀ target ∈ (job.withSectors sectors).targets,
      target.Accepted ∧ target.SameOptions dummy := by
  obtain ⟨dummy, each⟩ := parseCommandLine_targets ok
  refine ⟨dummy, fun target member => ?_⟩
  obtain ⟨k, below, rfl⟩ := List.mem_mapIdx.mp member
  obtain ⟨accepted, same⟩ := each _ (List.getElem_mem below)
  exact ⟨{ accepted with }, { same with }⟩

/-- **The requests to a target are aligned exactly when its base offset is, or nothing is submitted
to it**: no thread works on it, or `random_offset` divides by 0. -/
theorem requestsAligned_iff (ok : parseCommandLine calls stat = .ok job)
    (created : (job.withSectors sectors).createThreads opened = some params)
    (allocates : ∀ th ∈ params, ∃ memory buffers, th.Allocates memory buffers)
    (found : (job.withSectors sectors).targets[k]? = some target)
    (direct : target.openFlags.direct = true) (power : PowerOfTwo target.sectorSize)
    (checked : target.checkSetUp ((job.withSectors sectors).noThreads target) = .ok ()) :
    RequestsAligned (job.withSectors sectors) params k target ↔
      (target.sectorSize.toNat : Int) ∣ target.baseOffset.toInt ∨
        (job.withSectors sectors).noThreads target = 0 ∨
        target.useRandomAlignment = true ∧ target.stride = 0 := by
  obtain ⟨dummy, each⟩ : ∃ dummy, ∀ target ∈ (job.withSectors sectors).targets,
      target.Accepted ∧ target.SameOptions dummy := withSectors_targets ok
  obtain ⟨accepted, same⟩ := each target (List.mem_of_getElem? found)
  constructor
  · intro aligned
    by_cases none : (job.withSectors sectors).noThreads target = 0
    · exact Or.inr (Or.inl none)
    by_cases divides : target.useRandomAlignment = true ∧ target.stride = 0
    · exact Or.inr (Or.inr divides)
    refine Or.inl (base_of_requestsAligned created found accepted direct power checked none ?_ aligned)
    intro other member random zero
    have otherSame := (each other member).2
    rw [otherSame.useRandomAlignment, ← same.useRandomAlignment] at random
    rw [otherSame.stride, ← same.stride] at zero
    exact divides ⟨random, zero⟩
  · rintro (base | none | ⟨random, zero⟩)
    · exact requestsAligned_of_base created found accepted direct power checked allocates base
    · exact requestsAligned_of_noThreads created found none
    · exact requestsAligned_of_divides created found random zero

end Accepted

/-! ### Two command lines -/

/-- `-Sd -B1 f` -/
def byteCalls : List (Key × Option CString) :=
  [(.option 'S', some "d".toList), (.option 'B', some "1".toList), (.keyArg, some "f".toList)]

def byteTarget : Target where
  path := "f".toList
  size := 1048576
  maxSize := 1048576
  baseOffset := 1
  openFlags := { direct := true }

def byteJob : JobOptions where
  totalThreads := 1
  targets := [byteTarget]

/-- The thread of a job with one target, after it has allocated its buffer at 64 KiB. -/
def directThread (target : Target) : ThreadParams where
  threadId := 0
  targets := [{ target := target, targetIndex := 0, fd := 3, buffer := 65536, writeBuffer := 0 }]

theorem directThread_allocates {target : Target}
    (allocates : (target.allocate ⟨65536, 0⟩).map (fun buffers =>
      (buffers.buffer.ptr, buffers.writeBuffer.ptr)) = some (65536, 0)) :
    ∀ th ∈ [directThread target], ∃ memory buffers, th.Allocates memory buffers := by
  intro th member
  obtain rfl := List.mem_singleton.mp member
  obtain ⟨buffers, done, same⟩ := Option.map_eq_some_iff.mp allocates
  obtain ⟨buffer, writeBuffer⟩ := Prod.mk.inj same
  refine ⟨fun _ => ⟨65536, 0⟩, fun _ => buffers, fun t tData isTarget => ?_⟩
  obtain rfl := List.mem_singleton.mp (List.mem_of_getElem? isTarget)
  exact ⟨done, buffer.symm, writeBuffer.symm⟩

/-- On a file of 1 MiB with sectors of 512 bytes the checks pass, and the first request is at
offset 1. -/
theorem byteJob_not_aligned :
    parseCommandLine byteCalls (fun _ => .file 1048576) = .ok byteJob ∧
      byteTarget.checkSetUp (byteJob.noThreads byteTarget) = .ok () ∧
      (byteJob.withSectors fun _ => 512).createThreads (fun _ _ => ⟨3, 65536, 0⟩) =
        some [directThread byteTarget] ∧
      (∀ th ∈ [directThread byteTarget], ∃ memory buffers, th.Allocates memory buffers) ∧
      ¬ RequestsAligned (byteJob.withSectors fun _ => 512) [directThread byteTarget] 0
        byteTarget := by
  have ok : parseCommandLine byteCalls (fun _ => .file 1048576) = .ok byteJob := rfl
  have created : (byteJob.withSectors fun _ => 512).createThreads (fun _ _ => ⟨3, 65536, 0⟩) =
    some [directThread byteTarget] := rfl
  refine ⟨ok, rfl, created, directThread_allocates rfl, fun aligned => ?_⟩
  have accepted := parseCommandLine_accepted ok byteTarget (List.mem_singleton.mpr rfl)
  have base := base_of_requestsAligned created rfl accepted rfl ⟨9, rfl⟩ rfl (by decide)
    (fun target member random => ?_) aligned
  · exact absurd base (by decide)
  · obtain rfl := List.mem_singleton.mp member
    cases random

/-- `-Sd -B512 f` -/
def sectorBaseCalls : List (Key × Option CString) :=
  [(.option 'S', some "d".toList), (.option 'B', some "512".toList), (.keyArg, some "f".toList)]

def sectorBaseTarget : Target :=
  { byteTarget with baseOffset := 512 }

def sectorBaseJob : JobOptions :=
  { byteJob with targets := [sectorBaseTarget] }

theorem sectorBaseJob_aligned :
    parseCommandLine sectorBaseCalls (fun _ => .file 1048576) = .ok sectorBaseJob ∧
      RequestsAligned (sectorBaseJob.withSectors fun _ => 512) [directThread sectorBaseTarget] 0
        sectorBaseTarget := by
  have ok : parseCommandLine sectorBaseCalls (fun _ => .file 1048576) = .ok sectorBaseJob := rfl
  have created : (sectorBaseJob.withSectors fun _ => 512).createThreads
    (fun _ _ => ⟨3, 65536, 0⟩) = some [directThread sectorBaseTarget] := rfl
  have found : (sectorBaseJob.withSectors fun _ => 512).targets[0]? = some sectorBaseTarget := rfl
  have checked : sectorBaseTarget.checkSetUp
    ((sectorBaseJob.withSectors fun _ => 512).noThreads sectorBaseTarget) = .ok () := rfl
  exact ⟨ok, (requestsAligned_iff ok created (directThread_allocates rfl) found rfl ⟨9, rfl⟩
    checked).mpr (Or.inl (by decide))⟩

end DiskSpd
