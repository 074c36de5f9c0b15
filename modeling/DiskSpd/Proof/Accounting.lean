/-
**What the results of a thread count.**

* `Tallies` — results that hold a number of reads and a number of writes of one block size, modulo
  2^64. Recording a completion adds one to its kind (`tallies_record`).
* `AccountInv` — the invariant of a thread: its results on each target hold the numbers of its recorded
  flights for that target, by the direction of the control block the kernel got; flights that are
  recorded or in flight are different ones the kernel got; and each of these is a sound request.
* `accounted_reachable` — what follows for the counters, in every state of every run of a job.
-/

import DiskSpd.Proof.Latency
import Mathlib.Data.List.Perm.Subperm

namespace DiskSpd

open IAsyncIop LawfulIop Transition

/-! ### The counters of one target -/

/-- The results hold a number of reads and of writes of one block each. -/
structure Tallies (blockSize : UInt64) (reads writes : Nat) (results : TargetResults) : Prop where
  readIops : results.readIopsCount = UInt64.ofNat reads
  writeIops : results.writeIopsCount = UInt64.ofNat writes
  iops : results.iopsCount = UInt64.ofNat (reads + writes)
  readBytes : results.readBytesCount = blockSize * UInt64.ofNat reads
  writeBytes : results.writeBytesCount = blockSize * UInt64.ofNat writes
  bytes : results.bytesCount = blockSize * UInt64.ofNat (reads + writes)

section Tallies

variable {blockSize : UInt64} {reads writes : Nat} {results updated : TargetResults}

theorem tallies_zero (readBucketizer writeBucketizer : IoBucketizer) :
    Tallies blockSize 0 0
      { readBucketizer := readBucketizer, writeBucketizer := writeBucketizer } := by
  have zero : blockSize * UInt64.ofNat 0 = 0 := UInt64.mul_zero
  exact ⟨rfl, rfl, rfl, zero.symm, zero.symm, zero.symm⟩

/-- One more block in a counter. -/
theorem count_succ (n : Nat) : UInt64.ofNat (n + 1) = UInt64.ofNat n + 1 :=
  UInt64.ofNat_add n 1

theorem bytes_succ (n : Nat) :
    blockSize * UInt64.ofNat (n + 1) = blockSize * UInt64.ofNat n + blockSize := by
  rw [count_succ, UInt64.mul_add, UInt64.mul_one]

/-- **A recorded completion of a block counts once**, as a read or as a write. -/
theorem tallies_record (tallies : Tallies blockSize reads writes results) {measure : Measure}
    {completion : Completion} (size : completion.bytes = blockSize)
    (done : results.record measure completion = some updated) :
    Tallies blockSize (reads + if completion.type = .read then 1 else 0)
      (writes + if completion.type = .write then 1 else 0) updated := by
  obtain ⟨readIops, writeIops, iops, readBytes, writeBytes, bytes⟩ := tallies
  unfold TargetResults.record at done
  cases kind : completion.type with
  | read =>
    rw [kind] at done
    obtain ⟨bucketizer, _, done⟩ := Option.bind_eq_some_iff.mp done
    cases done
    rw [if_pos rfl, if_neg (by decide), Nat.add_zero writes]
    constructor <;> dsimp only
    · rw [readIops, count_succ]
    · exact writeIops
    · rw [iops, Nat.add_right_comm reads 1, count_succ]
    · rw [readBytes, size, bytes_succ]
    · exact writeBytes
    · rw [bytes, size, Nat.add_right_comm reads 1, bytes_succ]
  | write =>
    rw [kind] at done
    obtain ⟨bucketizer, _, done⟩ := Option.bind_eq_some_iff.mp done
    cases done
    rw [if_neg (by decide), if_pos rfl, Nat.add_zero reads]
    constructor <;> dsimp only
    · exact readIops
    · rw [writeIops, count_succ]
    · rw [iops, ← Nat.add_assoc, count_succ]
    · exact readBytes
    · rw [writeBytes, size, bytes_succ]
    · rw [bytes, size, ← Nat.add_assoc, bytes_succ]

end Tallies

/-! ### The counters of a thread -/

section Account

variable {Op Engine : Type}

/-- The number of recorded flights to a target whose control block had a direction. -/
def ThreadState.recordedAs (s : ThreadState Op Engine) (t : Nat) (type : IopType) : Nat :=
  s.recorded.countP fun r => r.flight.target = t ∧ r.flight.cb.type = type

/-- One more recorded flight. -/
theorem recordedAs_append {s s' : ThreadState Op Engine} {flight : Flight} {completion : Completion}
    (grows : s'.recorded = s.recorded ++ [⟨flight, completion⟩]) {t : Nat} {type : IopType} :
    s'.recordedAs t type = s.recordedAs t type +
      if flight.target = t ∧ flight.cb.type = type then 1 else 0 := by
  unfold ThreadState.recordedAs
  rw [grows, List.countP_append, List.countP_singleton]
  simp only [decide_eq_true_eq]

/-- **The invariant of the results of a thread.** -/
structure AccountInv (th : ThreadParams) (s : ThreadState Op Engine) : Prop where
  results : ∀ (t : Nat) (tData : TargetData), th.targets[t]? = some tData →
    ∃ results, s.results[t]? = some results ∧
      Tallies tData.target.blockSize (s.recordedAs t .read) (s.recordedAs t .write) results
  once : (s.recorded.map (·.flight) ++ s.inFlight).Subperm s.submitted
  requests : ∀ flight ∈ s.submitted, FlightSound th flight

variable {th : ThreadParams} {s s' : ThreadState Op Engine}

theorem accountInv_initial (rngEngine : Engine) :
    AccountInv th (.initial th rngEngine : ThreadState Op Engine) where
  results t tData found := by
    refine ⟨_, ?_, tallies_zero th.bucketizer th.bucketizer⟩
    show (th.targets.map _)[t]? = _
    rw [List.getElem?_map, found, Option.map_some]
  once := List.Subperm.refl _
  requests _ member := by cases member

/-- Only results and flights matter. -/
theorem AccountInv.of_same (inv : AccountInv th s) (results : s'.results = s.results)
    (recorded : s'.recorded = s.recorded) (inFlight : s'.inFlight = s.inFlight)
    (submitted : s'.submitted = s.submitted) : AccountInv th s' := by
  obtain ⟨tallies, once, requests⟩ := inv
  constructor
  · unfold ThreadState.recordedAs at *
    rwa [results, recorded]
  · rwa [recorded, inFlight, submitted]
  · rwa [submitted]

/-- A completed flight is not in flight any more. -/
theorem AccountInv.wait (inv : AccountInv th s) {before after : List Flight} {flight : Flight}
    (inFlight : s.inFlight = before ++ flight :: after) :
    AccountInv th { s with inFlight := before ++ after } := by
  refine ⟨inv.results, List.Subperm.trans ?_ inv.once, inv.requests⟩
  rw [inFlight]
  exact (List.subperm_append_left _).mpr
    ((List.sublist_cons_self flight after).append_left before).subperm

section Step

variable [IAsyncIop Op] [LawfulIop Op]

/-- **What `submit` hands to the kernel** are sound requests. -/
theorem Linked.flights_sound (linked : Linked th s) : ∀ flight ∈ s.flights, FlightSound th flight := by
  intro flight member
  obtain ⟨queued, isBlock⟩ := ThreadState.mem_flights member
  obtain ⟨op, isOp, target, offset, _⟩ := linked.carries flight.toIssue
    (List.mem_append_left _ queued)
  obtain ⟨inStep, tData, found, args⟩ := linked.sound op (List.mem_of_getElem? isOp)
  rw [isOp, Option.map_some, Option.some.injEq, controlBlock_eq op inStep] at isBlock
  exact ⟨tData, view op, target ▸ found, args, offset, isBlock.symm⟩

theorem AccountInv.afterSubmit (inv : AccountInv th s) (linked : Linked th s) (err : Int32) :
    AccountInv th (s.afterSubmit err) := by
  unfold ThreadState.afterSubmit
  split_ifs
  · refine ⟨inv.results, ?_, fun flight member => ?_⟩
    · show (s.recorded.map _ ++ (s.inFlight ++ s.flights)).Subperm (s.submitted ++ s.flights)
      rw [← List.append_assoc]
      exact (List.subperm_append_right _).mpr inv.once
    · rcases List.mem_append.mp member with old | new
      · exact inv.requests flight old
      · exact linked.flights_sound flight new
  · exact inv.of_same rfl rfl rfl rfl

/-- The type that recording reads is the direction of the request. -/
theorem Linked.flight_type (linked : Linked th s) {before after : List Flight} {flight : Flight}
    (inFlight : s.inFlight = before ++ flight :: after) {op : Op}
    (hasOp : s.ops[flight.op]? = some op) : getType op = flight.cb.type := by
  have isBlock := (linked.flight_carries inFlight).2
  rw [hasOp, Option.map_some, Option.some.injEq,
    controlBlock_eq op (linked.sound op (List.mem_of_getElem? hasOp)).1] at isBlock
  rw [← isBlock, getType_eq]
  rfl

/-- **The recording of a completed flight.** -/
theorem AccountInv.record (inv : AccountInv th s) (linked : Linked th s)
    {before after : List Flight} {flight : Flight}
    (inFlight : s.inFlight = before ++ flight :: after) {op : Op}
    (hasOp : s.ops[flight.op]? = some op) {tData : TargetData}
    (found : th.targets[getTargetData op]? = some tData) {round : Round}
    (size : round.ret.toInt64.toUInt64 = tData.target.blockSize) {recorded : ThreadState Op Engine}
    (done : ThreadState.record th { s with inFlight := before ++ after } flight op tData round =
      some recorded) : AccountInv th recorded := by
  rcases ThreadState.record_cases done with ⟨_, rfl⟩ | ⟨_, results, updated, isResults, isUpdated, same⟩
  · exact inv.wait inFlight
  · have target := (linked.flight_op inFlight hasOp).1
    have type := linked.flight_type inFlight hasOp
    have grows : recorded.recorded = s.recorded ++ [⟨flight, ThreadState.completion op round⟩] := by
      rw [same]
    have results' : recorded.results = s.results.set (getTargetData op) updated := by rw [same]
    refine ⟨fun t tData' found' => ?_, ?_, by rw [same]; exact inv.requests⟩
    · by_cases here : getTargetData op = t
      · subst here
        rw [found, Option.some.injEq] at found'
        subst found'
        obtain ⟨before', isBefore, tallies⟩ := inv.results _ tData found
        rw [isResults, Option.some.injEq] at isBefore
        subst isBefore
        have place := (List.getElem?_eq_some_iff.mp isResults).1
        refine ⟨updated, by rw [results', List.getElem?_set_self place], ?_⟩
        have bytes : (ThreadState.completion op round).bytes = tData.target.blockSize := size
        have counted := tallies_record tallies bytes isUpdated
        rw [show (ThreadState.completion op round).type = flight.cb.type from type] at counted
        simpa only [recordedAs_append grows, target, true_and] using counted
      · obtain ⟨before', isBefore, tallies⟩ := inv.results t tData' found'
        refine ⟨before', by rw [results', List.getElem?_set_ne here, isBefore], ?_⟩
        have other : ∀ type, ¬ (flight.target = t ∧ flight.cb.type = type) := fun type same =>
          here (target.trans same.1)
        rw [recordedAs_append grows, recordedAs_append grows, if_neg (other _), if_neg (other _)]
        exact tallies
    · rw [same]
      refine List.Subperm.trans (List.Perm.subperm ?_) inv.once
      rw [inFlight, List.map_append, List.map_singleton, List.append_assoc, List.singleton_append]
      exact (List.perm_append_left_iff _).mpr List.perm_middle.symm

theorem accountInv_step {dist : UniformInt Engine} {interlocked interlocked' : Interlocked}
    (linked : Linked th s) (inv : AccountInv th s)
    (step : Step dist th interlocked s interlocked' s') : AccountInv th s' := by
  cases step with
  | startOffset => exact inv.of_same rfl rfl rfl rfl
  | targetsDone => exact inv.of_same rfl rfl rfl rfl
  | construct => exact inv.of_same rfl rfl rfl rfl
  | overlapDone => exact inv.of_same rfl rfl rfl rfl
  | advance => exact inv.of_same rfl rfl rfl rfl
  | submit => exact inv.afterSubmit linked _
  | leave => exact inv.of_same rfl rfl rfl rfl
  | throttle => exact inv
  | waitLast _ _ inFlight => exact (inv.wait inFlight).of_same rfl rfl rfl rfl
  | fail _ _ inFlight => exact (inv.wait inFlight).of_same rfl rfl rfl rfl
  | complete _ _ inFlight hasOp found _ size low high done =>
    refine AccountInv.afterSubmit ?_ (linked.complete inFlight hasOp found low high done _) _
    exact (inv.record linked inFlight hasOp found size done).of_same rfl rfl rfl rfl

end Step

end Account

/-! ### All runs of a job -/

/-- The counters of the results on a target agree with each other, modulo 2^64. -/
structure CountersAgree (blockSize : UInt64) (results : TargetResults) : Prop where
  bytes : results.bytesCount = results.readBytesCount + results.writeBytesCount
  iops : results.iopsCount = results.readIopsCount + results.writeIopsCount
  blocks : results.bytesCount = blockSize * results.iopsCount
  readBlocks : results.readBytesCount = blockSize * results.readIopsCount
  writeBlocks : results.writeBytesCount = blockSize * results.writeIopsCount

theorem Tallies.agree {blockSize : UInt64} {reads writes : Nat} {results : TargetResults}
    (tallies : Tallies blockSize reads writes results) : CountersAgree blockSize results := by
  obtain ⟨readIops, writeIops, iops, readBytes, writeBytes, bytes⟩ := tallies
  constructor
  · rw [bytes, readBytes, writeBytes, UInt64.ofNat_add, UInt64.mul_add]
  · rw [iops, readIops, writeIops, UInt64.ofNat_add]
  · rw [bytes, iops]
  · rw [readBytes, readIops]
  · rw [writeBytes, writeIops]

/-- **The accounts of a thread**: the counters agree; each recorded flight is counted once, on its
target and as what the kernel was asked for; and the kernel was asked for sound requests, in no
direction that the write percentage excludes. -/
structure Accounted {Op Engine : Type} (th : ThreadParams) (s : ThreadState Op Engine) : Prop where
  counters : ∀ (t : Nat) (tData : TargetData), th.targets[t]? = some tData →
    ∃ results, s.results[t]? = some results ∧ CountersAgree tData.target.blockSize results ∧
      results.readIopsCount = UInt64.ofNat (s.recordedAs t .read) ∧
      results.writeIopsCount = UInt64.ofNat (s.recordedAs t .write)
  once : (s.recorded.map (·.flight) ++ s.inFlight).Subperm s.submitted
  requests : ∀ flight ∈ s.submitted, FlightSound th flight
  directions : ∀ flight ∈ s.submitted, ∀ tData, th.targets[flight.target]? = some tData →
    (tData.target.writePercentage = 0 → flight.cb.type = .read) ∧
      (tData.target.writePercentage = 100 → flight.cb.type = .write)

theorem AccountInv.accounted {Op Engine : Type} {th : ThreadParams} {s : ThreadState Op Engine}
    (inv : AccountInv th s) : Accounted th s where
  counters t tData found := by
    obtain ⟨results, isResults, tallies⟩ := inv.results t tData found
    exact ⟨results, isResults, tallies.agree, tallies.readIops, tallies.writeIops⟩
  once := inv.once
  requests := inv.requests
  directions flight member tData found := by
    obtain ⟨tData', args, found', sound, _, isBlock⟩ := inv.requests flight member
    rw [found, Option.some.injEq] at found'
    subst found'
    rw [isBlock]
    exact sound.direction

theorem accountInv_reachable {Op Engine : Type} [IAsyncIop Op] [LawfulIop Op]
    {dist : UniformInt Engine} {targets : List Target} {params : List ThreadParams}
    {state : JobState Op Engine} (reached : Reachable (jobSystem Op dist targets params) state)
    {n : Nat} {th : ThreadParams} (isThread : params[n]? = some th) :
    AccountInv th (state.threads n) := by
  refine (jobSystem_thread (fun s => Linked th s ∧ AccountInv th s) isThread ?_ ?_ reached).2
  · exact fun rngEngine => ⟨linked_initial rngEngine, accountInv_initial rngEngine⟩
  · exact fun _ _ _ _ before step =>
      ⟨linked_step before.1 step, accountInv_step before.1 before.2 step⟩

/-- **Accounting and direction**, for the operations of either engine after any setters, and for every
thread in every state of every run. -/
theorem accounted_reachable (job : JobOptions) (params : List ThreadParams) :
    (∀ (uninit : UInt64) (args : IopArgs) (setters : List Setter) (op : job.ioManager.Op),
      op = setters.foldl Setter.apply (construct uninit args) →
        (controlBlock op).type = getType op ∧
          (controlBlock op).buf = (getType op).buffer args.readBuf args.writeBuf) ∧
      ∀ (Engine : Type) (dist : UniformInt Engine) (state : JobState job.ioManager.Op Engine),
        Reachable (job.system dist params) state → ∀ (n : Nat) (th : ThreadParams),
          params[n]? = some th → Accounted th (state.threads n) := by
  constructor
  · rintro uninit args setters op rfl
    exact request_setters uninit args setters
  · intro Engine dist state reached n th isThread
    exact (accountInv_reachable reached isThread).accounted

/-- The run of one flight, which counts it as a read. -/
theorem latencyJob_accounted :
    ∃ (state : JobState latencyJob.ioManager.Op Unit), Reachable (latencyJob.system
        (fun a _ engine => (a, engine)) [latencyThread]) state ∧
      (state.threads 0).recorded.length = 1 ∧ Accounted latencyThread (state.threads 0) := by
  obtain ⟨state, reached, r, recorded, _⟩ := latencyJob_run 0
  exact ⟨state, reached, by rw [recorded]; rfl,
    (accounted_reachable latencyJob [latencyThread]).2 Unit _ state reached 0 latencyThread rfl⟩

end DiskSpd
