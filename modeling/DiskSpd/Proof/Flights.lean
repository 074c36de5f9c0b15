/-
**Operations and their flights.**

* `ArgsSound` — the record of an operation belongs to its target: file, length, buffers of its slot,
  and a direction the write percentage allows.
* `Linked` — the invariant of a thread: each operation is sound; no operation is queued or in flight
  twice; each one that is queued or in flight carries the offset, the target and the time of its
  issue; and the control block in the kernel is still the one the operation stands for.
* `linked_step` — each step of a thread keeps it; `linked_reachable` — so it holds in every run of a
  job.
-/

import DiskSpd.Proof.ThreadSteps
import Mathlib.Data.List.Perm.Basic

namespace DiskSpd

open IAsyncIop Transition

/-- The write percentage leaves the direction no choice at its two ends. -/
def DirectionAllowed (writePercentage : UInt32) (t : IopType) : Prop :=
  (writePercentage = 0 → t = .read) ∧ (writePercentage = 100 → t = .write)

theorem chooseType_allowed {percentage writePercentage : UInt32} (low : 1 ≤ percentage)
    (high : percentage ≤ 100) :
    DirectionAllowed writePercentage (chooseType percentage writePercentage) := by
  unfold chooseType
  constructor
  · rintro rfl
    rw [if_neg (by rw [UInt32.le_iff_toNat_le] at low ⊢; exact Nat.not_le.mpr low)]
  · rintro rfl
    rw [if_pos high]

/-- The record of an operation on a target, for one slot of the target's buffer. -/
structure ArgsSound (tData : TargetData) (args : IopArgs) : Prop where
  fd : args.fd = tData.fd
  nbytes : args.nbytes = tData.target.blockSize
  readBuf : ∃ i < tData.target.overlap,
    args.readBuf = tData.buffer + i.toUInt64 * tData.target.blockSize
  writeBuf : args.writeBuf =
    if tData.target.separateBuffers then tData.writeBuffer else args.readBuf
  direction : DirectionAllowed tData.target.writePercentage args.type

section Linked

variable {Op Engine : Type} [IAsyncIop Op] [LawfulIop Op] {th : ThreadParams}

open LawfulIop

/-- An operation of the thread. -/
def OpSound (th : ThreadParams) (op : Op) : Prop :=
  InStep op ∧ ∃ tData, th.targets[(view op).targetData]? = some tData ∧ ArgsSound tData (view op)

/-- A request of the thread to the kernel. -/
def FlightSound (th : ThreadParams) (flight : Flight) : Prop :=
  ∃ tData args, th.targets[flight.target]? = some tData ∧ ArgsSound tData args ∧
    args.offset = flight.offset ∧ flight.cb = args.controlBlock

namespace ThreadState

variable (s : ThreadState Op Engine)

/-- The issues whose operation is queued or in flight. -/
def pending : List Issue :=
  s.opQueue ++ s.inFlight.map (·.toIssue)

/-- What the operation of an issue keeps as its time: the clock value of the issue, or, on the first
flight, what memory held. -/
def storedTime (issue : Issue) : Option UInt64 :=
  if issue.first then s.uninit[issue.op]? else some issue.time

/-- The operation of an issue still carries what it was issued with. -/
def Carries (issue : Issue) : Prop :=
  ∃ op, s.ops[issue.op]? = some op ∧ (view op).targetData = issue.target ∧
    (view op).offset = issue.offset ∧ s.storedTime issue = some (view op).timeStamp

end ThreadState

/-- **The invariant of the operations of a thread.** -/
structure Linked (th : ThreadParams) (s : ThreadState Op Engine) : Prop where
  sound : ∀ op ∈ s.ops, OpSound th op
  uninit : s.uninit.length = s.ops.length
  carries : ∀ issue ∈ s.pending, s.Carries issue
  distinct : (s.pending.map (·.op)).Nodup
  controlBlock : ∀ flight ∈ s.inFlight, s.ops[flight.op]?.map controlBlock = some flight.cb

theorem linked_initial (rngEngine : Engine) :
    Linked th (.initial th rngEngine : ThreadState Op Engine) where
  sound _ member := by cases member
  uninit := rfl
  carries _ member := by cases member
  distinct := List.nodup_nil
  controlBlock _ member := by cases member

/-- Only operations, queue, flights and the memory of the time field matter. -/
theorem Linked.of_same {s s' : ThreadState Op Engine} (linked : Linked th s) (ops : s'.ops = s.ops)
    (opQueue : s'.opQueue = s.opQueue) (inFlight : s'.inFlight = s.inFlight)
    (uninit : s'.uninit = s.uninit) : Linked th s' := by
  obtain ⟨sound, sameLength, carries, distinct, controlBlock⟩ := linked
  unfold ThreadState.pending ThreadState.Carries ThreadState.storedTime at *
  constructor
  · rwa [ops]
  · rwa [ops, uninit]
  · unfold ThreadState.pending ThreadState.Carries ThreadState.storedTime
    rwa [ops, opQueue, inFlight, uninit]
  · unfold ThreadState.pending
    rwa [opQueue, inFlight]
  · rwa [ops, inFlight]

/-! ### Construction -/

theorem opSound_construct {tData : TargetData} {t : Nat} {i : UInt32} {offset : Int64}
    {percentage : UInt32} {now uninit : UInt64} (found : th.targets[t]? = some tData)
    (below : i < tData.target.overlap) (low : 1 ≤ percentage) (high : percentage ≤ 100) :
    OpSound th (IAsyncIop.construct uninit
      (ThreadState.iopArgs th tData t i offset percentage now) : Op) := by
  refine ⟨inStep_construct _ _, tData, ?_, ?_⟩
  · rwa [view_construct]
  · rw [view_construct]
    exact ⟨rfl, rfl, ⟨i, below, rfl⟩, rfl, chooseType_allowed low high⟩

/-- An operation keeps its place when another one is added. -/
theorem ThreadState.Carries.op_lt {s : ThreadState Op Engine} {issue : Issue}
    (carries : s.Carries issue) : issue.op < s.ops.length := by
  obtain ⟨op, found, _⟩ := carries
  exact (List.getElem?_eq_some_iff.mp found).1

omit [LawfulIop Op] in
/-- The new operation joins the pending ones. -/
theorem ThreadState.construct_pending (s : ThreadState Op Engine) (th : ThreadParams)
    (tData : TargetData) (t : Nat) (i : UInt32) (offset : Int64) (percentage : UInt32)
    (now uninit : UInt64) :
    (s.construct th tData t i offset percentage now uninit).pending.Perm
      ({ op := s.ops.length, target := t, offset := offset, time := now, first := true } ::
        s.pending) := by
  unfold ThreadState.pending
  show (s.opQueue ++ [_] ++ s.inFlight.map _).Perm _
  rw [List.append_assoc, List.singleton_append]
  exact List.perm_middle

theorem Linked.construct {s : ThreadState Op Engine} (linked : Linked th s) {tData : TargetData}
    {t : Nat} {i : UInt32} {offset : Int64} {percentage : UInt32} {now uninit : UInt64}
    (found : th.targets[t]? = some tData) (below : i < tData.target.overlap)
    (low : 1 ≤ percentage) (high : percentage ≤ 100) :
    Linked th (s.construct th tData t i offset percentage now uninit) := by
  have earlier : ∀ {index : Nat}, index < s.ops.length → ∀ op : Op,
      (s.ops ++ [op])[index]? = s.ops[index]? := fun below op => List.getElem?_append_left below
  have pending := s.construct_pending th tData t i offset percentage now uninit
  constructor
  · intro op member
    rcases List.mem_append.mp member with member | member
    · exact linked.sound op member
    · rw [List.mem_singleton.mp member]
      exact opSound_construct found below low high
  · show (s.uninit ++ [uninit]).length = (s.ops ++ [_]).length
    rw [List.length_append, List.length_append, linked.uninit, List.length_singleton,
      List.length_singleton]
  · intro issue member
    rw [pending.mem_iff] at member
    rcases List.mem_cons.mp member with rfl | member
    · refine ⟨_, List.getElem?_concat_length, ?_, ?_, ?_⟩
      · rw [view_construct]
        rfl
      · rw [view_construct]
        rfl
      · rw [view_construct]
        show (s.uninit ++ [uninit])[s.ops.length]? = _
        rw [← linked.uninit]
        exact List.getElem?_concat_length
    · have carries := linked.carries issue member
      have inOps := carries.op_lt
      obtain ⟨op, isOp, target, offset, time⟩ := carries
      refine ⟨op, (earlier inOps _).trans isOp, target, offset, ?_⟩
      rw [← time]
      unfold ThreadState.storedTime
      show (if issue.first then (s.uninit ++ [uninit])[issue.op]? else _) = _
      rw [List.getElem?_append_left (by rwa [linked.uninit])]
  · rw [(pending.map _).nodup_iff, List.map_cons, List.nodup_cons]
    refine ⟨fun member => ?_, linked.distinct⟩
    obtain ⟨issue, isPending, same⟩ := List.mem_map.mp member
    exact absurd (linked.carries issue isPending).op_lt (by rw [same]; exact lt_irrefl _)
  · intro flight member
    have inOps := (linked.carries flight.toIssue
      (List.mem_append_right _ (List.mem_map_of_mem member))).op_lt
    show (s.ops ++ [_])[flight.op]?.map _ = _
    rw [earlier inOps]
    exact linked.controlBlock flight member

/-! ### Submission -/

omit [LawfulIop Op] in
/-- The flights of a queue are its issues, when each has its operation. -/
theorem ThreadState.flights_toIssue {s : ThreadState Op Engine}
    (hasOp : ∀ issue ∈ s.opQueue, issue.op < s.ops.length) :
    s.flights.map (·.toIssue) = s.opQueue := by
  unfold ThreadState.flights
  rw [List.map_filterMap]
  refine (List.filterMap_congr fun issue member => ?_).trans (List.filterMap_some)
  rw [List.getElem?_eq_getElem (hasOp issue member)]
  rfl

theorem Linked.hasOp {s : ThreadState Op Engine} (linked : Linked th s) :
    ∀ issue ∈ s.opQueue, issue.op < s.ops.length := fun issue member =>
  (linked.carries issue (List.mem_append_left _ member)).op_lt

omit [LawfulIop Op] in
theorem ThreadState.mem_flights {s : ThreadState Op Engine} {flight : Flight}
    (member : flight ∈ s.flights) :
    flight.toIssue ∈ s.opQueue ∧ s.ops[flight.op]?.map IAsyncIop.controlBlock = some flight.cb := by
  obtain ⟨issue, queued, isFlight⟩ := List.mem_filterMap.mp member
  obtain ⟨op, found, rfl⟩ := Option.map_eq_some_iff.mp isFlight
  exact ⟨queued, by rw [found]; rfl⟩

/-- Submission moves the queue into flight. -/
theorem Linked.submit_pending {s : ThreadState Op Engine} (linked : Linked th s) :
    s.submit.pending.Perm s.pending := by
  unfold ThreadState.pending
  show ([] ++ (s.inFlight ++ s.flights).map _).Perm _
  rw [List.nil_append, List.map_append, ThreadState.flights_toIssue linked.hasOp]
  exact List.perm_append_comm

theorem Linked.submit {s : ThreadState Op Engine} (linked : Linked th s) : Linked th s.submit where
  sound := linked.sound
  uninit := linked.uninit
  carries issue member := linked.carries issue (linked.submit_pending.mem_iff.mp member)
  distinct := (linked.submit_pending.map _).nodup_iff.mpr linked.distinct
  controlBlock flight member := by
    rcases List.mem_append.mp member with member | member
    · exact linked.controlBlock flight member
    · exact (ThreadState.mem_flights member).2

theorem Linked.afterSubmit_pending {s : ThreadState Op Engine} (linked : Linked th s) (err : Int32) :
    (s.afterSubmit err).pending.Perm s.pending := by
  unfold ThreadState.afterSubmit
  split
  · exact linked.submit_pending
  · exact List.Perm.refl _

theorem Linked.afterSubmit {s : ThreadState Op Engine} (linked : Linked th s) (err : Int32) :
    Linked th (s.afterSubmit err) := by
  unfold ThreadState.afterSubmit
  split
  · exact linked.submit
  · exact linked.of_same rfl rfl rfl rfl

/-! ### Completion -/

section Completion

variable {s : ThreadState Op Engine} {before after : List Flight} {flight : Flight}

omit [IAsyncIop Op] [LawfulIop Op] in
/-- A completed flight leaves the pending ones. -/
theorem ThreadState.pending_of_inFlight (inFlight : s.inFlight = before ++ flight :: after) :
    s.pending.Perm (flight.toIssue :: { s with inFlight := before ++ after }.pending) := by
  unfold ThreadState.pending
  rw [inFlight, List.map_append, List.map_cons, List.map_append, ← List.append_assoc,
    ← List.append_assoc]
  exact List.perm_middle

theorem Linked.wait (linked : Linked th s) (inFlight : s.inFlight = before ++ flight :: after) :
    Linked th { s with inFlight := before ++ after } ∧
      flight.op ∉ ({ s with inFlight := before ++ after } : ThreadState Op Engine).pending.map
        (·.op) := by
  have pending := ThreadState.pending_of_inFlight inFlight
  have distinct := ((pending.map (·.op)).nodup_iff.mp linked.distinct)
  rw [List.map_cons, List.nodup_cons] at distinct
  refine ⟨⟨linked.sound, linked.uninit, fun issue member => ?_, distinct.2, fun other member => ?_⟩,
    distinct.1⟩
  · exact linked.carries issue (pending.mem_iff.mpr (List.mem_cons_of_mem _ member))
  · refine linked.controlBlock other ?_
    rw [inFlight]
    rcases List.mem_append.mp member with member | member
    · exact List.mem_append_left _ member
    · exact List.mem_append_right _ (List.mem_cons_of_mem _ member)

/-- The completed flight is as it was issued. -/
theorem Linked.flight_carries (linked : Linked th s)
    (inFlight : s.inFlight = before ++ flight :: after) :
    s.Carries flight.toIssue ∧ s.ops[flight.op]?.map IAsyncIop.controlBlock = some flight.cb :=
  ⟨linked.carries _ ((ThreadState.pending_of_inFlight inFlight).mem_iff.mpr List.mem_cons_self),
    linked.controlBlock flight (by rw [inFlight]; exact List.mem_append_cons_self)⟩

variable {op : Op} {tData : TargetData} {offset : Int64} {round : Round}

/-- The operation of a flight is for the target and at the offset of the flight. -/
theorem Linked.flight_op (linked : Linked th s) (inFlight : s.inFlight = before ++ flight :: after)
    (hasOp : s.ops[flight.op]? = some op) :
    getTargetData op = flight.target ∧ getOffset op = flight.offset := by
  obtain ⟨op', hasOp', target, offset, _⟩ := (linked.flight_carries inFlight).1
  rw [hasOp, Option.some.injEq] at hasOp'
  subst hasOp'
  exact ⟨(getTargetData_eq op).trans target, (getOffset_eq op).trans offset⟩

omit [LawfulIop Op] in
theorem ThreadState.reissue_pending (s : ThreadState Op Engine) (flight : Flight) (op : Op)
    (tData : TargetData) (offset : Int64) (round : Round) :
    (s.reissue flight op tData offset round).pending.Perm
      ({ op := flight.op, target := getTargetData op, offset := offset, time := round.absTimeUs,
         first := false } :: s.pending) := by
  unfold ThreadState.pending
  show (s.opQueue ++ [_] ++ s.inFlight.map _).Perm _
  rw [List.append_assoc, List.singleton_append]
  exact List.perm_middle

theorem opSound_recycled (sound : OpSound th op) (found : th.targets[getTargetData op]? = some tData)
    (low : 1 ≤ round.percentage) (high : round.percentage ≤ 100) :
    OpSound th (ThreadState.recycled op tData offset round) := by
  obtain ⟨inStep, tData', found', args⟩ := sound
  rw [getTargetData_eq, found', Option.some.injEq] at found
  subst found
  unfold ThreadState.recycled
  refine ⟨inStep_setType _ _, tData', ?_, ?_⟩
  · simpa only [view_setType, view_setOffset, view_setTime] using found'
  · simp only [view_setType, view_setOffset, view_setTime]
    exact ⟨args.fd, args.nbytes, args.readBuf, args.writeBuf, chooseType_allowed low high⟩

theorem Linked.reissue (linked : Linked th s) (idle : flight.op ∉ s.pending.map (·.op))
    (hasOp : s.ops[flight.op]? = some op) (found : th.targets[getTargetData op]? = some tData)
    (low : 1 ≤ round.percentage) (high : round.percentage ≤ 100) :
    Linked th (s.reissue flight op tData offset round) := by
  have pending := s.reissue_pending flight op tData offset round
  have below := (List.getElem?_eq_some_iff.mp hasOp).1
  have elsewhere : ∀ issue ∈ s.pending,
      (s.ops.set flight.op (ThreadState.recycled op tData offset round))[issue.op]? =
        s.ops[issue.op]? := fun issue member =>
    List.getElem?_set_ne fun same => idle (by rw [same]; exact List.mem_map_of_mem member)
  constructor
  · intro op' member
    rcases List.mem_or_eq_of_mem_set member with member | rfl
    · exact linked.sound op' member
    · exact opSound_recycled (linked.sound op (List.mem_of_getElem? hasOp)) found low high
  · show s.uninit.length = (s.ops.set _ _).length
    rw [List.length_set, linked.uninit]
  · intro issue member
    rw [pending.mem_iff] at member
    rcases List.mem_cons.mp member with rfl | member
    · refine ⟨_, List.getElem?_set_self below, ?_, ?_, ?_⟩ <;>
        simp [ThreadState.recycled, ThreadState.storedTime]
    · obtain ⟨op', isOp, same⟩ := linked.carries issue member
      exact ⟨op', (elsewhere issue member).trans isOp, same⟩
  · rw [(pending.map _).nodup_iff, List.map_cons, List.nodup_cons]
    exact ⟨idle, linked.distinct⟩
  · intro other member
    have isPending : other.toIssue ∈ s.pending :=
      List.mem_append_right _ (List.mem_map_of_mem member)
    show (s.ops.set _ _)[other.op]?.map _ = _
    rw [elsewhere _ isPending]
    exact linked.controlBlock other member

/-- **A round of the work loop** up to its `submit`. -/
theorem Linked.complete (linked : Linked th s) (inFlight : s.inFlight = before ++ flight :: after)
    (hasOp : s.ops[flight.op]? = some op) (found : th.targets[getTargetData op]? = some tData)
    (low : 1 ≤ round.percentage) (high : round.percentage ≤ 100) {recorded : ThreadState Op Engine}
    (done : ThreadState.record th { s with inFlight := before ++ after } flight op tData round =
      some recorded) (rngEngine : Engine) :
    Linked th ({ recorded with rngEngine := rngEngine }.reissue flight op tData offset round) := by
  obtain ⟨_, _, _, rfl⟩ := ThreadState.record_frame done
  obtain ⟨linked, idle⟩ := linked.wait inFlight
  refine Linked.reissue ?_ ?_ hasOp found low high
  · exact linked.of_same rfl rfl rfl rfl
  · exact idle

end Completion

/-! ### All steps -/

/-- **Each step of a thread keeps its operations and flights linked.** -/
theorem linked_step {dist : UniformInt Engine} {interlocked interlocked' : Interlocked}
    {s s' : ThreadState Op Engine} (linked : Linked th s)
    (step : Step dist th interlocked s interlocked' s') : Linked th s' := by
  cases step with
  | startOffset => exact linked.of_same rfl rfl rfl rfl
  | targetsDone => exact linked.of_same rfl rfl rfl rfl
  | construct _ found below low high => exact linked.construct found below low high
  | overlapDone => exact linked.of_same rfl rfl rfl rfl
  | advance => exact linked.of_same rfl rfl rfl rfl
  | submit => exact linked.afterSubmit _
  | leave => exact linked.of_same rfl rfl rfl rfl
  | throttle => exact linked
  | waitLast _ _ inFlight => exact (linked.wait inFlight).1.of_same rfl rfl rfl rfl
  | fail _ _ inFlight => exact (linked.wait inFlight).1.of_same rfl rfl rfl rfl
  | complete _ _ inFlight hasOp found _ _ low high done =>
    exact (linked.complete inFlight hasOp found low high done _).afterSubmit _

/-- **In every run of a job**, the operations and flights of each thread are linked. -/
theorem linked_reachable {dist : UniformInt Engine} {targets : List Target}
    {params : List ThreadParams} {state : JobState Op Engine}
    (reached : Reachable (jobSystem Op dist targets params) state) {n : Nat}
    (isThread : params[n]? = some th) : Linked th (state.threads n) :=
  jobSystem_thread (Linked th) isThread linked_initial
    (fun _ _ _ _ linked step => linked_step linked step) reached

end Linked

end DiskSpd
