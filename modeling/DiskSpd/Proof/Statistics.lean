/-
**The statistics and the counts.**

* `CountsAs`, `Tallied` — what a number of recorded operations leaves in the results of a thread on a
  target: counts in 64 bits, samples and buckets in 32.
* `tallied_record` — one recorded completion; `talliedAll_step` — one step of a thread.
* `StatisticsRight` — what the tables print agrees: each sample size and each sum of buckets is the
  count beside it, and the last row's sample size is the count of that row.
* `statistics_iff` — **in every state of a run they agree, exactly when the run records fewer than
  2^32 operations**.
-/

import DiskSpd.Lib.Tally
import DiskSpd.Proof.Accounting
import DiskSpd.Proof.Divisions
import DiskSpd.Proof.Percentiles

namespace DiskSpd

open IAsyncIop Transition

/-! ### The results of one thread on one target -/

/-- The samples, the buckets and the count of one direction stand for `n` operations. -/
structure CountsAs (n : Nat) (histogram : Histogram UInt64) (bucketizer : IoBucketizer)
    (iops : UInt64) : Prop where
  iops : iops = UInt64.ofNat n
  samples : histogram.samples = UInt32.ofNat n
  buckets : ∃ counters : List Nat,
    bucketizer.vBuckets = counters.map UInt32.ofNat ∧ counters.sum = n

/-- The results stand for a number of reads and a number of writes. -/
structure Tallied (tally : Nat × Nat) (results : TargetResults) : Prop where
  reads : CountsAs tally.1 results.readLatencyHistogram results.readBucketizer results.readIopsCount
  writes : CountsAs tally.2 results.writeLatencyHistogram results.writeBucketizer
    results.writeIopsCount
  iops : results.iopsCount = UInt64.ofNat (tally.1 + tally.2)

/-- The tally after one more operation. -/
def tallyNext (tally : Nat × Nat) : IopType → Nat × Nat
  | .read => (tally.1 + 1, tally.2)
  | .write => (tally.1, tally.2 + 1)

def tallyTotal (tally : Nat × Nat) : Nat := tally.1 + tally.2

theorem tallyNext_total (tally : Nat × Nat) (type : IopType) :
    tallyTotal (tallyNext tally type) = tallyTotal tally + 1 := by
  cases type with
  | read => exact Nat.add_right_comm _ _ _
  | write => rfl

/-- One more operation in the bucket of its time. -/
theorem add_counters {bucketizer next : IoBucketizer} {time : UInt64} {counters : List Nat}
    (added : bucketizer.add time = some next)
    (same : bucketizer.vBuckets = counters.map UInt32.ofNat) :
    ∃ counters' : List Nat, next.vBuckets = counters'.map UInt32.ofNat ∧
      counters'.sum = counters.sum + 1 := by
  unfold IoBucketizer.add at added
  split at added
  · cases added
  · cases added
    let n := bucketizer.bucketNumber time
    let grown := counters ++ List.replicate (n + 1 - counters.length) 0
    have sum : grown.sum = counters.sum := by simp [grown]
    have below : n < grown.length := by
      simp only [grown, List.length_append, List.length_replicate]
      omega
    refine ⟨grown.modify n (· + 1), ?_, ?_⟩
    · have moved : (grown.map UInt32.ofNat).modify n (· + 1) =
          (grown.modify n (· + 1)).map UInt32.ofNat :=
        Tally.modify_map (fun x => (UInt32.ofNat_add x 1).symm) grown n
      rw [← moved]
      show (IoBucketizer.grow _ _).modify _ _ = _
      congr 1
      unfold IoBucketizer.grow
      rw [same, List.length_map, List.map_append, List.map_replicate]
      rfl
    · rw [Tally.sum_modify below, sum]

section Record

variable {measure : Measure} {completion : Completion} {n : Nat} {histogram : Histogram UInt64}
  {bucketizer next : IoBucketizer} {iops : UInt64}

/-- **One more operation of a direction**, where both latency and intervals are measured. -/
theorem CountsAs.record (counts : CountsAs n histogram bucketizer iops)
    (latency : measure.latency = true) (intervals : measure.iopsStdDev = true)
    (added : TargetResults.recordBucket measure completion bucketizer = some next) :
    CountsAs (n + 1) (TargetResults.recordLatency measure completion histogram) next
      (iops + 1) := by
  obtain ⟨isCount, samples, counters, same, sum⟩ := counts
  unfold TargetResults.recordBucket at added
  rw [intervals, if_pos rfl] at added
  obtain ⟨counters', same', sum'⟩ := add_counters added same
  refine ⟨?_, ?_, counters', same', by rw [sum', sum]⟩
  · rw [isCount]
    exact (UInt64.ofNat_add n 1).symm
  · unfold TargetResults.recordLatency
    rw [latency, if_pos rfl]
    show histogram.samples + 1 = _
    rw [samples]
    exact (UInt32.ofNat_add n 1).symm

/-- **One recorded completion** counts once, in its direction. -/
theorem tallied_record {tally : Nat × Nat} {results updated : TargetResults}
    (tallied : Tallied tally results) (latency : measure.latency = true)
    (intervals : measure.iopsStdDev = true)
    (done : results.record measure completion = some updated) :
    Tallied (tallyNext tally completion.type) updated := by
  obtain ⟨reads, writes, all⟩ := tallied
  have total := tallyNext_total tally completion.type
  have more : results.iopsCount + 1 =
      UInt64.ofNat (tallyTotal (tallyNext tally completion.type)) := by
    rw [total, all]
    exact (UInt64.ofNat_add _ 1).symm
  unfold TargetResults.record at done
  cases kind : completion.type with
  | read =>
    rw [kind] at done more
    obtain ⟨bucketizer, added, done⟩ := Option.bind_eq_some_iff.mp done
    cases done
    exact ⟨reads.record latency intervals added, writes, more⟩
  | write =>
    rw [kind] at done more
    obtain ⟨bucketizer, added, done⟩ := Option.bind_eq_some_iff.mp done
    cases done
    exact ⟨reads, writes.record latency intervals added, more⟩

end Record

/-! ### The results of a thread -/

section Thread

variable {Op Engine : Type} {th : ThreadParams} {s s' : ThreadState Op Engine}

/-- **The invariant of a thread that measures both**: its results stand for what it recorded. -/
def TalliedAll (s : ThreadState Op Engine) : Prop :=
  ∃ tallies : List (Nat × Nat), List.Forall₂ Tallied tallies s.results ∧
    (tallies.map tallyTotal).sum = s.recorded.length

/-- One entry of the results is updated, and one tally with it. -/
theorem forall₂_set {tallies : List (Nat × Nat)} {results : List TargetResults}
    (all : List.Forall₂ Tallied tallies results) :
    ∀ {i : Nat} {old : TargetResults}, results[i]? = some old → ∃ tally, tallies[i]? = some tally ∧
      Tallied tally old ∧ ∀ {tally' : Nat × Nat} {updated : TargetResults}, Tallied tally' updated →
        List.Forall₂ Tallied (tallies.set i tally') (results.set i updated) := by
  induction all with
  | nil => exact fun found => by cases found
  | cons here rest ih =>
    intro i old found
    cases i with
    | zero =>
      cases found
      exact ⟨_, rfl, here, fun tallied => .cons tallied rest⟩
    | succ i =>
      obtain ⟨tally, isTally, tallied, set⟩ := ih (List.getElem?_cons_succ.symm.trans found)
      exact ⟨tally, isTally, tallied, fun tallied' => .cons here (set tallied')⟩

theorem talliedAll_initial (fresh : th.bucketizer.vBuckets = []) (rngEngine : Engine) :
    TalliedAll (.initial th rngEngine : ThreadState Op Engine) := by
  refine ⟨th.targets.map fun _ => (0, 0), ?_, ?_⟩
  · show List.Forall₂ Tallied _ (th.targets.map _)
    rw [List.forall₂_map_left_iff, List.forall₂_map_right_iff, List.forall₂_same]
    intro tData _
    exact ⟨⟨rfl, rfl, [], fresh, rfl⟩, ⟨rfl, rfl, [], fresh, rfl⟩, rfl⟩
  · rw [List.map_map]
    show (th.targets.map fun _ => 0).sum = 0
    simp

/-- **One step of a thread.** -/
theorem talliedAll_step [IAsyncIop Op] {dist : UniformInt Engine}
    {interlocked interlocked' : Interlocked} (latency : th.measure.latency = true)
    (intervals : th.measure.iopsStdDev = true) (before : TalliedAll s)
    (step : Step dist th interlocked s interlocked' s') : TalliedAll s' := by
  cases step with
  | submit =>
    unfold TalliedAll
    rwa [ThreadState.afterSubmit_results, ThreadState.afterSubmit_recorded]
  | complete _ _ _ _ _ _ _ _ _ done _ =>
    unfold TalliedAll
    rw [ThreadState.afterSubmit_results, ThreadState.afterSubmit_recorded]
    rcases ThreadState.record_cases done with ⟨_, rfl⟩ | ⟨_, results, updated, found, counted, rfl⟩
    · exact before
    · obtain ⟨tallies, all, sum⟩ := before
      obtain ⟨tally, isTally, tallied, set⟩ := forall₂_set all found
      refine ⟨_, set (tallied_record tallied latency intervals counted), ?_⟩
      have isTotal : (tallies.map tallyTotal)[_]? = some (tallyTotal tally) :=
        (List.getElem?_map ..).trans (congrArg _ isTally)
      have changed := Tally.sum_set (y := tallyTotal tally + 1) isTotal
      rw [List.map_set, tallyNext_total]
      show _ = (s.recorded ++ [_]).length
      rw [List.length_append, List.length_singleton]
      omega
  | _ => exact before

/-- A step records one operation or none. -/
theorem step_recorded [IAsyncIop Op] {dist : UniformInt Engine}
    {interlocked interlocked' : Interlocked} (step : Step dist th interlocked s interlocked' s') :
    s.recorded.length ≤ s'.recorded.length ∧ s'.recorded.length ≤ s.recorded.length + 1 := by
  cases step with
  | submit =>
    rw [ThreadState.afterSubmit_recorded]
    exact ⟨le_rfl, Nat.le_succ _⟩
  | complete _ _ _ _ _ _ _ _ _ done _ =>
    rw [ThreadState.afterSubmit_recorded]
    rcases ThreadState.record_cases done with ⟨_, rfl⟩ | ⟨_, _, _, _, _, rfl⟩
    · exact ⟨le_rfl, Nat.le_succ _⟩
    · show _ ≤ (s.recorded ++ [_]).length ∧ (s.recorded ++ [_]).length ≤ _
      rw [List.length_append, List.length_singleton]
      exact ⟨Nat.le_succ _, le_rfl⟩
  | _ => exact ⟨le_rfl, Nat.le_succ _⟩

end Thread

/-! ### What the tables print -/

/-- The statistics of one thread on one target agree with the counts beside them. -/
structure StatisticsAgree (results : TargetResults) : Prop where
  readSamples : results.readLatencyHistogram.samples.toNat = results.readIopsCount.toNat
  writeSamples : results.writeLatencyHistogram.samples.toNat = results.writeIopsCount.toNat
  readBuckets : (results.readBucketizer.vBuckets.map UInt32.toNat).sum =
    results.readIopsCount.toNat
  writeBuckets : (results.writeBucketizer.vBuckets.map UInt32.toNat).sum =
    results.writeIopsCount.toNat

/-- **The statistics cover all recorded operations**, in each row and in the last one. -/
structure StatisticsRight (job : JobOptions) (results : JobResults) : Prop where
  each : ∀ r ∈ results.targetResults, StatisticsAgree r
  totals : ∀ t : ReportType,
    (printIopsHistogram job t results).samples.toNat = (printIopsCount t results).toNat

/-- The operations a table is about. -/
def tallySelected : ReportType → Nat × Nat → Nat
  | .read, tally => tally.1
  | .write, tally => tally.2
  | .rw, tally => tallyTotal tally

section Tables

variable {job : JobOptions} {results : JobResults} {tallies : List (Nat × Nat)}

theorem CountsAs.agree {n : Nat} {histogram : Histogram UInt64} {bucketizer : IoBucketizer}
    {iops : UInt64} (counts : CountsAs n histogram bucketizer iops) (fits : n < 2 ^ 32) :
    histogram.samples.toNat = iops.toNat ∧
      (bucketizer.vBuckets.map UInt32.toNat).sum = iops.toNat := by
  obtain ⟨isCount, samples, counters, same, sum⟩ := counts
  have count : iops.toNat = n := by
    rw [isCount, UInt64.toNat_ofNat']
    omega
  refine ⟨?_, ?_⟩
  · rw [samples, count, UInt32.toNat_ofNat', Nat.mod_eq_of_lt (by omega)]
  · rw [same, Tally.sum_toNat_ofNat (sum ▸ fits), sum, count]

/-- One row of a table. -/
theorem currHistogram_samples {tally : Nat × Nat} {r : TargetResults} (tallied : Tallied tally r)
    (t : ReportType) :
    (currHistogram t r).samples = UInt32.ofNat (tallySelected t tally) ∧
      r.iopsOf t = UInt64.ofNat (tallySelected t tally) := by
  obtain ⟨reads, writes, all⟩ := tallied
  have zero : ∀ x : UInt32, 0 + x = x := UInt32.zero_add
  cases t with
  | read =>
    refine ⟨?_, reads.iops⟩
    show 0 + r.readLatencyHistogram.samples = _
    rw [zero, reads.samples]
    rfl
  | write =>
    refine ⟨?_, writes.iops⟩
    show 0 + r.writeLatencyHistogram.samples = _
    rw [zero, writes.samples]
    rfl
  | rw =>
    refine ⟨?_, all⟩
    show 0 + r.readLatencyHistogram.samples + r.writeLatencyHistogram.samples = _
    rw [zero, reads.samples, writes.samples]
    exact (UInt32.ofNat_add _ _).symm

/-- The loops of `print_iops` over the rows. -/
theorem foldl_samples (t : ReportType) {list : List TargetResults}
    (all : List.Forall₂ Tallied tallies list) (total : Histogram UInt64) (count : UInt64) :
    (list.foldl (fun total r => total.merge (currHistogram t r)) total).samples =
        total.samples + UInt32.ofNat (tallies.map (tallySelected t)).sum ∧
      list.foldl (fun count r => count + r.iopsOf t) count =
        count + UInt64.ofNat (tallies.map (tallySelected t)).sum := by
  induction all generalizing total count with
  | nil => exact ⟨(UInt32.add_zero _).symm, (UInt64.add_zero _).symm⟩
  | cons here rest ih =>
    obtain ⟨samples, iops⟩ := currHistogram_samples here t
    obtain ⟨restSamples, restIops⟩ := ih (total.merge (currHistogram t _)) (count + _)
    rw [List.foldl_cons, List.foldl_cons, restSamples, restIops, List.map_cons, List.sum_cons,
      UInt32.ofNat_add, UInt64.ofNat_add, ← UInt32.add_assoc, ← UInt64.add_assoc, ← samples,
      ← iops]
    exact ⟨rfl, rfl⟩

/-- **The last row of a table.** -/
theorem printIops_samples (measured : job.measureLatency = true) (t : ReportType)
    (all : List.Forall₂ Tallied tallies results.targetResults) :
    (printIopsHistogram job t results).samples =
        UInt32.ofNat (tallies.map (tallySelected t)).sum ∧
      printIopsCount t results = UInt64.ofNat (tallies.map (tallySelected t)).sum := by
  obtain ⟨samples, iops⟩ := foldl_samples t all {} 0
  unfold JobResults.targetResults at samples iops
  rw [List.foldl_flatMap] at samples iops
  unfold printIopsHistogram printIopsCount
  simp only [measured, if_true]
  rw [samples, iops]
  exact ⟨UInt32.zero_add _, UInt64.zero_add _⟩

theorem tallySelected_le (t : ReportType) (tally : Nat × Nat) :
    tallySelected t tally ≤ tallyTotal tally := by
  cases t with
  | read => exact Nat.le_add_right _ _
  | write => exact Nat.le_add_left _ _
  | rw => exact le_rfl

/-- **Fewer than 2^32 operations are covered.** -/
theorem statisticsRight_of_lt (measured : job.measureLatency = true)
    (all : List.Forall₂ Tallied tallies results.targetResults)
    (fits : (tallies.map tallyTotal).sum < 2 ^ 32) : StatisticsRight job results := by
  refine ⟨fun r member => ?_, fun t => ?_⟩
  · obtain ⟨tally, isTally, tallied⟩ : ∃ tally ∈ tallies, Tallied tally r := by
      obtain ⟨i, found⟩ := List.getElem?_of_mem member
      obtain ⟨tally, isTally, tallied, _⟩ := forall₂_set all found
      exact ⟨tally, List.mem_of_getElem? isTally, tallied⟩
    have small := List.le_sum_of_mem (List.mem_map_of_mem (f := tallyTotal) isTally)
    have reads := tallySelected_le .read tally
    have writes := tallySelected_le .write tally
    obtain ⟨readSamples, readBuckets⟩ := tallied.reads.agree (lt_of_le_of_lt reads (by omega))
    obtain ⟨writeSamples, writeBuckets⟩ := tallied.writes.agree (lt_of_le_of_lt writes (by omega))
    exact ⟨readSamples, writeSamples, readBuckets, writeBuckets⟩
  · obtain ⟨samples, iops⟩ := printIops_samples measured t all
    have small : (tallies.map (tallySelected t)).sum ≤ (tallies.map tallyTotal).sum :=
      List.sum_le_sum fun tally _ => tallySelected_le t tally
    rw [samples, iops, UInt32.toNat_ofNat', UInt64.toNat_ofNat', Nat.mod_eq_of_lt (by omega),
      Nat.mod_eq_of_lt (by omega)]

/-- **The operation number 2^32 is lost** from the last row. -/
theorem not_statisticsRight_of_eq (measured : job.measureLatency = true)
    (all : List.Forall₂ Tallied tallies results.targetResults)
    (full : (tallies.map tallyTotal).sum = 2 ^ 32) : ¬ StatisticsRight job results := by
  intro right
  obtain ⟨samples, iops⟩ := printIops_samples measured .rw all
  have same := right.totals .rw
  rw [samples, iops] at same
  have selected : (tallies.map (tallySelected .rw)).sum = 2 ^ 32 := full
  rw [selected] at same
  exact absurd same (by decide)

end Tables

/-! ### The runs of a job -/

section Runs

/-- How many operations the threads have recorded. -/
def JobState.recordedTotal {Op Engine : Type} (params : List ThreadParams)
    (state : JobState Op Engine) : Nat :=
  ((List.range params.length).map fun n => (state.threads n).recorded.length).sum

theorem jobResults_targetResults {Op Engine : Type} (params : List ThreadParams)
    (state : JobState Op Engine) : (state.jobResults params).targetResults =
      (List.range params.length).flatMap fun n => (state.threads n).results := by
  unfold JobState.jobResults JobResults.targetResults
  rw [List.mapIdx_eq_zipIdx_map, List.flatMap_map, List.range_eq_range',
    ← List.zipIdx_map_snd 0 params, List.flatMap_map]

/-- The tallies of several threads. -/
theorem tallies_flatMap {Op Engine : Type} {threads : Nat → ThreadState Op Engine} :
    ∀ {indices : List Nat}, (∀ n ∈ indices, TalliedAll (threads n)) →
      ∃ tallies, List.Forall₂ Tallied tallies (indices.flatMap fun n => (threads n).results) ∧
        (tallies.map tallyTotal).sum =
          (indices.map fun n => (threads n).recorded.length).sum
  | [], _ => ⟨[], .nil, rfl⟩
  | n :: rest, each => by
    obtain ⟨here, others⟩ := List.forall_mem_cons.mp each
    obtain ⟨tallies, all, sum⟩ := here
    obtain ⟨tallies', all', sum'⟩ := tallies_flatMap others
    refine ⟨tallies ++ tallies', List.rel_append all all', ?_⟩
    rw [List.map_append, List.sum_append, sum, sum', List.map_cons, List.sum_cons]

variable {job : JobOptions} {opened : UInt32 → Nat → JobOptions.Opened}
  {params : List ThreadParams} {Engine : Type} {dist : UniformInt Engine}
  {first last state next : JobState job.ioManager.Op Engine} {labels : List Nat}

/-- **Each step of the job** records one operation or none. -/
theorem jobStep_recorded {k : Nat} (step : (job.system dist params).step state k next) :
    state.recordedTotal params ≤ next.recordedTotal params ∧
      next.recordedTotal params ≤ state.recordedTotal params + 1 := by
  obtain ⟨th, interlocked, thread, _, step, rfl⟩ := step
  obtain ⟨grows, byOne⟩ := step_recorded step
  unfold JobState.recordedTotal
  refine ⟨List.sum_le_sum fun n _ => ?_,
    Tally.sum_map_le (k := k) (fun n other => ?_) ?_ List.nodup_range⟩
  · by_cases same : n = k
    · rw [same]
      simpa using grows
    · simp [Function.update_of_ne same]
  · simp [Function.update_of_ne other]
  · simpa using byOne

theorem initial_recorded (isInit : (job.system dist params).init first) :
    first.recordedTotal params = 0 := by
  unfold JobState.recordedTotal
  refine List.sum_eq_zero fun count member => ?_
  obtain ⟨n, below, rfl⟩ := List.mem_map.mp member
  obtain ⟨rngEngine, same⟩ := isInit.2 n _ (List.getElem?_eq_getElem (List.mem_range.mp below))
  rw [same]
  rfl

/-- The threads of a job that measures both. -/
theorem reachable_tallies (created : job.createThreads opened = some params)
    (latency : job.measureLatency = true) (intervals : job.measureIopsStdDev = true)
    (reached : Reachable (job.system dist params) state) :
    ∃ tallies, List.Forall₂ Tallied tallies (state.jobResults params).targetResults ∧
      (tallies.map tallyTotal).sum = state.recordedTotal params := by
  rw [jobResults_targetResults]
  refine tallies_flatMap fun n below => ?_
  obtain ⟨th, isThread⟩ : ∃ th, params[n]? = some th :=
    ⟨_, List.getElem?_eq_getElem (List.mem_range.mp below)⟩
  obtain ⟨measure, setUp⟩ :=
    (createThreads_frame created).2.2 th (List.mem_of_getElem? isThread)
  refine jobSystem_thread TalliedAll isThread (talliedAll_initial ?_)
    (fun _ _ _ _ before step => talliedAll_step ?_ ?_ before step) reached
  · unfold JobOptions.bucketizer at setUp
    rw [intervals, if_pos rfl] at setUp
    unfold IoBucketizer.initializeBuckets at setUp
    split at setUp
    · rw [← Option.some.inj setUp]
    · cases setUp
  · rw [measure, latency]
  · rw [measure, intervals]

/-- A run that records 2^32 operations passes a state where the last row is wrong. -/
theorem run_not_statisticsRight (created : job.createThreads opened = some params)
    (latency : job.measureLatency = true) (intervals : job.measureIopsStdDev = true)
    (isInit : (job.system dist params).init first)
    (run : Run (job.system dist params) first labels last)
    (full : 2 ^ 32 ≤ last.recordedTotal params) :
    ∃ middle before after, Run (job.system dist params) first before middle ∧
      Run (job.system dist params) middle after last ∧ before ++ after = labels ∧
      ¬ StatisticsRight job (middle.jobResults params) := by
  have none : first.recordedTotal params ≤ 2 ^ 32 := by
    rw [initial_recorded isInit]
    exact Nat.zero_le _
  obtain ⟨middle, before, after, toMiddle, fromMiddle, split, count⟩ :=
    run.passes (fun _ _ _ step => (jobStep_recorded step).2) none full
  obtain ⟨tallies, all, sum⟩ :=
    reachable_tallies created latency intervals ⟨first, before, isInit, toMiddle⟩
  exact ⟨middle, before, after, toMiddle, fromMiddle, split,
    not_statisticsRight_of_eq latency all (sum.trans count)⟩

/-- **In every state of a run the statistics cover all recorded operations, exactly when the run
records fewer than 2^32.** -/
theorem statistics_iff (created : job.createThreads opened = some params)
    (latency : job.measureLatency = true) (intervals : job.measureIopsStdDev = true)
    (isInit : (job.system dist params).init first)
    (run : Run (job.system dist params) first labels last) :
    (∀ middle before after, before ++ after = labels →
      Run (job.system dist params) first before middle →
      Run (job.system dist params) middle after last →
      StatisticsRight job (middle.jobResults params)) ↔
    last.recordedTotal params < 2 ^ 32 := by
  constructor
  · intro right
    by_contra full
    obtain ⟨middle, before, after, toMiddle, fromMiddle, split, wrong⟩ :=
      run_not_statisticsRight created latency intervals isInit run (Nat.not_lt.mp full)
    exact wrong (right middle before after split toMiddle fromMiddle)
  · intro fits middle before after _ toMiddle fromMiddle
    obtain ⟨tallies, all, sum⟩ :=
      reachable_tallies created latency intervals ⟨first, before, isInit, toMiddle⟩
    have grows : middle.recordedTotal params ≤ last.recordedTotal params :=
      fromMiddle.invariant (H := fun state => middle.recordedTotal params ≤
        state.recordedTotal params) le_rfl
        (fun _ _ _ before step => before.trans (jobStep_recorded step).1)
    exact statisticsRight_of_lt latency all (by omega)

end Runs

/-! ### A job that records as much as one likes -/

section Recording

variable {Op Engine : Type} [IAsyncIop Op] [LawfulIop Op] {dist : UniformInt Engine}
  {th : ThreadParams} {s : ThreadState Op Engine}

omit [LawfulIop Op] in
/-- `submit` puts the operation that was just enqueued in flight. -/
theorem reissue_inFlight (flight : Flight) {op : Op} (hasOp : s.ops[flight.op]? = some op)
    (tData : TargetData) (offset : Int64) (round : Round) :
    ∃ next, next ∈ (s.reissue flight op tData offset round).submit.inFlight := by
  let issue : Issue :=
    { op := flight.op, target := getTargetData op, offset := offset, time := round.absTimeUs,
      first := false }
  have below := (List.getElem?_eq_some_iff.mp hasOp).1
  have isOp : (s.reissue flight op tData offset round).ops[issue.op]? =
      some (ThreadState.recycled op tData offset round) := List.getElem?_set_self below
  refine ⟨{ issue with cb := controlBlock (ThreadState.recycled op tData offset round) },
    List.mem_append_right _ (List.mem_filterMap.mpr ⟨issue, ?_, ?_⟩)⟩
  · exact List.mem_append_right _ (List.mem_singleton.mpr rfl)
  · rw [isOp, Option.map_some]

/-- The round in which a flight of a block completes and is recorded. -/
def Round.recording (blockSize : UInt64) : Round :=
  { Round.quiet blockSize with record := true }

theorem record_exists {results : TargetResults} {measure : Measure} {completion : Completion}
    (interval : ∀ type, (results.bucketizer type).bucketDuration ≠ 0) :
    ∃ updated, results.record measure completion = some updated := by
  have added : ∀ type, ∃ next, TargetResults.recordBucket measure completion
      (results.bucketizer type) = some next := by
    intro type
    unfold TargetResults.recordBucket IoBucketizer.add
    split
    · rw [if_neg (interval type)]
      exact ⟨_, rfl⟩
    · exact ⟨_, rfl⟩
  unfold TargetResults.record
  dsimp only
  cases completion.type with
  | read =>
    obtain ⟨next, added⟩ := added .read
    exact ⟨_, Option.bind_eq_some_iff.mpr ⟨next, added, rfl⟩⟩
  | write =>
    obtain ⟨next, added⟩ := added .write
    exact ⟨_, Option.bind_eq_some_iff.mpr ⟨next, added, rfl⟩⟩

omit [LawfulIop Op] in
/-- A round that is recorded. -/
theorem record_recording {flight : Flight} {op : Op} {tData : TargetData} {round : Round}
    {results updated : TargetResults} (recording : round.record = true)
    (found : s.results[getTargetData op]? = some results)
    (counted : results.record th.measure (ThreadState.completion op round) = some updated) :
    s.record th flight op tData round = some { s with
      threadBytesCount := (s.threadBytesCount.toUInt64 + tData.target.blockSize).toInt64
      results := s.results.set (getTargetData op) updated
      recorded := s.recorded ++ [⟨flight, ThreadState.completion op round⟩] } := by
  unfold ThreadState.record
  rw [recording, if_pos rfl, found]
  simp only [bind, Option.bind_some, counted]

/-- **Any flight can complete and be recorded**, and one is in flight again. -/
theorem run_record (shared : Interlocked) (linked : Linked th s) (account : AccountInv th s)
    (bucketed : Bucketed th s) (interval : th.bucketizer.bucketDuration ≠ 0)
    (phase : s.phase = .work) {flight : Flight} (inFlight : flight ∈ s.inFlight)
    {tData : TargetData} (found : th.targets[flight.target]? = some tData)
    (can : tData.target.CanIssue)
    (small : tData.target.blockSize.toNat < 2 ^ 31) :
    ∃ shared' s' next, Step dist th shared s shared' s' ∧ s'.phase = .work ∧
      next ∈ s'.inFlight ∧ s'.recorded.length = s.recorded.length + 1 := by
  obtain ⟨before, after, split⟩ := List.append_of_mem inFlight
  obtain ⟨op, hasOp, target, _⟩ := (linked.flight_carries split).1
  obtain ⟨results, isResults, _⟩ := account.results _ _ found
  rw [← target, ← LawfulIop.getTargetData_eq] at found isResults
  let round := Round.recording tData.target.blockSize
  obtain ⟨updated, counted⟩ : ∃ updated,
      results.record th.measure (ThreadState.completion op round) = some updated := record_exists
    fun type => (bucketed results (List.mem_of_getElem? isResults) type).trans_ne interval
  obtain ⟨offset, state, call, _⟩ := getNextOffset_some dist can th.relThreadId
    (s.offsetState shared tData) (getOffset op)
  have low : 1 ≤ round.percentage := show (1 : UInt32) ≤ 1 by decide
  have high : round.percentage ≤ 100 := show (1 : UInt32) ≤ 100 by decide
  have size : round.ret.toInt64.toUInt64 = tData.target.blockSize := quiet_ret small
  have done : ThreadState.record th { s with inFlight := before ++ after } flight op tData round =
      some _ := record_recording rfl isResults counted
  have step := Step.complete phase rfl split hasOp found rfl size low high done call
  obtain ⟨next, isNext⟩ := reissue_inFlight (s := { s with
    inFlight := before ++ after
    threadBytesCount := (s.threadBytesCount.toUInt64 + tData.target.blockSize).toInt64
    results := s.results.set (getTargetData op) updated
    recorded := s.recorded ++ [⟨flight, ThreadState.completion op round⟩]
    rngEngine := state.rngEngine }) flight hasOp tData offset round
  refine ⟨_, _, next, step, rfl, isNext, ?_⟩
  exact List.length_append ..

end Recording

/-- `-L -D -o1 f` -/
def statisticsCalls : List (Key × Option CString) :=
  [(.option 'L', none), (.option 'D', none), (.option 'o', some "1".toList),
    (.keyArg, some "f".toList)]

def statisticsJob : JobOptions where
  totalThreads := 1
  measureLatency := true
  measureIopsStdDev := true
  targets := [{ path := "f".toList, size := 65536, maxSize := 65536, overlap := 1 }]

/-- What its thread works on. -/
def statisticsThread : ThreadParams where
  threadId := 0
  measure := { latency := true, iopsStdDev := true }
  bucketizer := { bucketDuration := 1000, validBuckets := 10 }
  targets := [latencyData]

/-- **The thread records as many operations as one likes.** -/
theorem statisticsJob_records (n : Nat) :
    ∃ (state : JobState statisticsJob.ioManager.Op Unit),
      Reachable (statisticsJob.system (fun a _ engine => (a, engine)) [statisticsThread]) state ∧
      (state.threads 0).phase = .work ∧ (∃ flight, flight ∈ (state.threads 0).inFlight) ∧
      n ≤ (state.threads 0).recorded.length := by
  have can : ∀ tData ∈ statisticsThread.targets, tData.target.CanIssue := by
    intro tData member
    rw [List.mem_singleton.mp member]
    exact .of_sequential rfl
  have isThread : [statisticsThread][0]? = some statisticsThread := rfl
  induction n with
  | zero =>
    obtain ⟨state, before, new, after, reached, phase, _, inFlight, _, _, _, one, _⟩ :=
      reach_work statisticsJob.ioManager.Op (fun a _ (engine : Unit) => (a, engine)) can
        statisticsJob.targets isThread ()
        (show statisticsThread.targets[0]? = some latencyData from rfl)
    refine ⟨state, reached, phase, ?_, Nat.zero_le _⟩
    have some := congrArg List.length inFlight
    rw [List.length_map, List.length_append, List.length_append, one] at some
    refine List.exists_mem_of_length_pos (some ▸ ?_)
    show 0 < before.length + 1 + after.length
    omega
  | succ n ih =>
    obtain ⟨state, reached, phase, ⟨flight, inFlight⟩, count⟩ := ih
    have linked := linked_reachable reached isThread
    have account := accountInv_reachable reached isThread
    have bucketed : Bucketed statisticsThread (state.threads 0) :=
      jobSystem_thread (Bucketed statisticsThread) isThread bucketed_initial
        (fun _ _ _ _ before step => bucketed_step before step) reached
    obtain ⟨before, after, split⟩ := List.append_of_mem inFlight
    obtain ⟨op, hasOp, target, _⟩ := (linked.flight_carries split).1
    obtain ⟨_, tData, found, _⟩ := linked.sound op (List.mem_of_getElem? hasOp)
    rw [target] at found
    have isData := List.mem_singleton.mp (List.mem_of_getElem? found)
    obtain ⟨shared, s, next, step, atWork, isNext, more⟩ := run_record state.interlocked linked
      account bucketed (by decide) phase inFlight found (by rw [isData]; exact .of_sequential rfl)
      (by rw [isData]; decide)
    refine ⟨_, reached.step (jobSystem_step isThread step), ?_⟩
    simp only [Function.update_self]
    exact ⟨atWork, ⟨next, isNext⟩, by omega⟩

theorem statisticsJob_created :
    parseCommandLine statisticsCalls (fun _ => .file 65536) = .ok statisticsJob ∧
      statisticsJob.createThreads (fun _ _ => ⟨3, 0, 0⟩) = some [statisticsThread] := ⟨rfl, rfl⟩

/-- A long run of one thread on one block, where the last row loses an operation. -/
theorem statisticsJob_not_statisticsRight :
    parseCommandLine statisticsCalls (fun _ => .file 65536) = .ok statisticsJob ∧
    statisticsJob.createThreads (fun _ _ => ⟨3, 0, 0⟩) = some [statisticsThread] ∧
    ∃ (state : JobState statisticsJob.ioManager.Op Unit),
      Reachable (statisticsJob.system (fun a _ engine => (a, engine)) [statisticsThread]) state ∧
      ¬ StatisticsRight statisticsJob (state.jobResults [statisticsThread]) := by
  obtain ⟨parsed, created⟩ := statisticsJob_created
  obtain ⟨last, ⟨first, labels, isInit, run⟩, _, _, many⟩ := statisticsJob_records (2 ^ 32)
  obtain ⟨middle, before, _, toMiddle, _, _, wrong⟩ :=
    run_not_statisticsRight created rfl rfl isInit run (many.trans (Nat.le_add_right _ _))
  exact ⟨parsed, created, middle, ⟨first, before, isInit, toMiddle⟩, wrong⟩

/-- A run that records one operation. -/
theorem statisticsJob_statisticsRight :
    ∃ (first last : JobState statisticsJob.ioManager.Op Unit) (labels : List Nat),
      Run (statisticsJob.system (fun a _ engine => (a, engine)) [statisticsThread]) first labels
        last ∧ last.recordedTotal [statisticsThread] = 1 ∧
      ∀ middle before after, before ++ after = labels →
        Run (statisticsJob.system (fun a _ engine => (a, engine)) [statisticsThread]) first before
          middle →
        Run (statisticsJob.system (fun a _ engine => (a, engine)) [statisticsThread]) middle after
          last →
        StatisticsRight statisticsJob (middle.jobResults [statisticsThread]) := by
  obtain ⟨last, ⟨first, labels, isInit, run⟩, _, _, many⟩ := statisticsJob_records 1
  obtain ⟨middle, before, _, toMiddle, _, _, one⟩ := run.passes
    (fun _ _ _ step => (jobStep_recorded step).2) (initial_recorded isInit ▸ Nat.zero_le 1)
    (many.trans (Nat.le_add_right _ _))
  exact ⟨first, middle, before, toMiddle, one,
    (statistics_iff statisticsJob_created.2 rfl rfl isInit toMiddle).mpr (by rw [one]; decide)⟩

end DiskSpd
