/-
**When the results can be printed.**

* `printIops_completes` — the tables of the I/Os never throw, whatever was recorded.
* `table_completes_iff` — the percentile table is printed exactly when the histogram of the totals has
  an entry: the columns of the reads and of the writes are guarded by their numbers of samples, the
  one of the totals is not.
* `Sampled` — the invariant of a thread that measures latency: its histograms hold samples, and one of
  them has an entry exactly when the thread has recorded an operation.
* `outputResults_iff` — so the output of a job with `-L` fails exactly when no operation was recorded.
-/

import DiskSpd.Proof.HistogramStatistics
import DiskSpd.Proof.Latency
import DiskSpd.Proof.Percentiles
import DiskSpd.Proof.Startup
import DiskSpd.Proof.Statistics
import Mathlib.Algebra.Order.Field.Rat
import Mathlib.Tactic.NormNum

namespace DiskSpd

open Histogram IAsyncIop Transition

/-! ### Computations that end without an exception -/

/-- The computation throws nothing. -/
def Completes {ε α : Type} (x : Except ε α) : Prop := ∃ a, x = .ok a

section Completes

variable {ε α β : Type}

theorem Completes.pure (a : α) : Completes (Pure.pure a : Except ε α) := ⟨a, rfl⟩

theorem completes_bind {x : Except ε α} {f : α → Except ε β} :
    Completes (x >>= f) ↔ ∃ a, x = .ok a ∧ Completes (f a) := by
  constructor
  · rintro ⟨b, done⟩
    obtain ⟨a, first, second⟩ := bind_ok.mp done
    exact ⟨a, first, b, second⟩
  · rintro ⟨a, first, b, second⟩
    exact ⟨b, bind_ok.mpr ⟨a, first, second⟩⟩

theorem Completes.bind {x : Except ε α} {f : α → Except ε β} (first : Completes x)
    (second : ∀ a, Completes (f a)) : Completes (x >>= f) := by
  obtain ⟨a, done⟩ := first
  exact completes_bind.mpr ⟨a, done, second a⟩

theorem completes_map {x : Except ε α} {f : α → β} : Completes (x.map f) ↔ Completes x := by
  cases x with
  | error e => exact ⟨nofun, nofun⟩
  | ok a => exact ⟨fun _ => ⟨a, rfl⟩, fun _ => ⟨f a, rfl⟩⟩

/-- A computation over a list completes when each of its rounds does. -/
theorem completes_mapM {f : α → Except ε β} {xs : List α} :
    Completes (xs.mapM f) ↔ ∀ x ∈ xs, Completes (f x) := by
  induction xs with
  | nil => exact ⟨fun _ _ member => (by cases member), fun _ => ⟨[], rfl⟩⟩
  | cons x xs ih =>
    rw [List.mapM_cons, List.forall_mem_cons, ← ih, completes_bind]
    constructor
    · rintro ⟨b, first, rest⟩
      obtain ⟨bs, done, _⟩ := completes_bind.mp rest
      exact ⟨⟨b, first⟩, bs, done⟩
    · rintro ⟨⟨b, first⟩, bs, rest⟩
      exact ⟨b, first, completes_bind.mpr ⟨bs, rest, .pure _⟩⟩

end Completes

/-! ### The tables -/

section Tables

variable {options : JobOptions} {results : JobResults}

theorem getMean_completes (h : Histogram UInt64) (order : Entries UInt64) :
    Completes (h.getMean order) :=
  ⟨_, meanLoop_eq _ _ le_rfl⟩

theorem latencyColumns_completes (h : Histogram UInt64) : Completes (latencyColumns h) := by
  refine .bind (getMean_completes h _) fun mean => ?_
  split_ifs
  · exact .bind (.bind (getMean_completes h _) fun _ => .pure _) fun _ => .pure _
  · exact .pure _

theorem iopsRow_completes (bytes iops : UInt64) (bucketizer : IoBucketizer)
    (h : Histogram UInt64) : Completes (iopsRow options bytes iops bucketizer h) := by
  unfold iopsRow
  cases options.measureLatency with
  | true => exact completes_map.mpr (latencyColumns_completes h)
  | false => exact .pure _

/-- **`print_iops` never throws.** -/
theorem printIops_completes (t : ReportType) : Completes (printIops options t results) :=
  .bind (completes_mapM.mpr fun _ _ => iopsRow_completes _ _ _ _) fun _ =>
    .bind (iopsRow_completes _ _ _ _) fun _ => .pure _

/-- On an empty histogram a percentile is undefined. -/
theorem not_getPercentile_completes {h : Histogram UInt64} (holds : h.Holds 0) (p : ℚ) :
    ¬ Completes (h.getPercentile h.data.entries p) := by
  have empty : h.data.entries = [] := by
    have keys := holds.mem_keys (.refl _)
    rw [← List.map_eq_nil_iff (f := (·.1)), List.eq_nil_iff_forall_not_mem]
    exact fun v member => Multiset.notMem_zero v ((keys v).mp member)
  rintro ⟨v, done⟩
  have sorted : getSortedData h.data.entries = [] := by
    rw [empty]
    exact List.mergeSort_nil
  unfold getPercentile at done
  rw [sorted] at done
  split_ifs at done
  cases done

theorem percentiles_inside : ∀ p ∈ percentiles, 0 ≤ p.1 ∧ p.1 ≤ 1 := by
  unfold percentiles
  simp only [List.forall_mem_cons]
  norm_num

namespace LatencyHistograms

variable {histograms : LatencyHistograms} {reads writes total : Multiset UInt64}

/-- A guarded column is defined: a histogram with a number of samples has an entry. -/
theorem column_completes {h : Histogram UInt64} {s : Multiset UInt64} (holds : h.Holds s)
    {p : ℚ} (nonneg : 0 ≤ p) (atMost : p ≤ 1) :
    Completes (guardedPercentile (0 < h.getSampleSize) h p) := by
  unfold guardedPercentile
  split_ifs with guarded
  · refine completes_map.mpr (holds.getPercentile_isOk ?_ (.refl _) nonneg atMost)
    rintro rfl
    have none : h.getSampleSize = 0 := holds.samples
    rw [none] at guarded
    exact absurd guarded (by decide)
  · exact .pure _

/-- **The percentile table is printed exactly when there is a sample in the totals.** -/
theorem table_completes_iff (holdsReads : histograms.read.Holds reads)
    (holdsWrites : histograms.write.Holds writes) (holdsTotal : histograms.total.Holds total) :
    Completes histograms.table ↔ total ≠ 0 := by
  unfold table
  constructor
  · rintro printed rfl
    obtain ⟨rows, done, _⟩ := completes_bind.mp printed
    have first := completes_mapM.mp ⟨rows, done⟩ _ List.mem_cons_self
    obtain ⟨_, _, rest⟩ := completes_bind.mp first
    obtain ⟨_, _, rest⟩ := completes_bind.mp rest
    obtain ⟨v, found, _⟩ := completes_bind.mp rest
    exact not_getPercentile_completes holdsTotal _ ⟨v, found⟩
  · intro nonempty
    refine .bind (completes_mapM.mpr fun p member => ?_) fun _ => .pure _
    obtain ⟨nonneg, atMost⟩ := percentiles_inside p member
    exact .bind (column_completes holdsReads nonneg atMost) fun _ =>
      .bind (column_completes holdsWrites nonneg atMost) fun _ =>
        .bind (holdsTotal.getPercentile_isOk nonempty (.refl _) nonneg atMost) fun _ => .pure _

end LatencyHistograms

/-- Some histogram of the results has an entry. -/
def JobResults.HasSamples (results : JobResults) : Prop :=
  ∃ r ∈ results.targetResults, ∃ v, v ∈ r.readLatencyHistogram.data ∨ v ∈ r.writeLatencyHistogram.data

/-- The histograms of the results hold samples. -/
def TargetResults.Sampled (r : TargetResults) : Prop :=
  ∃ latencies, r.Recorded latencies

/-- The subtotals of the loops of `output_results`. -/
theorem subtotals_hold {samples : TargetResults → Latencies} (list : List TargetResults)
    (recorded : ∀ r ∈ list, r.Recorded (samples r)) (histograms : LatencyHistograms)
    {reads writes : Multiset UInt64} (holdsReads : histograms.read.Holds reads)
    (holdsWrites : histograms.write.Holds writes) :
    (∃ s, (list.foldl LatencyHistograms.accumulate histograms).read.Holds s) ∧
      ∃ s, (list.foldl LatencyHistograms.accumulate histograms).write.Holds s := by
  induction list generalizing histograms reads writes with
  | nil => exact ⟨⟨_, holdsReads⟩, _, holdsWrites⟩
  | cons r rest ih =>
    have here := recorded r List.mem_cons_self
    exact ih (fun r' member => recorded r' (List.mem_cons_of_mem _ member)) _
      (holdsReads.merge here.reads) (holdsWrites.merge here.writes)

theorem mem_list_sum {v : UInt64} {list : List (Multiset UInt64)} :
    v ∈ list.sum ↔ ∃ s ∈ list, v ∈ s := by
  induction list with
  | nil => exact ⟨fun member => absurd member (Multiset.notMem_zero v), fun ⟨_, no, _⟩ => by cases no⟩
  | cons s rest ih => rw [List.sum_cons, Multiset.mem_add, ih, List.exists_mem_cons_iff]

/-- The totals have a sample when some histogram has an entry. -/
theorem total_ne_zero_iff {samples : TargetResults → Latencies}
    (recorded : ∀ r ∈ results.targetResults, r.Recorded (samples r)) :
    (results.targetResults.map fun r => (samples r).selected .rw).sum +
        RunningTotal.excess (results.targetResults.map fun r => (samples r).selected .rw) ≠ 0 ↔
      results.HasSamples := by
  have entry : ∀ r ∈ results.targetResults, ∀ v, v ∈ (samples r).selected .rw ↔
      v ∈ r.readLatencyHistogram.data ∨ v ∈ r.writeLatencyHistogram.data := by
    intro r member v
    rw [(recorded r member).reads.keys, (recorded r member).writes.keys]
    exact Multiset.mem_add
  constructor
  · intro nonempty
    obtain ⟨v, member⟩ := Multiset.exists_mem_of_ne_zero nonempty
    have inSum := (Multiset.mem_add.mp member).elim id mem_sum_of_mem_excess
    obtain ⟨s, isSelected, inSelected⟩ := mem_list_sum.mp inSum
    obtain ⟨r, isResult, rfl⟩ := List.mem_map.mp isSelected
    exact ⟨r, isResult, v, (entry r isResult v).mp inSelected⟩
  · rintro ⟨r, isResult, v, isEntry⟩ none
    have inSum : v ∈ (results.targetResults.map fun r => (samples r).selected .rw).sum :=
      mem_list_sum.mpr ⟨(samples r).selected .rw,
        List.mem_map_of_mem (f := fun r => (samples r).selected .rw) isResult,
        (entry r isResult v).mpr isEntry⟩
    rw [Multiset.eq_zero_iff_forall_notMem] at none
    exact none v (Multiset.mem_add.mpr (Or.inl inSum))

theorem percentileTable_completes_iff (measured : options.measureLatency = true)
    (sampled : ∀ r ∈ results.targetResults, r.Sampled) :
    Completes (percentileTable options results) ↔ results.HasSamples := by
  classical
  let samples : TargetResults → Latencies := fun r =>
    if holds : r.Sampled then holds.choose else ⟨0, 0⟩
  have recorded : ∀ r ∈ results.targetResults, r.Recorded (samples r) := by
    intro r member
    simp only [samples, dif_pos (sampled r member)]
    exact (sampled r member).choose_spec
  obtain ⟨histograms, isOutput, holdsTotal⟩ := outputHistograms_holds measured results recorded
  have folded : histograms = results.targetResults.foldl LatencyHistograms.accumulate {} := by
    unfold outputHistograms at isOutput
    rw [measured] at isOutput
    unfold JobResults.targetResults
    rw [List.foldl_flatMap]
    exact (Option.some.inj isOutput).symm
  obtain ⟨⟨reads, holdsReads⟩, writes, holdsWrites⟩ :=
    subtotals_hold results.targetResults recorded {} Holds.empty Holds.empty
  rw [← folded] at holdsReads holdsWrites
  unfold percentileTable
  rw [isOutput]
  exact completes_map.trans ((LatencyHistograms.table_completes_iff holdsReads holdsWrites
    holdsTotal).trans (total_ne_zero_iff recorded))

/-- **The results can be printed exactly when** no latency is measured or some histogram has an
entry. -/
theorem outputResults_completes_iff
    (sampled : options.measureLatency = true → ∀ r ∈ results.targetResults, r.Sampled) :
    Completes (outputResults options results) ↔
      options.measureLatency = false ∨ results.HasSamples := by
  have table : Completes (outputResults options results) ↔
      Completes (percentileTable options results) := by
    unfold outputResults
    constructor
    · intro printed
      obtain ⟨_, _, rest⟩ := completes_bind.mp printed
      obtain ⟨_, _, rest⟩ := completes_bind.mp rest
      obtain ⟨_, _, rest⟩ := completes_bind.mp rest
      obtain ⟨percentiles, done, _⟩ := completes_bind.mp rest
      exact ⟨percentiles, done⟩
    · intro printed
      exact .bind (printIops_completes .rw) fun _ => .bind (printIops_completes .read) fun _ =>
        .bind (printIops_completes .write) fun _ => .bind printed fun _ => .pure _
  rw [table]
  cases measured : options.measureLatency with
  | false =>
    refine ⟨fun _ => Or.inl rfl, fun _ => ⟨none, ?_⟩⟩
    unfold percentileTable outputHistograms
    rw [measured]
    rfl
  | true =>
    rw [percentileTable_completes_iff measured (sampled measured)]
    exact ⟨Or.inr, fun either => either.resolve_left nofun⟩

end Tables

/-! ### The results of a thread -/

section Thread

variable {Op Engine : Type} {th : ThreadParams} {s s' : ThreadState Op Engine}

/-- **The invariant of a thread that measures latency.** -/
structure ThreadSampled (s : ThreadState Op Engine) : Prop where
  sampled : ∀ r ∈ s.results, r.Sampled
  recorded : (∃ r ∈ s.results, ∃ v, v ∈ r.readLatencyHistogram.data ∨
    v ∈ r.writeLatencyHistogram.data) ↔ s.recorded ≠ []

theorem threadSampled_initial (rngEngine : Engine) :
    ThreadSampled (.initial th rngEngine : ThreadState Op Engine) where
  sampled r member := by
    obtain ⟨_, _, rfl⟩ := List.mem_map.mp member
    exact ⟨⟨0, 0⟩, Holds.empty, Holds.empty⟩
  recorded := by
    refine ⟨?_, fun some => absurd rfl some⟩
    rintro ⟨r, member, v, isEntry⟩
    obtain ⟨_, _, rfl⟩ := List.mem_map.mp member
    exact absurd isEntry (by simp)

/-- With the latency measured a completion is added to a histogram. -/
theorem holds_recordLatency {measure : Measure} (latency : measure.latency = true)
    (completion : Completion) {h : Histogram UInt64} {samples : Multiset UInt64}
    (holds : h.Holds samples) :
    (TargetResults.recordLatency measure completion h).Holds
        (completion.opTimeUs measure ::ₘ samples) ∧
      completion.opTimeUs measure ∈ (TargetResults.recordLatency measure completion h).data := by
  have added : TargetResults.recordLatency measure completion h =
      h.add (completion.opTimeUs measure) := if_pos latency
  rw [added]
  exact ⟨holds.add _, (mem_add _ _).mpr (Or.inl rfl)⟩

/-- One recorded completion adds a sample. -/
theorem sampled_record {measure : Measure} {completion : Completion} {results updated : TargetResults}
    (latency : measure.latency = true) (sampled : results.Sampled)
    (done : results.record measure completion = some updated) :
    updated.Sampled ∧ ∃ v, v ∈ updated.readLatencyHistogram.data ∨
      v ∈ updated.writeLatencyHistogram.data := by
  obtain ⟨latencies, reads, writes⟩ := sampled
  unfold TargetResults.record at done
  cases kind : completion.type with
  | read =>
    rw [kind] at done
    obtain ⟨bucketizer, added, done⟩ := Option.bind_eq_some_iff.mp done
    cases done
    obtain ⟨holds, isEntry⟩ := holds_recordLatency latency completion reads
    exact ⟨⟨⟨completion.opTimeUs measure ::ₘ latencies.reads, latencies.writes⟩, holds, writes⟩,
      _, Or.inl isEntry⟩
  | write =>
    rw [kind] at done
    obtain ⟨bucketizer, added, done⟩ := Option.bind_eq_some_iff.mp done
    cases done
    obtain ⟨holds, isEntry⟩ := holds_recordLatency latency completion writes
    exact ⟨⟨⟨latencies.reads, completion.opTimeUs measure ::ₘ latencies.writes⟩, reads, holds⟩,
      _, Or.inr isEntry⟩

/-- **One step of a thread.** -/
theorem threadSampled_step [IAsyncIop Op] {dist : UniformInt Engine}
    {interlocked interlocked' : Interlocked} (latency : th.measure.latency = true)
    (before : ThreadSampled s) (step : Step dist th interlocked s interlocked' s') :
    ThreadSampled s' := by
  have same : s'.results = s.results → s'.recorded = s.recorded → ThreadSampled s' := by
    intro results recorded
    refine ⟨?_, ?_⟩
    · rw [results]
      exact before.sampled
    · rw [results, recorded]
      exact before.recorded
  cases step with
  | submit => exact same (ThreadState.afterSubmit_results _ _) (ThreadState.afterSubmit_recorded _ _)
  | @complete recorded round before' after flight op tData offset state _ _ _ _ _ _ _ _ _ done =>
    have isResults := ThreadState.afterSubmit_results
      ({ recorded with rngEngine := state.rngEngine }.reissue flight op tData offset round)
      round.submitErr
    have isRecorded := ThreadState.afterSubmit_recorded
      ({ recorded with rngEngine := state.rngEngine }.reissue flight op tData offset round)
      round.submitErr
    rcases ThreadState.record_cases done with ⟨_, rfl⟩ | ⟨_, results, updated, found, counted, rfl⟩
    · exact same isResults isRecorded
    · obtain ⟨updatedSampled, hasEntry⟩ :=
        sampled_record latency (before.sampled _ (List.mem_of_getElem? found)) counted
      have below := (List.getElem?_eq_some_iff.mp found).1
      refine ⟨fun r member => ?_, ?_⟩
      · rw [isResults] at member
        rcases List.mem_or_eq_of_mem_set member with old | rfl
        · exact before.sampled r old
        · exact updatedSampled
      · rw [isResults, isRecorded]
        refine ⟨fun _ => List.concat_ne_nil _ _, fun _ => ⟨updated, ?_, hasEntry⟩⟩
        exact List.mem_set below updated
  | _ => exact same rfl rfl

end Thread

/-! ### The results of a job -/

section Job

variable {job : JobOptions} {opened : UInt32 → Nat → JobOptions.Opened}
  {params : List ThreadParams} {Engine : Type} {dist : UniformInt Engine}
  {state : JobState job.ioManager.Op Engine}

theorem threadSampled_reachable (created : job.createThreads opened = some params)
    (measured : job.measureLatency = true) (reached : Reachable (job.system dist params) state)
    {n : Nat} (below : n < params.length) : ThreadSampled (state.threads n) := by
  obtain ⟨th, isThread⟩ : ∃ th, params[n]? = some th := ⟨_, List.getElem?_eq_getElem below⟩
  obtain ⟨measure, _⟩ := (createThreads_frame created).2.2 th (List.mem_of_getElem? isThread)
  refine jobSystem_thread ThreadSampled isThread threadSampled_initial
    (fun _ _ _ _ before step => threadSampled_step ?_ before step) reached
  rw [measure, measured]

/-- Some histogram has an entry exactly when some thread has recorded an operation. -/
theorem hasSamples_iff (created : job.createThreads opened = some params)
    (measured : job.measureLatency = true) (reached : Reachable (job.system dist params) state) :
    (state.jobResults params).HasSamples ↔ state.recordedTotal params ≠ 0 := by
  have each : ∀ n, n < params.length → ThreadSampled (state.threads n) :=
    fun n below => threadSampled_reachable created measured reached below
  unfold JobResults.HasSamples JobState.recordedTotal
  rw [jobResults_targetResults, Ne, List.sum_eq_zero_iff]
  constructor
  · rintro ⟨r, member, hasEntry⟩ none
    obtain ⟨n, inRange, isResult⟩ := List.mem_flatMap.mp member
    have some := (each n (List.mem_range.mp inRange)).recorded.mp ⟨r, isResult, hasEntry⟩
    exact some (List.length_eq_zero_iff.mp (none _ (List.mem_map_of_mem inRange)))
  · intro some
    simp only [List.forall_mem_map, not_forall] at some
    obtain ⟨n, inRange, recorded⟩ := some
    obtain ⟨r, isResult, hasEntry⟩ := (each n (List.mem_range.mp inRange)).recorded.mpr
      fun none => recorded (List.length_eq_zero_iff.mpr none)
    exact ⟨r, List.mem_flatMap.mpr ⟨n, inRange, isResult⟩, hasEntry⟩

/-- **The output of a job completes exactly when** it does not measure latency or a thread has
recorded an operation. -/
theorem outputResults_iff (created : job.createThreads opened = some params)
    (reached : Reachable (job.system dist params) state) :
    Completes (outputResults job (state.jobResults params)) ↔
      job.measureLatency = false ∨ state.recordedTotal params ≠ 0 := by
  rw [outputResults_completes_iff]
  · refine or_congr_right' fun measured => hasSamples_iff created ?_ reached
    exact eq_true_of_ne_false measured
  · intro measured r member
    rw [jobResults_targetResults] at member
    obtain ⟨n, inRange, isResult⟩ := List.mem_flatMap.mp member
    exact (threadSampled_reachable created measured reached
      (List.mem_range.mp inRange)).sampled r isResult

end Job

/-! ### A thread that records nothing -/

/-- The phases before the work loop. -/
def Phase.starting : Phase → Bool
  | .start _ | .issue _ _ _ | .advance _ _ _ | .submit => true
  | .work | .ended | .aborted => false

/-- Nothing is recorded before the work loop. -/
theorem recorded_starting {Op Engine : Type} [IAsyncIop Op] {dist : UniformInt Engine}
    {targets : List Target} {params : List ThreadParams} {n : Nat} {th : ThreadParams}
    (isThread : params[n]? = some th) {state : JobState Op Engine}
    (reached : Reachable (jobSystem Op dist targets params) state) :
    (state.threads n).phase.starting = true → (state.threads n).recorded = [] := by
  refine jobSystem_thread (fun s => s.phase.starting = true → s.recorded = []) isThread
    (fun _ _ => rfl) (fun _ s _ s' before step starting => ?_) reached
  cases step with
  | startOffset phase => exact before (by rw [phase]; rfl)
  | construct phase => exact before (by rw [phase]; rfl)
  | advance phase => exact before (by rw [phase]; rfl)
  | targetsDone phase => exact before (by rw [phase]; rfl)
  | overlapDone phase => exact before (by rw [phase]; rfl)
  | submit phase =>
    rw [ThreadState.afterSubmit_recorded]
    exact before (by rw [phase]; rfl)
  | throttle => exact before starting
  | leave => cases starting
  | waitLast => cases starting
  | fail => cases starting
  | complete =>
    unfold ThreadState.afterSubmit at starting
    split_ifs at starting <;> cases starting

/-- **A thread can end without a recorded operation.** -/
theorem reach_ended (Op : Type) {Engine : Type} [IAsyncIop Op] (dist : UniformInt Engine)
    {th : ThreadParams} (can : ∀ tData ∈ th.targets, tData.target.CanIssue) (targets : List Target)
    (engine : Engine) :
    ∃ state, Reachable (jobSystem Op dist targets [th]) state ∧
      (state.threads 0).phase = .ended ∧ state.recordedTotal [th] = 0 := by
  have isThread : [th][0]? = some th := rfl
  obtain ⟨state, reached, phase, _⟩ := reach_start Op dist can targets isThread engine le_rfl
  have recorded := recorded_starting rfl reached (by rw [phase]; rfl)
  have leave : Step dist th state.interlocked (state.threads 0).submit state.interlocked
      { (state.threads 0).submit with phase := .ended } := .leave rfl
  refine ⟨_, threadRun_reachable reached rfl
    ((run_submit state.interlocked (state.threads 0) phase).trans (threadRun_step leave)), ?_, ?_⟩
  · simp only [Function.update_self]
  · unfold JobState.recordedTotal
    refine List.sum_eq_zero fun count member => ?_
    obtain ⟨n, inRange, rfl⟩ := List.mem_map.mp member
    have first : n = 0 := Nat.lt_one_iff.mp (List.mem_range.mp inRange)
    subst first
    simp only [Function.update_self]
    exact List.length_eq_zero_iff.mpr recorded

/-- With `-L`, the output fails when the thread has ended and no operation was recorded. -/
theorem latencyJob_not_printed :
    parseCommandLine [(.option 'L', none), (.option 'o', some "1".toList),
        (.keyArg, some "f".toList)] (fun _ => .file 65536) = .ok latencyJob ∧
      latencyJob.createThreads (fun _ _ => ⟨3, 0, 0⟩) = some [latencyThread] ∧
      ∃ (state : JobState latencyJob.ioManager.Op Unit),
        Reachable (latencyJob.system (fun a _ engine => (a, engine)) [latencyThread]) state ∧
        (state.threads 0).phase = .ended ∧
        ¬ Completes (outputResults latencyJob (state.jobResults [latencyThread])) := by
  have created : latencyJob.createThreads (fun _ _ => ⟨3, 0, 0⟩) = some [latencyThread] := rfl
  refine ⟨rfl, created, ?_⟩
  have can : ∀ tData ∈ latencyThread.targets, tData.target.CanIssue :=
    fun tData member => .of_sequential (by rw [List.mem_singleton.mp member]; rfl)
  obtain ⟨state, reached, ended, none⟩ := reach_ended latencyJob.ioManager.Op
    (fun a _ engine => (a, engine)) can latencyJob.targets ()
  refine ⟨state, reached, ended, fun printed => ?_⟩
  rw [outputResults_completes_iff fun measured r member => ?_] at printed
  · exact (hasSamples_iff created rfl reached).mp (printed.resolve_left nofun) none
  · rw [jobResults_targetResults] at member
    obtain ⟨n, inRange, isResult⟩ := List.mem_flatMap.mp member
    exact (threadSampled_reachable created measured reached
      (List.mem_range.mp inRange)).sampled r isResult

/-- With one recorded operation it completes. -/
theorem latencyJob_printed :
    ∃ (state : JobState latencyJob.ioManager.Op Unit),
      Reachable (latencyJob.system (fun a _ engine => (a, engine)) [latencyThread]) state ∧
      Completes (outputResults latencyJob (state.jobResults [latencyThread])) := by
  obtain ⟨state, reached, r, recorded, _⟩ := latencyJob_run 5
  have isReached : Reachable (latencyJob.system (fun a _ engine => (a, engine)) [latencyThread])
    state := reached
  have created : latencyJob.createThreads (fun _ _ => ⟨3, 0, 0⟩) = some [latencyThread] := rfl
  refine ⟨state, isReached, (outputResults_iff created isReached).mpr (Or.inr ?_)⟩
  show (state.threads 0).recorded.length + 0 ≠ 0
  rw [recorded]
  exact Nat.one_ne_zero

end DiskSpd
