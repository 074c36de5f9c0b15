/-
**The tables that are printed.**

* `mapM_forall₂` — the rounds of a computation over a list that completes.
* `cells`, `JobState.recordedOf` — the rows of the tables: each thread with each of its targets, and how
  many operations the thread has recorded for it.
* `TableRight`, `run_tables` — whatever the threads and the engine do, the three tables count each recorded
  operation once, its bytes with it, and their last rows add the others up.
* `percentileTable_ascends` — the columns of the percentile table ascend.
-/

import DiskSpd.Proof.HistogramStatistics
import DiskSpd.Proof.ResultOutput
import DiskSpd.Proof.Run

namespace DiskSpd

open Histogram Transition

/-! ### Rows -/

section Rows

variable {ε α β γ : Type}

/-- The rounds of a computation that completes. -/
theorem mapM_forall₂ {f : α → Except ε β} {xs : List α} {ys : List β} (done : xs.mapM f = .ok ys) :
    List.Forall₂ (fun x y => f x = .ok y) xs ys := by
  induction xs generalizing ys with
  | nil =>
    cases done
    exact .nil
  | cons x xs ih =>
    rw [List.mapM_cons] at done
    obtain ⟨y, first, done⟩ := bind_ok.mp done
    obtain ⟨rest, others, done⟩ := bind_ok.mp done
    cases done
    exact .cons first (ih others)

/-- What each round computes of its item. -/
theorem forall₂_map_eq {R : α → β → Prop} {g : β → γ} {h : α → γ} (each : ∀ x y, R x y → g y = h x)
    {xs : List α} {ys : List β} (all : List.Forall₂ R xs ys) : ys.map g = xs.map h := by
  induction all with
  | nil => rfl
  | cons here _ ih => rw [List.map_cons, List.map_cons, each _ _ here, ih]

/-- A running total of 64 bits. -/
theorem foldl_add_toNat (f : α → UInt64) (xs : List α) (total : UInt64) :
    (xs.foldl (fun total x => total + f x) total).toNat =
      (total.toNat + (xs.map fun x => (f x).toNat).sum) % 2 ^ 64 := by
  induction xs generalizing total with
  | nil =>
    rw [List.foldl_nil, List.map_nil, List.sum_nil, Nat.add_zero, Nat.mod_eq_of_lt total.toNat_lt]
  | cons x xs ih =>
    rw [List.foldl_cons, ih, List.map_cons, List.sum_cons, UInt64.toNat_add, Nat.mod_add_mod,
      Nat.add_assoc]

end Rows

/-- The counters of a row are printed as they are. -/
theorem iopsRow_counters {options : JobOptions} {bytes iops : UInt64} {bucketizer : IoBucketizer}
    {histogram : Histogram UInt64} {row : IopsRow}
    (printed : iopsRow options bytes iops bucketizer histogram = .ok row) :
    row.iops = iops ∧ row.bytes = bytes := by
  unfold iopsRow at printed
  dsimp only at printed
  split at printed
  · cases columns : latencyColumns histogram with
    | error error =>
      rw [columns] at printed
      cases printed
    | ok columns' =>
      rw [columns] at printed
      cases printed
      exact ⟨rfl, rfl⟩
  · cases printed
    exact ⟨rfl, rfl⟩

/-- **The counters of a table**: those of the results, and their totals modulo 2^64. -/
theorem printIops_counters {options : JobOptions} {t : ReportType} {results : JobResults}
    {table : List IopsRow × IopsRow} (printed : printIops options t results = .ok table) :
    table.1.map (fun row => (row.iops, row.bytes)) =
        results.targetResults.map (fun r => (r.iopsOf t, r.bytesOf t)) ∧
      table.2.iops.toNat = (results.targetResults.map fun r => (r.iopsOf t).toNat).sum % 2 ^ 64 ∧
      table.2.bytes.toNat =
        (results.targetResults.map fun r => (r.bytesOf t).toNat).sum % 2 ^ 64 := by
  unfold printIops at printed
  obtain ⟨rows, isRows, printed⟩ := bind_ok.mp printed
  obtain ⟨total, isTotal, printed⟩ := bind_ok.mp printed
  cases printed
  obtain ⟨iops, bytes⟩ := iopsRow_counters isTotal
  refine ⟨?_, ?_, ?_⟩
  · refine forall₂_map_eq (fun r row isRow => ?_) (mapM_forall₂ isRows)
    obtain ⟨iops, bytes⟩ := iopsRow_counters isRow
    rw [iops, bytes]
  · rw [iops]
    unfold printIopsCount JobResults.targetResults
    rw [← List.foldl_flatMap, foldl_add_toNat]
    show (0 + _) % _ = _
    rw [Nat.zero_add]
  · rw [bytes]
    unfold printIopsBytes JobResults.targetResults
    rw [← List.foldl_flatMap, foldl_add_toNat]
    show (0 + _) % _ = _
    rw [Nat.zero_add]

/-! ### What the threads have recorded -/

/-- A row of the tables: a thread and one of its targets. -/
structure Cell where
  thread : Nat
  target : Nat
  blockSize : UInt64

/-- The rows of the tables, in their order. -/
def cells (params : List ThreadParams) : List Cell :=
  params.zipIdx.flatMap fun thread => thread.1.targets.zipIdx.map fun entry =>
    ⟨thread.2, entry.2, entry.1.target.blockSize⟩

/-- How many operations a thread has recorded for a target, of those a table is about. -/
def JobState.recordedOf {Op Engine : Type} (state : JobState Op Engine) (t : ReportType)
    (cell : Cell) : Nat :=
  let as := fun type => (state.threads cell.thread).recordedAs cell.target type
  match t with
  | .read => as .read
  | .write => as .write
  | .rw => as .read + as .write

section Recorded

variable {Op Engine : Type} [IAsyncIop Op] {dist : UniformInt Engine} {targets : List Target}
  {params : List ThreadParams} {state : JobState Op Engine} {k : Nat} {th : ThreadParams}

/-- A thread has the results of each of its targets. -/
theorem results_length (reached : Reachable (jobSystem Op dist targets params) state)
    (isThread : params[k]? = some th) : (state.threads k).results.length = th.targets.length := by
  refine jobSystem_thread (fun s => s.results.length = th.targets.length) isThread
    (fun _ => List.length_map _) (fun _ s _ s' before step => ?_) reached
  cases step with
  | submit => rw [ThreadState.afterSubmit_results, before]
  | complete _ _ _ _ _ _ _ _ _ done =>
    rw [ThreadState.afterSubmit_results]
    rcases ThreadState.record_cases done with ⟨_, rfl⟩ | ⟨_, _, _, _, _, rfl⟩
    · exact before
    · exact List.length_set.trans before
  | _ => exact before

/-- The counters that a table reads, of results that hold a number of reads and of writes. -/
theorem Tallies.counters {blockSize : UInt64} {reads writes : Nat} {results : TargetResults}
    (tallies : Tallies blockSize reads writes results) (t : ReportType) :
    (results.iopsOf t, results.bytesOf t) =
      (UInt64.ofNat (tallySelected t (reads, writes)),
        blockSize * UInt64.ofNat (tallySelected t (reads, writes))) := by
  cases t with
  | read => exact Prod.ext tallies.readIops tallies.readBytes
  | write => exact Prod.ext tallies.writeIops tallies.writeBytes
  | rw => exact Prod.ext tallies.iops tallies.bytes

/-- **The counters of the results**, row by row. -/
theorem cells_counters [LawfulIop Op] (reached : Reachable (jobSystem Op dist targets params) state)
    (t : ReportType) :
    (state.jobResults params).targetResults.map (fun r => (r.iopsOf t, r.bytesOf t)) =
      (cells params).map fun cell => (UInt64.ofNat (state.recordedOf t cell),
        cell.blockSize * UInt64.ofNat (state.recordedOf t cell)) := by
  have rows : List.range params.length = params.zipIdx.map (·.2) := by
    rw [List.zipIdx_map_snd, List.range_eq_range']
  rw [jobResults_targetResults, cells, List.map_flatMap, List.map_flatMap, rows, List.flatMap_map]
  refine List.flatMap_congr fun thread member => ?_
  have isThread : params[thread.2]? = some thread.1 := List.mem_zipIdx_iff_getElem?.mp member
  have results := (accountInv_reachable reached isThread).results
  have length := results_length reached isThread
  refine List.ext_getElem? fun i => ?_
  simp only [List.getElem?_map, List.getElem?_zipIdx, Option.map_map]
  cases found : thread.1.targets[i]? with
  | none =>
    rw [List.getElem?_eq_none_iff] at found
    rw [List.getElem?_eq_none_iff.mpr (length.trans_le found)]
    rfl
  | some tData =>
    obtain ⟨r, isResult, tallies⟩ := results i tData found
    rw [isResult, Option.map_some, tallies.counters t]
    simp only [Option.map_some, Function.comp_apply, Nat.zero_add]
    cases t <;> rfl

/-- A table counts each recorded operation once, with its bytes, and its last row adds the others up. -/
structure TableRight (params : List ThreadParams) (state : JobState Op Engine) (t : ReportType)
    (table : List IopsRow × IopsRow) : Prop where
  rows : table.1.map (fun row => (row.iops, row.bytes)) =
    (cells params).map fun cell => (UInt64.ofNat (state.recordedOf t cell),
      cell.blockSize * UInt64.ofNat (state.recordedOf t cell))
  iops : table.2.iops.toNat = ((cells params).map (state.recordedOf t)).sum % 2 ^ 64
  bytes : table.2.bytes.toNat =
    ((cells params).map fun cell => cell.blockSize.toNat * state.recordedOf t cell).sum % 2 ^ 64

theorem tableRight [LawfulIop Op] (reached : Reachable (jobSystem Op dist targets params) state)
    {options : JobOptions} {t : ReportType} {table : List IopsRow × IopsRow}
    (printed : printIops options t (state.jobResults params) = .ok table) :
    TableRight params state t table := by
  have counters := cells_counters reached t
  obtain ⟨rows, iops, bytes⟩ := printIops_counters printed
  have count : (state.jobResults params).targetResults.map (fun r => (r.iopsOf t).toNat) =
      ((cells params).map (state.recordedOf t)).map (· % 2 ^ 64) := by
    have first := congrArg (List.map fun pair : UInt64 × UInt64 => pair.1.toNat) counters
    rw [List.map_map, List.map_map] at first
    rw [List.map_map]
    refine first.trans (List.map_congr_left fun cell _ => ?_)
    exact UInt64.toNat_ofNat'
  have size : (state.jobResults params).targetResults.map (fun r => (r.bytesOf t).toNat) =
      ((cells params).map fun cell => cell.blockSize.toNat * state.recordedOf t cell).map
        (· % 2 ^ 64) := by
    have second := congrArg (List.map fun pair : UInt64 × UInt64 => pair.2.toNat) counters
    rw [List.map_map, List.map_map] at second
    rw [List.map_map]
    refine second.trans (List.map_congr_left fun cell _ => ?_)
    simp only [Function.comp_apply, UInt64.toNat_mul, UInt64.toNat_ofNat', Nat.mul_mod_mod]
  exact ⟨rows.trans counters, by rw [iops, count, ← List.sum_nat_mod],
    by rw [bytes, size, ← List.sum_nat_mod]⟩

end Recorded

section Run

variable {Engine : Type} {job : JobOptions} {opened : UInt32 → Nat → JobOptions.Opened}
  {params : List ThreadParams} {dist : UniformInt Engine}
  {s : Waits × WorkState job.ioManager.manager Engine} {output : Output}

/-- The threads over their engine have the results of the threads they stand for. -/
theorem StandsFor.jobResults {a : JobState job.ioManager.Op Engine}
    (standsFor : ∀ k th, params[k]? = some th → StandsFor th s.2 k (a.threads k)) :
    s.2.jobResults params = a.jobResults params := by
  unfold WorkState.jobResults JobState.jobResults
  congr 1
  refine List.ext_getElem? fun k => ?_
  rw [List.getElem?_mapIdx, List.getElem?_mapIdx]
  cases isThread : params[k]? with
  | none => rfl
  | some th => rw [Option.map_some, Option.map_some, (standsFor k th isThread).results]

/-- **What the tables of a run print.** In each state of a run, the results of the threads are those of
threads that have recorded some operations, and the tables count these operations. -/
theorem run_tables (created : job.createThreads opened = some params)
    (reached : Reachable (job.runSystem dist params) s)
    (printed : outputResults job (s.2.jobResults params) = .ok output) :
    ∃ a, Reachable (job.system dist params) a ∧
      (∀ k th, params[k]? = some th → StandsFor th s.2 k (a.threads k)) ∧
      TableRight params a .rw output.totalIo ∧ TableRight params a .read output.readIo ∧
      TableRight params a .write output.writeIo := by
  obtain ⟨a, isReached, standsFor⟩ := jobWork_alone created reached.snd
  rw [StandsFor.jobResults standsFor] at printed
  unfold outputResults at printed
  obtain ⟨totalIo, isTotal, printed⟩ := bind_ok.mp printed
  obtain ⟨readIo, isRead, printed⟩ := bind_ok.mp printed
  obtain ⟨writeIo, isWrite, printed⟩ := bind_ok.mp printed
  obtain ⟨percentiles, _, printed⟩ := bind_ok.mp printed
  cases printed
  exact ⟨a, isReached, standsFor, tableRight isReached isTotal, tableRight isReached isRead,
    tableRight isReached isWrite⟩

end Run

/-- What the run of two threads prints: one read of the first, and one write of the second. -/
theorem pairJob_tables : ∃ (s : Waits × WorkState pairJob.ioManager.manager Int32) (output : Output)
    (a : JobState pairJob.ioManager.Op Int32),
    s.1.job = .passed ∧ outputResults pairJob (s.2.jobResults pairThreads) = .ok output ∧
      output.totalIo.1.map (·.iops) = [1, 1] ∧ output.readIo.1.map (·.iops) = [1, 0] ∧
      output.writeIo.1.map (·.iops) = [0, 1] ∧ output.totalIo.2.bytes = 131072 ∧
      TableRight pairThreads a .rw output.totalIo ∧ TableRight pairThreads a .read output.readIo ∧
      TableRight pairThreads a .write output.writeIo := by
  obtain ⟨_, _, s, _, _, reached, passed, _, _, read, write, _⟩ := pairJob_passes
  have results : s.2.jobResults pairThreads = {
      threadResults := [
        { threadId := 0, targetResults := [pairResults .read] },
        { threadId := 1, targetResults := [pairResults .write] }] } := by
    show ({ threadResults := [_, _] } : JobResults) = _
    rw [← read, ← write]
    rfl
  obtain ⟨output, printed, all, reads, writes, total⟩ :
      ∃ output, outputResults pairJob (s.2.jobResults pairThreads) = .ok output ∧
        output.totalIo.1.map (·.iops) = [1, 1] ∧ output.readIo.1.map (·.iops) = [1, 0] ∧
        output.writeIo.1.map (·.iops) = [0, 1] ∧ output.totalIo.2.bytes = 131072 := by
    rw [results]
    exact ⟨_, rfl, rfl, rfl, rfl, rfl⟩
  obtain ⟨a, _, _, totalIo, readIo, writeIo⟩ := run_tables pairJob_created reached printed
  exact ⟨s, output, a, passed, printed, all, reads, writes, total, totalIo, readIo, writeIo⟩

/-! ### The percentile table -/

/-- What a column holds of a number of samples: one of them, at least a part of them not above it. -/
def Ranks (s : Multiset UInt64) (p : ℚ) (v : UInt64) : Prop :=
  IsLeast {x | x ∈ s ∧ p * s.card ≤ s.countP (· ≤ x)} v

/-- A column that says `N/A` when there are no samples. -/
def Prints (s : Multiset UInt64) (p : ℚ) (column : Option UInt64) : Prop :=
  (column = none ↔ s = 0) ∧ ∀ v, column = some v → Ranks s p v

/-- A row of the table. -/
structure PercentileRow.Ranked (reads writes all : Multiset UInt64) (p : ℚ)
    (row : PercentileRow) : Prop where
  read : Prints reads p row.read
  write : Prints writes p row.write
  total : Ranks all p row.total

/-- The columns of a row are not above those of a later one. -/
structure PercentileRow.Below (row later : PercentileRow) : Prop where
  read : ∀ v v', row.read = some v → later.read = some v' → v ≤ v'
  write : ∀ v v', row.write = some v → later.write = some v' → v ≤ v'
  total : row.total ≤ later.total

/-- The ranks of the rows: those of the percentiles, between the one of the minimum and the one of the
maximum. -/
def tableRanks : List ℚ :=
  0 :: percentiles.map (·.1) ++ [1]

theorem tableRanks_ascend : tableRanks.Pairwise (· ≤ ·) := by
  unfold tableRanks percentiles
  simp only [List.map_cons, List.map_nil, List.cons_append, List.nil_append, List.pairwise_cons,
    List.forall_mem_cons]
  norm_num

section Percentiles

variable {h : Histogram UInt64} {s reads writes all : Multiset UInt64} {p q : ℚ}

theorem Ranks.mono {v w : UInt64} (ranks : Ranks s p v) (later : Ranks s q w) (le : p ≤ q) :
    v ≤ w := by
  refine ranks.2 ⟨later.1.1, le_trans ?_ later.1.2⟩
  exact mul_le_mul_of_nonneg_right le (Nat.cast_nonneg _)

theorem PercentileRow.Ranked.below {row later : PercentileRow}
    (ranked : row.Ranked reads writes all p) (ranked' : later.Ranked reads writes all q)
    (le : p ≤ q) : row.Below later :=
  ⟨fun v v' isV isV' => (ranked.read.2 v isV).mono (ranked'.read.2 v' isV') le,
    fun v v' isV isV' => (ranked.write.2 v isV).mono (ranked'.write.2 v' isV') le,
    ranked.total.mono ranked'.total le⟩

/-- The least sample has the rank 0. -/
theorem getMin_ranks (holds : h.Holds s) (nonempty : s ≠ 0) :
    Ranks s 0 (Histogram.getMin h.data.entries) := by
  obtain ⟨isSample, least⟩ := holds.getMin_isLeast nonempty (.refl _)
  refine ⟨⟨isSample, ?_⟩, fun x inside => least inside.1⟩
  rw [zero_mul]
  exact Nat.cast_nonneg _

/-- The greatest one has the rank 1: all samples are not above it. -/
theorem getMax_ranks (holds : h.Holds s) (nonempty : s ≠ 0) :
    Ranks s 1 (Histogram.getMax h.data.entries) := by
  obtain ⟨isSample, greatest⟩ := holds.getMax_isGreatest nonempty (.refl _)
  refine ⟨⟨isSample, ?_⟩, fun x inside => ?_⟩
  · rw [one_mul, Multiset.countP_eq_card.mpr greatest]
  · have rank := inside.2
    rw [one_mul, Nat.cast_le] at rank
    exact Multiset.countP_eq_card.mp (le_antisymm (Multiset.countP_le_card _ _) rank) _ isSample

/-- A histogram has a number of samples exactly when it holds some. -/
theorem hasSamples_of_holds (holds : h.Holds s) (small : s.card < 2 ^ 32) :
    (0 < h.getSampleSize) ↔ s ≠ 0 := by
  have size := holds.sampleSize small
  rw [UInt32.lt_iff_toNat_lt, size, ← Multiset.card_pos]
  rfl

/-- A guarded column of a percentile. -/
theorem guardedPercentile_prints (holds : h.Holds s) (small : s.card < 2 ^ 32)
    {found : Option UInt64}
    (printed : LatencyHistograms.guardedPercentile (0 < h.getSampleSize) h p = .ok found) :
    Prints s p found := by
  have has := hasSamples_of_holds holds small
  unfold LatencyHistograms.guardedPercentile at printed
  by_cases nonempty : s = 0
  · rw [if_neg (by rw [decide_eq_true_eq, has, not_not]; exact nonempty)] at printed
    cases printed
    exact ⟨⟨fun _ => nonempty, fun _ => rfl⟩, fun v isV => by cases isV⟩
  · rw [if_pos (by rw [decide_eq_true_eq, has]; exact nonempty)] at printed
    cases isOk : h.getPercentile h.data.entries p with
    | error error =>
      rw [isOk] at printed
      cases printed
    | ok w =>
      rw [isOk] at printed
      cases printed
      refine ⟨⟨fun isNone => (by cases isNone), fun isNone => absurd isNone nonempty⟩, fun v isV => ?_⟩
      cases isV
      exact holds.getPercentile_isLeast small (.refl _) isOk

/-- A guarded column of an extreme. -/
theorem guarded_prints (holds : h.Holds s) (small : s.card < 2 ^ 32) {v : UInt64}
    (ranks : s ≠ 0 → Ranks s p v) :
    Prints s p (if decide (0 < h.getSampleSize) = true then some v else none) := by
  have has := hasSamples_of_holds holds small
  by_cases nonempty : s = 0
  · rw [if_neg (by rw [decide_eq_true_eq, has, not_not]; exact nonempty)]
    exact ⟨⟨fun _ => nonempty, fun _ => rfl⟩, fun v isV => by cases isV⟩
  · rw [if_pos (by rw [decide_eq_true_eq, has]; exact nonempty)]
    refine ⟨⟨fun isNone => (by cases isNone), fun isNone => absurd isNone nonempty⟩, fun v isV => ?_⟩
    cases isV
    exact ranks nonempty

variable {histograms : LatencyHistograms}

/-- The histograms of the table hold these samples, fewer than 2^32 each. -/
structure LatencyHistograms.Hold (histograms : LatencyHistograms)
    (reads writes all : Multiset UInt64) : Prop where
  read : histograms.read.Holds reads
  write : histograms.write.Holds writes
  total : histograms.total.Holds all
  fewReads : reads.card < 2 ^ 32
  fewWrites : writes.card < 2 ^ 32
  few : all.card < 2 ^ 32

theorem percentileRow_ranked (hold : histograms.Hold reads writes all) {p : ℚ × String}
    {row : PercentileRow} (printed : histograms.percentileRow p = .ok row) :
    row.Ranked reads writes all p.1 := by
  unfold LatencyHistograms.percentileRow at printed
  obtain ⟨read, isRead, printed⟩ := bind_ok.mp printed
  obtain ⟨write, isWrite, printed⟩ := bind_ok.mp printed
  obtain ⟨total, isTotal, printed⟩ := bind_ok.mp printed
  cases printed
  exact ⟨guardedPercentile_prints hold.read hold.fewReads isRead,
    guardedPercentile_prints hold.write hold.fewWrites isWrite,
    hold.total.getPercentile_isLeast hold.few (.refl _) isTotal⟩

theorem extremeRow_ranked (hold : histograms.Hold reads writes all) (nonempty : all ≠ 0)
    {name : String} {extreme : Histogram.Entries UInt64 → UInt64}
    (ranks : ∀ {h : Histogram UInt64} {s : Multiset UInt64}, h.Holds s → s ≠ 0 →
      Ranks s p (extreme h.data.entries)) :
    (histograms.extremeRow name extreme).Ranked reads writes all p :=
  ⟨guarded_prints hold.read hold.fewReads (ranks hold.read),
    guarded_prints hold.write hold.fewWrites (ranks hold.write), ranks hold.total nonempty⟩

/-- **The rows of the table**, in the order of their ranks. -/
theorem table_ranked (hold : histograms.Hold reads writes all) {rows : List PercentileRow}
    (printed : histograms.table = .ok rows) :
    List.Forall₂ (fun p row => row.Ranked reads writes all p) tableRanks rows := by
  have nonempty : all ≠ 0 :=
    (LatencyHistograms.table_completes_iff hold.read hold.write hold.total).mp ⟨rows, printed⟩
  unfold LatencyHistograms.table at printed
  obtain ⟨middle, isMiddle, printed⟩ := bind_ok.mp printed
  cases printed
  have ranked : List.Forall₂ (fun p row => row.Ranked reads writes all p)
      (percentiles.map (·.1)) middle :=
    List.forall₂_map_left_iff.mpr
      ((mapM_forall₂ isMiddle).imp fun _ _ isRow => percentileRow_ranked hold isRow)
  have last : List.Forall₂ (fun p row => row.Ranked reads writes all p) [1]
      [histograms.extremeRow "max" Histogram.getMax] :=
    .cons (extremeRow_ranked hold nonempty getMax_ranks) .nil
  exact .cons (extremeRow_ranked hold nonempty getMin_ranks) (List.rel_append ranked last)

/-- An order of the items is one of what is computed of them. -/
theorem forall₂_pairwise {α β : Type} {R : α → β → Prop} {P : α → α → Prop} {Q : β → β → Prop}
    (each : ∀ x x' y y', P x x' → R x y → R x' y' → Q y y') {xs : List α} {ys : List β}
    (both : List.Forall₂ R xs ys) (ordered : xs.Pairwise P) : ys.Pairwise Q := by
  induction both with
  | nil => exact .nil
  | @cons x y xs ys here rest ih =>
    obtain ⟨first, others⟩ := List.pairwise_cons.mp ordered
    refine List.pairwise_cons.mpr ⟨fun y' member => ?_, ih others⟩
    obtain ⟨i, below, rfl⟩ := List.mem_iff_getElem.mp member
    have below' : i < xs.length := rest.length_eq.symm ▸ below
    exact each _ _ _ _ (first _ (List.getElem_mem below')) here (rest.get below' below)

variable {options : JobOptions} {results : JobResults} {samples : TargetResults → Latencies}

/-- The subtotals hold the samples of their direction. -/
theorem subtotals_exactly (list : List TargetResults)
    (recorded : ∀ r ∈ list, r.Recorded (samples r)) (histograms : LatencyHistograms)
    (holdsReads : histograms.read.Holds reads) (holdsWrites : histograms.write.Holds writes) :
    (list.foldl LatencyHistograms.accumulate histograms).read.Holds
        (reads + (list.map fun r => (samples r).reads).sum) ∧
      (list.foldl LatencyHistograms.accumulate histograms).write.Holds
        (writes + (list.map fun r => (samples r).writes).sum) := by
  induction list generalizing histograms reads writes with
  | nil =>
    simp only [List.map_nil, List.sum_nil, add_zero]
    exact ⟨holdsReads, holdsWrites⟩
  | cons r rest ih =>
    have here := recorded r List.mem_cons_self
    simp only [List.map_cons, List.sum_cons, ← add_assoc]
    exact ih (fun r' member => recorded r' (List.mem_cons_of_mem _ member)) _
      (holdsReads.merge here.reads) (holdsWrites.merge here.writes)

/-- The table that is printed is that of the histograms. -/
theorem percentileTable_some {histograms : LatencyHistograms} {table : Option (List PercentileRow)}
    (isOutput : outputHistograms options results = some histograms)
    (printed : percentileTable options results = .ok table) :
    ∃ rows, table = some rows ∧ histograms.table = .ok rows := by
  unfold percentileTable at printed
  rw [isOutput] at printed
  dsimp only at printed
  cases isTable : histograms.table with
  | error error =>
    rw [isTable] at printed
    cases printed
  | ok rows =>
    rw [isTable] at printed
    cases printed
    exact ⟨rows, rfl, rfl⟩

/-- **The percentile table**, in exact arithmetic. While the samples that the last column counts, the
repeated ones with them, fit into 32 bits, each row holds the ranks of the samples of its columns, `N/A`
stands exactly where there are none, and the columns ascend from the minima to the maxima. -/
theorem percentileTable_ascends (recorded : ∀ r ∈ results.targetResults, r.Recorded (samples r))
    {all : Multiset UInt64}
    (isAll : all = (results.targetResults.map fun r => (samples r).selected .rw).sum +
      RunningTotal.excess (results.targetResults.map fun r => (samples r).selected .rw))
    (few : all.card < 2 ^ 32) {rows : List PercentileRow}
    (printed : percentileTable options results = .ok (some rows)) :
    List.Forall₂ (fun p row => row.Ranked (results.targetResults.map fun r => (samples r).reads).sum
        (results.targetResults.map fun r => (samples r).writes).sum all p) tableRanks rows ∧
      rows.Pairwise PercentileRow.Below := by
  have measured : options.measureLatency = true := by
    by_contra unmeasured
    unfold percentileTable outputHistograms at printed
    rw [if_pos (by rw [Bool.not_eq_true] at unmeasured; rw [unmeasured]; rfl)] at printed
    cases printed
  obtain ⟨histograms, isOutput, holdsTotal⟩ := outputHistograms_holds measured results recorded
  have folded : histograms = results.targetResults.foldl LatencyHistograms.accumulate {} := by
    unfold outputHistograms at isOutput
    rw [measured] at isOutput
    unfold JobResults.targetResults
    rw [List.foldl_flatMap]
    exact (Option.some.inj isOutput).symm
  obtain ⟨holdsReads, holdsWrites⟩ :=
    subtotals_exactly results.targetResults recorded {} Holds.empty Holds.empty
  rw [← folded, zero_add] at holdsReads holdsWrites
  rw [← isAll] at holdsTotal
  have parts : (results.targetResults.map fun r => (samples r).reads).sum.card +
      (results.targetResults.map fun r => (samples r).writes).sum.card ≤ all.card := by
    rw [isAll, ← Multiset.card_add, ← List.sum_map_add, Multiset.card_add]
    exact Nat.le_add_right _ _
  have hold : histograms.Hold _ _ all :=
    ⟨holdsReads, holdsWrites, holdsTotal, by omega, by omega, few⟩
  obtain ⟨table, isTable, made⟩ := percentileTable_some isOutput printed
  cases isTable
  have ranked := table_ranked hold made
  exact ⟨ranked, forall₂_pairwise (fun _ _ _ _ le here later => here.below later le) ranked
    tableRanks_ascend⟩

end Percentiles

/-- Two threads with samples: the last column counts those of the first twice. -/
def busyThreads : JobResults where
  threadResults := [⟨0, [busyTarget]⟩, ⟨1, [oneRead]⟩]

theorem busyThreads_recorded : ∀ r ∈ busyThreads.targetResults, r.Recorded (busySamples r) := by
  intro r member
  rcases List.mem_cons.mp member with rfl | member
  · exact busyTarget_recorded
  · rw [List.mem_singleton.mp member]
    exact ⟨Holds.empty.add 100, Holds.empty⟩

/-- The table of three reads and a write, of which the last column counts seven. -/
theorem busyThreads_table : ∃ rows,
    percentileTable latencyOptions busyThreads = .ok (some rows) ∧
      List.Forall₂ (fun p row => PercentileRow.Ranked {100, 300, 100} {200}
        {100, 300, 200, 100, 100, 300, 200} p row) tableRanks rows ∧
      rows.Pairwise PercentileRow.Below := by
  obtain ⟨table, printed⟩ : Completes (percentileTable latencyOptions busyThreads) :=
    (percentileTable_completes_iff rfl fun r member => ⟨_, busyThreads_recorded r member⟩).mpr
      ⟨busyTarget, List.mem_cons_self, 100, Or.inl (by decide)⟩
  obtain ⟨rows, rfl⟩ : ∃ rows, table = some rows := by
    have measured : latencyOptions.measureLatency = true := rfl
    obtain ⟨_, isOutput, _⟩ := outputHistograms_holds measured busyThreads busyThreads_recorded
    obtain ⟨rows, isTable, _⟩ := percentileTable_some isOutput printed
    exact ⟨rows, isTable⟩
  have all : ({100, 300, 200, 100, 100, 300, 200} : Multiset UInt64) =
      (busyThreads.targetResults.map fun r => (busySamples r).selected .rw).sum +
        RunningTotal.excess (busyThreads.targetResults.map fun r => (busySamples r).selected .rw) := by
    decide
  exact ⟨rows, printed, percentileTable_ascends busyThreads_recorded all (by decide) printed⟩

end DiskSpd
