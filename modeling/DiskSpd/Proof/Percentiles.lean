/-
**The Total column of the percentile table.**

* `TargetResults.Recorded` — the two latency histograms of one thread on one target hold samples.
* `printIopsHistogram_holds` — `print_iops` merges each of them once: its total holds the samples of
  the chosen direction.
* `accumulate_holds` — `output_results` merges the subtotals of all results so far into the total, in
  each round: its total is that of a running total.
* `outputHistograms_total_iff` — so it holds the samples, or has the contents of the other total,
  exactly when the samples of all results but the last are lost in the 32 bits of the counters.
-/

import DiskSpd.Lib.RunningTotal
import DiskSpd.Model.ResultFormatter
import DiskSpd.Proof.Histogram

namespace DiskSpd

open Histogram RunningTotal

/-- Latency samples of one thread on one target. -/
structure Latencies where
  reads : Multiset UInt64
  writes : Multiset UInt64

/-- The samples a table is about. -/
def Latencies.selected (t : ReportType) (latencies : Latencies) : Multiset UInt64 :=
  match t with
  | .read => latencies.reads
  | .write => latencies.writes
  | .rw => latencies.reads + latencies.writes

/-- The histograms of the results hold the samples. -/
structure TargetResults.Recorded (tResult : TargetResults) (latencies : Latencies) : Prop where
  reads : tResult.readLatencyHistogram.Holds latencies.reads
  writes : tResult.writeLatencyHistogram.Holds latencies.writes

/-- The results of all threads on all targets, in the order of the loops. -/
def JobResults.targetResults (results : JobResults) : List TargetResults :=
  results.threadResults.flatMap (·.targetResults)

section Recorded

variable {options : JobOptions} {samples : TargetResults → Latencies}

/-! ### The table of the operations per second -/

theorem currHistogram_holds {tResult : TargetResults} {latencies : Latencies} (t : ReportType)
    (recorded : tResult.Recorded latencies) :
    (currHistogram t tResult).Holds (latencies.selected t) := by
  unfold currHistogram Latencies.selected
  cases t with
  | read =>
    have merged := Holds.empty.merge recorded.reads
    rwa [zero_add] at merged
  | write =>
    have merged := Holds.empty.merge recorded.writes
    rwa [zero_add] at merged
  | rw =>
    have merged := (Holds.empty.merge recorded.reads).merge recorded.writes
    rwa [zero_add] at merged

theorem foldl_currHistogram_holds {t : ReportType} (list : List TargetResults)
    (recorded : ∀ r ∈ list, r.Recorded (samples r)) {total : Histogram UInt64}
    {s : Multiset UInt64} (holds : total.Holds s) :
    (list.foldl (fun total r => total.merge (currHistogram t r)) total).Holds
      (s + (list.map fun r => (samples r).selected t).sum) := by
  induction list generalizing total s with
  | nil => rwa [List.map_nil, List.sum_nil, add_zero]
  | cons r rest ih =>
    rw [List.foldl_cons, List.map_cons, List.sum_cons, ← add_assoc]
    exact ih (fun r' member => recorded r' (List.mem_cons_of_mem _ member))
      (holds.merge (currHistogram_holds t (recorded r List.mem_cons_self)))

/-- **`print_iops` counts each sample once.** -/
theorem printIopsHistogram_holds (measured : options.measureLatency = true) (t : ReportType)
    (results : JobResults) (recorded : ∀ r ∈ results.targetResults, r.Recorded (samples r)) :
    (printIopsHistogram options t results).Holds
      (results.targetResults.map fun r => (samples r).selected t).sum := by
  have holds := foldl_currHistogram_holds (t := t) results.targetResults recorded Holds.empty
  rw [zero_add] at holds
  unfold printIopsHistogram
  simp only [measured, if_true]
  unfold JobResults.targetResults at holds
  rwa [List.foldl_flatMap] at holds

/-! ### The percentile table -/

/-- **The loops of `output_results`**: the subtotals, and the running total of both. -/
theorem accumulate_holds (list : List TargetResults)
    (recorded : ∀ r ∈ list, r.Recorded (samples r)) (histograms : LatencyHistograms)
    {reads writes total : Multiset UInt64} (holdsReads : histograms.read.Holds reads)
    (holdsWrites : histograms.write.Holds writes) (holdsTotal : histograms.total.Holds total) :
    (list.foldl LatencyHistograms.accumulate histograms).total.Holds
      ((list.map fun r => (samples r).selected .rw).foldl round (reads + writes, total)).2 := by
  induction list generalizing histograms reads writes total with
  | nil => exact holdsTotal
  | cons r rest ih =>
    have here := recorded r List.mem_cons_self
    have moreReads := holdsReads.merge here.reads
    have moreWrites := holdsWrites.merge here.writes
    have moreTotal := (holdsTotal.merge moreReads).merge moreWrites
    rw [List.foldl_cons, List.map_cons, List.foldl_cons, RunningTotal.round]
    have subtotal : reads + writes + (samples r).selected .rw =
        reads + (samples r).reads + (writes + (samples r).writes) :=
      add_add_add_comm _ _ _ _
    rw [subtotal, ← add_assoc total]
    exact ih (fun r' member => recorded r' (List.mem_cons_of_mem _ member)) _ moreReads moreWrites
      moreTotal

/-- The excess of a running total of multisets has no new members. -/
theorem mem_sum_of_mem_excess {v : UInt64} {entries : List (Multiset UInt64)}
    (member : v ∈ excess entries) : v ∈ entries.sum := by
  induction entries with
  | nil => exact member
  | cons entry rest ih =>
    rw [excess, Multiset.mem_add] at member
    rw [List.sum_cons, Multiset.mem_add]
    exact member.imp (Multiset.mem_of_mem_nsmul) ih

/-- How often a value is counted too much in the Total column. -/
def JobResults.overcount (results : JobResults) (samples : TargetResults → Latencies)
    (v : UInt64) : ℕ :=
  excess (results.targetResults.map fun r => ((samples r).selected .rw).count v)

theorem count_excess (results : JobResults) (v : UInt64) :
    (excess (results.targetResults.map fun r => (samples r).selected .rw)).count v =
      results.overcount samples v := by
  have counts := map_excess (Multiset.countAddMonoidHom v)
    (results.targetResults.map fun r => (samples r).selected .rw)
  rwa [List.map_map] at counts

/-- **`output_results` counts a sample once for its own results and once for each later ones.** -/
theorem outputHistograms_holds (measured : options.measureLatency = true) (results : JobResults)
    (recorded : ∀ r ∈ results.targetResults, r.Recorded (samples r)) :
    ∃ histograms, outputHistograms options results = some histograms ∧
      histograms.total.Holds
        ((results.targetResults.map fun r => (samples r).selected .rw).sum +
          excess (results.targetResults.map fun r => (samples r).selected .rw)) := by
  have holds := accumulate_holds results.targetResults recorded {} Holds.empty Holds.empty
    Holds.empty
  rw [foldl_round, add_zero, smul_zero, add_zero, zero_add] at holds
  dsimp only at holds
  rw [zero_add] at holds
  refine ⟨_, ?_, holds⟩
  unfold outputHistograms JobResults.targetResults
  rw [measured, List.foldl_flatMap]
  rfl

/-- **The Total column is right exactly when what it counts too much is lost in 32 bits.** -/
theorem outputHistograms_total_iff (measured : options.measureLatency = true)
    (results : JobResults) (recorded : ∀ r ∈ results.targetResults, r.Recorded (samples r)) :
    ∃ histograms, outputHistograms options results = some histograms ∧
      (histograms.total.Holds
          (results.targetResults.map fun r => (samples r).selected .rw).sum ↔
        ∀ v, 2 ^ 32 ∣ results.overcount samples v) ∧
      (histograms.total.SameContents (printIopsHistogram options .rw results) ↔
        ∀ v, 2 ^ 32 ∣ results.overcount samples v) := by
  obtain ⟨histograms, isOutput, holds⟩ := outputHistograms_holds measured results recorded
  have exactly := holds.iff_of_add fun _ member => mem_sum_of_mem_excess member
  simp only [count_excess] at exactly
  refine ⟨histograms, isOutput, exactly, ?_⟩
  rw [← (printIopsHistogram_holds measured .rw results recorded).iff_sameContents]
  exact exactly

/-- While the counters do not wrap, only the last results may hold samples. -/
theorem overcount_dvd_iff (results : JobResults) {v : UInt64}
    (small : results.overcount samples v < 2 ^ 32) :
    2 ^ 32 ∣ results.overcount samples v ↔
      ∀ r ∈ results.targetResults.dropLast, v ∉ (samples r).selected .rw := by
  have zero : 2 ^ 32 ∣ results.overcount samples v ↔ results.overcount samples v = 0 :=
    ⟨fun multiple => Nat.eq_zero_of_dvd_of_lt multiple small, fun zero => by rw [zero]; exact dvd_zero _⟩
  rw [zero, JobResults.overcount, excess_eq_zero_iff, ← List.map_dropLast]
  simp only [List.forall_mem_map, Multiset.count_eq_zero]

end Recorded

/-! ### Two threads and one -/

/-- The results of a target with one read of 100 microseconds. -/
def oneRead : TargetResults where
  iopsCount := 1
  readIopsCount := 1
  bytesCount := 65536
  readBytesCount := 65536
  readLatencyHistogram := ({} : Histogram UInt64).add 100

/-- `-L`, and the results of as many threads with one read each. -/
def latencyOptions : JobOptions where
  measureLatency := true

def oneReadSamples : TargetResults → Latencies :=
  fun _ => ⟨{100}, 0⟩

def readsOfThreads (threads : Nat) : JobResults where
  threadResults := (List.range threads).map fun id => ⟨UInt32.ofNat id, [oneRead]⟩

theorem readsOfThreads_recorded {threads : Nat} :
    ∀ r ∈ (readsOfThreads threads).targetResults, r.Recorded (oneReadSamples r) := by
  intro r member
  obtain ⟨thread, isThread, isResult⟩ := List.mem_flatMap.mp member
  obtain ⟨_, _, rfl⟩ := List.mem_map.mp isThread
  rw [List.mem_singleton.mp isResult]
  exact ⟨Holds.empty.add 100, Holds.empty⟩

/-- With two threads the first read is counted twice. -/
theorem readsOfThreads_two_total :
    (∀ r ∈ (readsOfThreads 2).targetResults, r.Recorded (oneReadSamples r)) ∧
      ∃ histograms, outputHistograms latencyOptions (readsOfThreads 2) = some histograms ∧
        ¬ histograms.total.Holds {100, 100} ∧
        ¬ histograms.total.SameContents
          (printIopsHistogram latencyOptions .rw (readsOfThreads 2)) := by
  refine ⟨readsOfThreads_recorded, _, rfl, fun holds => ?_, fun same => ?_⟩
  · exact absurd holds.samples (by decide)
  · exact absurd same.samples (by decide)

/-- The results of a target with two reads and a write. -/
def busyTarget : TargetResults where
  iopsCount := 3
  readIopsCount := 2
  writeIopsCount := 1
  bytesCount := 196608
  readBytesCount := 131072
  writeBytesCount := 65536
  readLatencyHistogram := (({} : Histogram UInt64).add 300).add 100
  writeLatencyHistogram := ({} : Histogram UInt64).add 200

/-- Only the second of two targets of a thread has got any operation done. -/
def busyLast : JobResults where
  threadResults := [⟨0, [{}, busyTarget]⟩]

def busySamples (r : TargetResults) : Latencies :=
  if r.iopsCount = 3 then ⟨{100, 300}, {200}⟩ else if r.iopsCount = 1 then ⟨{100}, 0⟩ else ⟨0, 0⟩

theorem busyTarget_recorded : busyTarget.Recorded (busySamples busyTarget) :=
  ⟨(Holds.empty.add 300).add 100, Holds.empty.add 200⟩

theorem busyLast_recorded : ∀ r ∈ busyLast.targetResults, r.Recorded (busySamples r) := by
  intro r member
  rcases List.mem_cons.mp member with rfl | member
  · exact ⟨Holds.empty, Holds.empty⟩
  · rw [List.mem_singleton.mp member]
    exact busyTarget_recorded

/-- When only the last results hold samples the column is right. -/
theorem busyLast_total :
    ∃ histograms, outputHistograms latencyOptions busyLast = some histograms ∧
      histograms.total.Holds {100, 300, 200} ∧
      histograms.total.SameContents (printIopsHistogram latencyOptions .rw busyLast) := by
  have measured : latencyOptions.measureLatency = true := rfl
  obtain ⟨histograms, isOutput, exactly, same⟩ :=
    outputHistograms_total_iff measured busyLast busyLast_recorded
  have none : ∀ v, 2 ^ 32 ∣ busyLast.overcount busySamples v := by
    intro v
    have zero : busyLast.overcount busySamples v = 0 := by
      refine (excess_eq_zero_iff _).mpr fun count member => ?_
      rw [List.mem_singleton.mp member]
      exact Multiset.count_zero v
    rw [zero]
    exact dvd_zero _
  exact ⟨histograms, isOutput, exactly.mpr none, same.mpr none⟩

end DiskSpd
