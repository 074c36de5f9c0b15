/-
**The queries of a histogram answer for its samples.**

* `Built` — a histogram made from empty ones by `Add` and `Merge`, with its samples; the merges may
  iterate over the hash tables in any order.
* `Holds.flatten` — its entries, in any order of iteration, are a table of counts of the samples.
* `getMin_isLeast`, `getMax_isGreatest`, `getMean_eq`, `getStandardDeviationSq_eq` — the queries that
  pass over the entries once.
* `getPercentile_isOk` — on a histogram with an entry, `GetPercentile` is defined, even where the
  counters have wrapped: the last count so far is the number of samples.
* `histogramStatistics` — each query is the statistic of the flat list of samples, so all results are
  independent of the calls that built the histogram and of the order of iteration.
-/

import DiskSpd.Lib.MachineWord
import DiskSpd.Lib.Sample
import DiskSpd.Model.Summary
import DiskSpd.Proof.Histogram
import Mathlib.Algebra.BigOperators.Group.Finset.Basic
import Mathlib.Algebra.Order.Ring.Rat

namespace DiskSpd

open Sample

namespace Histogram

/-! ### Histograms and their calls -/

/-- **A histogram and the samples of the calls that built it**, from empty histograms. -/
inductive Built {T : Type} [DecidableEq T] : Histogram T → List T → Prop
  | empty : Built {} []
  | add {h : Histogram T} {samples : List T} (v : T) :
      Built h samples → Built (h.add v) (samples ++ [v])
  | merge {h other : Histogram T} {samples otherSamples : List T} {order : Entries T} :
      Built h samples → Built other otherSamples → other.IteratesAs order →
      Built (h.mergeIn other order) (samples ++ otherSamples)

section Merge

variable {T : Type} [DecidableEq T] {h other : Histogram T} {order : Entries T}

omit [DecidableEq T] in
theorem IteratesAs.nodupKeys (iterates : h.IteratesAs order) : order.NodupKeys :=
  (List.perm_nodupKeys iterates).mpr h.data.nodupKeys

theorem IteratesAs.dlookup (iterates : h.IteratesAs order) (v : T) :
    order.dlookup v = h.data.lookup v :=
  List.perm_dlookup v iterates.nodupKeys iterates

/-- The order in which a merge iterates does not matter for what is held. -/
theorem mergeIn_sameContents (iterates : other.IteratesAs order) :
    (h.mergeIn other order).SameContents (h.merge other) where
  samples := rfl
  lookup v := by
    rw [lookup_merge, ← iterates.dlookup]
    exact lookup_foldl_bump iterates.nodupKeys h.data v

theorem Built.holds {samples : List T} (built : Built h samples) : h.Holds ↑samples := by
  induction built with
  | empty => exact Holds.empty
  | @add h samples v _ ih =>
    have more := ih.add v
    rwa [← Multiset.singleton_add, add_comm, ← Multiset.coe_singleton, Multiset.coe_add] at more
  | @merge h other samples otherSamples order _ _ iterates ih ihOther =>
    have merged := ih.merge ihOther
    rw [Multiset.coe_add] at merged
    exact merged.iff_sameContents.mpr (mergeIn_sameContents iterates)

end Merge

/-! ### The entries as a table of counts -/

/-- The entries with their counts as numbers. -/
def table {T : Type} (order : Entries T) : List (T × ℕ) :=
  order.map fun i => (i.1, i.2.toNat)

theorem keys_table {T : Type} (order : Entries T) : (table order).map (·.1) = order.map (·.1) :=
  List.map_map

section Table

variable {T : Type} [DecidableEq T] {h : Histogram T} {s : Multiset T} {order : Entries T}

theorem Holds.mem_keys (holds : h.Holds s) (iterates : h.IteratesAs order) (v : T) :
    v ∈ order.map (·.1) ↔ v ∈ s := by
  rw [← holds.keys, AList.mem_keys]
  exact (iterates.map Sigma.fst).mem_iff

theorem Holds.entry (holds : h.Holds s) (iterates : h.IteratesAs order)
    {i : Sigma fun _ : T => UInt32} (member : i ∈ order) : i.2 = UInt32.ofNat (s.count i.1) := by
  have found : order.dlookup i.1 = some i.2 :=
    List.mem_dlookup iterates.nodupKeys member
  rw [iterates.dlookup] at found
  rw [← holds.count, Histogram.count, found, Option.getD_some]

/-- The counts of the samples at the keys of the entries. -/
theorem Holds.flatten_counts (holds : h.Holds s) (iterates : h.IteratesAs order) :
    flatten ((order.map (·.1)).map fun v => (v, s.count v)) = s :=
  Sample.flatten_counts iterates.nodupKeys (holds.mem_keys iterates)

/-- **The entries are a table of counts of the samples**, as long as these fit the counters. -/
theorem Holds.flatten (holds : h.Holds s) (small : s.card < 2 ^ 32)
    (iterates : h.IteratesAs order) : flatten (table order) = s := by
  refine Eq.trans (congrArg Sample.flatten ?_) (holds.flatten_counts iterates)
  unfold table
  rw [List.map_map]
  refine List.map_congr_left fun i member => ?_
  rw [holds.entry iterates member, UInt32.toNat_ofNat',
    Nat.mod_eq_of_lt ((Multiset.count_le_card _ _).trans_lt small)]
  rfl

/-- **The counters add up to the number of samples**, both in 32 bits. -/
theorem Holds.foldl_counters (holds : h.Holds s) (iterates : h.IteratesAs order) :
    (order.foldl (fun cur i => cur + i.2) 0) = h.samples := by
  have counts : (order.map fun i => s.count i.1).sum = s.card := by
    conv_rhs => rw [← holds.flatten_counts iterates, card_flatten, List.map_map, List.map_map]
    rfl
  have words : (order.map fun i => i.2.toNat) =
      (order.map fun i => s.count i.1).map (· % 2 ^ 32) := by
    rw [List.map_map]
    refine List.map_congr_left fun i member => ?_
    rw [holds.entry iterates member, UInt32.toNat_ofNat']
    rfl
  have zero : (0 : UInt32).toNat = 0 := rfl
  rw [← UInt32.toNat_inj, MachineWord.toNat_foldl_add, words, zero, Nat.zero_add,
    ← List.sum_nat_mod, counts, holds.samples, UInt32.toNat_ofNat']

end Table

/-! ### Queries of one pass -/

section Queries

variable {h : Histogram UInt64} {s : Multiset UInt64} {order : Entries UInt64}

/-- A word as the double it is cast to. -/
def value (v : UInt64) : ℚ := v.toNat

theorem value_nonneg (v : UInt64) : 0 ≤ value v := Nat.cast_nonneg _

theorem Holds.keys_ne_nil (holds : h.Holds s) (nonempty : s ≠ 0) (iterates : h.IteratesAs order) :
    order.map (·.1) ≠ [] := by
  obtain ⟨v, member⟩ := Multiset.exists_mem_of_ne_zero nonempty
  exact List.ne_nil_of_mem ((holds.mem_keys iterates v).mpr member)

theorem Holds.getMin_isLeast (holds : h.Holds s) (nonempty : s ≠ 0)
    (iterates : h.IteratesAs order) : IsLeast {v | v ∈ s} (getMin order) := by
  have isTop : ∀ v : UInt64, v ≤ 18446744073709551615 := fun v =>
    UInt64.le_iff_toNat_le.mpr (Nat.le_of_lt_succ v.toNat_lt)
  have least := foldl_min_isLeast (holds.keys_ne_nil nonempty iterates) isTop
  simp only [holds.mem_keys iterates] at least
  exact least

theorem Holds.getMax_isGreatest (holds : h.Holds s) (nonempty : s ≠ 0)
    (iterates : h.IteratesAs order) : IsGreatest {v | v ∈ s} (getMax order) := by
  have isBot : ∀ v : UInt64, 0 ≤ v := fun v => UInt64.le_iff_toNat_le.mpr (Nat.zero_le _)
  have greatest := foldl_max_isGreatest (holds.keys_ne_nil nonempty iterates) isBot
  simp only [holds.mem_keys iterates] at greatest
  exact greatest

/-- **`GetMean` never throws**: the terms of its sum are not negative. -/
theorem meanLoop_eq (samples : UInt32) : ∀ (order : Entries UInt64) {sum : ℚ}, 0 ≤ sum →
    meanLoop samples sum order = .ok (sum +
      (order.map fun i => value i.1 * i.2.toNat / samples.toNat).sum)
  | [], sum, _ => by rw [meanLoop, List.map_nil, List.sum_nil, add_zero]
  | i :: rest, sum, nonneg => by
    have bucket : 0 ≤ value i.1 * i.2.toNat / samples.toNat :=
      div_nonneg (mul_nonneg (value_nonneg _) (Nat.cast_nonneg _)) (Nat.cast_nonneg _)
    have next := add_nonneg nonneg bucket
    rw [List.map_cons, List.sum_cons, ← add_assoc, ← meanLoop_eq samples rest next, meanLoop]
    exact if_neg (not_lt.mpr next)

/-- A weighted sum over the entries is a sum over the samples. -/
theorem Holds.sum_entries (holds : h.Holds s) (small : s.card < 2 ^ 32)
    (iterates : h.IteratesAs order) (f : UInt64 → ℚ) :
    (order.map fun i => (i.2.toNat : ℚ) * f i.1).sum = (s.map f).sum := by
  conv_rhs => rw [← holds.flatten small iterates, sum_map_flatten, table, List.map_map]
  refine congrArg List.sum (List.map_congr_left fun i _ => ?_)
  exact (nsmul_eq_mul _ _).symm

theorem Holds.sampleSize (holds : h.Holds s) (small : s.card < 2 ^ 32) :
    h.getSampleSize.toNat = s.card := by
  rw [getSampleSize, holds.samples, UInt32.toNat_ofNat']
  exact Nat.mod_eq_of_lt small

theorem Holds.getMean_eq (holds : h.Holds s) (small : s.card < 2 ^ 32)
    (iterates : h.IteratesAs order) : h.getMean order = .ok (mean (s.map value)) := by
  have weighted : order.map (fun i => value i.1 * i.2.toNat / h.getSampleSize.toNat) =
      order.map fun i => (s.card : ℚ)⁻¹ * (i.2.toNat * value i.1) := by
    rw [holds.sampleSize small]
    exact List.map_congr_left fun i _ => by ring
  rw [getMean, meanLoop_eq _ _ le_rfl, weighted, List.sum_map_mul_left,
    holds.sum_entries small iterates, zero_add, mean, Multiset.card_map, div_eq_inv_mul]

theorem Holds.getStandardDeviationSq_eq (holds : h.Holds s) (small : s.card < 2 ^ 32)
    (iterates : h.IteratesAs order) :
    h.getStandardDeviationSq order = .ok (variance (s.map value)) := by
  have ssd : order.foldl (fun ssd i =>
      ssd + i.2.toNat * ((i.1.toNat : ℚ) - mean (s.map value)) ^ 2) 0 =
      (s.map fun v => (value v - mean (s.map value)) ^ 2).sum := by
    rw [← holds.sum_entries small iterates fun v => (value v - mean (s.map value)) ^ 2,
      List.sum_eq_foldl, List.foldl_map]
    rfl
  rw [getStandardDeviationSq, holds.getMean_eq small iterates]
  show Except.ok (_ / _) = _
  rw [ssd, holds.sampleSize small, variance, Multiset.map_map, Multiset.card_map]
  rfl

/-! ### Percentiles -/

/-- The sorted entries have increasing keys. -/
theorem IteratesAs.sorted (iterates : h.IteratesAs order) :
    ((getSortedData order).map (·.1)).Pairwise (· < ·) := by
  have perm : (getSortedData order).Perm order := List.mergeSort_perm _ _
  have nodup : ((getSortedData order).map (·.1)).Nodup :=
    (List.perm_nodupKeys (perm.trans iterates)).mpr h.data.nodupKeys
  have increasing : ((getSortedData order).map (·.1)).Pairwise (· ≤ ·) := by
    rw [List.pairwise_map]
    have sorted : (getSortedData order).Pairwise fun i j => decide (i.1 ≤ j.1) = true :=
      List.pairwise_mergeSort
      (fun i j k ij jk => by
        rw [decide_eq_true_iff] at ij jk ⊢
        exact UInt64.le_trans ij jk)
      (fun i j => by
        rw [Bool.or_eq_true, decide_eq_true_iff, decide_eq_true_iff]
        exact UInt64.le_total i.1 j.1) order
    exact sorted.imp fun le => of_decide_eq_true le
  exact (increasing.and nodup).imp fun ⟨le, ne⟩ => UInt64.lt_of_le_of_ne le ne

/-- **The loop ends with a value** when the last count so far passes the target. -/
theorem percentileLoop_isOk {target : ℚ} : ∀ {order : Entries UInt64} {cur : UInt32},
    order ≠ [] → target ≤ (order.foldl (fun cur i => cur + i.2) cur).toNat →
    ∃ v, percentileLoop target cur order = .ok v
  | [], _, nonempty, _ => absurd rfl nonempty
  | i :: rest, cur, _, passes => by
    rw [percentileLoop]
    by_cases here : target ≤ (cur + i.2).toNat
    · exact ⟨i.1, if_pos here⟩
    · rw [if_neg here]
      refine percentileLoop_isOk (fun last => here ?_) passes
      rwa [last] at passes

/-- **The loop is a scan** of the table, as long as the count so far does not wrap. -/
theorem percentileLoop_eq_scan {target : ℚ} {v : UInt64} : ∀ {order : Entries UInt64}
    {cur : UInt32}, cur.toNat + (flatten (table order)).card < 2 ^ 32 →
    (percentileLoop target cur order = .ok v ↔
      scan (fun n => decide (target ≤ n)) cur.toNat (table order) = some v)
  | [], _, _ => ⟨nofun, nofun⟩
  | i :: rest, cur, small => by
    rw [table, List.map_cons, flatten_cons, Multiset.card_add, Multiset.card_replicate] at small
    have sum : (cur + i.2).toNat = cur.toNat + i.2.toNat := by
      rw [UInt32.toNat_add]
      exact Nat.mod_eq_of_lt (by omega)
    have left : (cur + i.2).toNat + (flatten (table rest)).card < 2 ^ 32 := by
      rw [sum, table]
      omega
    have ih : percentileLoop target (cur + i.2) rest = .ok v ↔
        scan (fun n => decide (target ≤ n)) (cur + i.2).toNat (table rest) = some v :=
      percentileLoop_eq_scan left
    rw [percentileLoop, table, List.map_cons, scan, ← sum]
    by_cases here : target ≤ (cur + i.2).toNat
    · rw [if_pos here, if_pos (decide_eq_true here), Except.ok.injEq, Option.some.injEq]
    · rw [if_neg here, if_neg (by rwa [decide_eq_true_iff])]
      exact ih

/-- **A percentile is defined on each histogram with an entry**, wrapped or not. -/
theorem Holds.getPercentile_isOk (holds : h.Holds s) (nonempty : s ≠ 0)
    (iterates : h.IteratesAs order) {p : ℚ} (nonneg : 0 ≤ p) (atMost : p ≤ 1) :
    ∃ v, h.getPercentile order p = .ok v := by
  have perm : (getSortedData order).Perm order := List.mergeSort_perm _ _
  have sorted : h.IteratesAs (getSortedData order) := perm.trans iterates
  rw [getPercentile, if_neg (by rw [not_or, not_lt, not_lt]; exact ⟨nonneg, atMost⟩)]
  refine percentileLoop_isOk (fun none => ?_) ?_
  · have keys := holds.keys_ne_nil nonempty sorted
    rw [none] at keys
    exact keys rfl
  · rw [holds.foldl_counters sorted]
    exact mul_le_of_le_one_right (Nat.cast_nonneg _) atMost

/-- **`GetPercentile` is the least sample of at least the rank.** -/
theorem Holds.getPercentile_isLeast (holds : h.Holds s) (small : s.card < 2 ^ 32)
    (iterates : h.IteratesAs order) {p : ℚ} {v : UInt64}
    (found : h.getPercentile order p = .ok v) :
    IsLeast {x | x ∈ s ∧ p * s.card ≤ s.countP (· ≤ x)} v := by
  have perm : (getSortedData order).Perm order := List.mergeSort_perm _ _
  have sorted : h.IteratesAs (getSortedData order) := perm.trans iterates
  have flat := holds.flatten small sorted
  unfold getPercentile at found
  split_ifs at found with outside
  have zero : (0 : UInt32).toNat = 0 := rfl
  rw [percentileLoop_eq_scan (by rw [flat, zero]; omega), scan_eq_some_iff
    (by rw [keys_table]; exact iterates.sorted), flat, keys_table, holds.sampleSize small,
    zero] at found
  simp only [holds.mem_keys sorted, Nat.zero_add, decide_eq_true_eq] at found
  rwa [mul_comm] at found

end Queries

/-! ### All queries -/

/-- The answers of a histogram over an order of iteration. -/
structure Statistics (h : Histogram UInt64) (order : Entries UInt64) (samples : List UInt64) :
    Prop where
  sampleSize : h.getSampleSize.toNat = samples.length
  min : IsLeast {v | v ∈ samples} (getMin order)
  max : IsGreatest {v | v ∈ samples} (getMax order)
  mean : h.getMean order = .ok (Sample.mean ↑(samples.map value))
  standardDeviation :
    h.getStandardDeviationSq order = .ok (Sample.variance ↑(samples.map value))
  percentile : ∀ p : ℚ, 0 ≤ p → p ≤ 1 → ∃ v, h.getPercentile order p = .ok v ∧
    IsLeast {x | x ∈ samples ∧ p * samples.length ≤ samples.countP (· ≤ x)} v

/-- Two histograms, each with an order of iteration, that answer alike. -/
structure SameAnswers (h other : Histogram UInt64) (order otherOrder : Entries UInt64) : Prop where
  sampleSize : h.getSampleSize = other.getSampleSize
  min : getMin order = getMin otherOrder
  max : getMax order = getMax otherOrder
  mean : h.getMean order = other.getMean otherOrder
  standardDeviation : h.getStandardDeviationSq order = other.getStandardDeviationSq otherOrder
  percentile : ∀ p : ℚ, h.getPercentile order p = other.getPercentile otherOrder p

theorem Built.statistics {h : Histogram UInt64} {samples : List UInt64} {order : Entries UInt64}
    (built : Built h samples) (nonempty : samples ≠ []) (small : samples.length < 2 ^ 32)
    (iterates : h.IteratesAs order) : Statistics h order samples := by
  have holds := built.holds
  have some : (samples : Multiset UInt64) ≠ 0 := (Multiset.coe_eq_zero _).not.mpr nonempty
  have fits : (samples : Multiset UInt64).card < 2 ^ 32 := small
  refine ⟨holds.sampleSize fits, holds.getMin_isLeast some iterates,
    holds.getMax_isGreatest some iterates, holds.getMean_eq fits iterates,
    holds.getStandardDeviationSq_eq fits iterates, fun p nonneg atMost => ?_⟩
  obtain ⟨v, found⟩ := holds.getPercentile_isOk some iterates nonneg atMost
  exact ⟨v, found, holds.getPercentile_isLeast fits iterates found⟩

theorem isLeast_unique {values : Set UInt64} {v w : UInt64} (least : IsLeast values v)
    (other : IsLeast values w) : v = w :=
  UInt64.le_antisymm (least.2 other.1) (other.2 least.1)

theorem isGreatest_unique {values : Set UInt64} {v w : UInt64} (greatest : IsGreatest values v)
    (other : IsGreatest values w) : v = w :=
  UInt64.le_antisymm (other.2 greatest.1) (greatest.2 other.1)

/-- The statistics fix the answers. -/
theorem Statistics.sameAnswers {h other : Histogram UInt64} {order otherOrder : Entries UInt64}
    {samples otherSamples : List UInt64} (statistics : Statistics h order samples)
    (others : Statistics other otherOrder otherSamples) (perm : samples.Perm otherSamples) :
    SameAnswers h other order otherOrder := by
  have values : (↑(samples.map value) : Multiset ℚ) = ↑(otherSamples.map value) :=
    Multiset.coe_eq_coe.mpr (perm.map value)
  have min := others.min
  have max := others.max
  simp only [← perm.mem_iff] at min max
  refine ⟨?_, isLeast_unique statistics.min min, isGreatest_unique statistics.max max, ?_, ?_,
    fun p => ?_⟩
  · rw [← UInt32.toNat_inj, statistics.sampleSize, others.sampleSize, perm.length_eq]
  · rw [statistics.mean, others.mean, values]
  · rw [statistics.standardDeviation, others.standardDeviation, values]
  · by_cases inside : 0 ≤ p ∧ p ≤ 1
    · obtain ⟨v, found, least⟩ := statistics.percentile p inside.1 inside.2
      obtain ⟨w, foundOther, leastOther⟩ := others.percentile p inside.1 inside.2
      simp only [← perm.mem_iff, ← perm.length_eq, ← perm.countP_eq] at leastOther
      rw [found, foundOther, isLeast_unique least leastOther]
    · have outside : p < 0 ∨ 1 < p := by
        rw [not_and_or, not_le, not_le] at inside
        exact inside
      rw [getPercentile, getPercentile, if_pos outside, if_pos outside]

end Histogram

open Histogram

/-- **Histogram statistics.** Each query of a histogram is the statistic of its samples, and two
histograms with the same samples answer alike, however they were built and iterated over. -/
theorem histogramStatistics {h : Histogram UInt64} {samples : List UInt64}
    (built : Built h samples) (nonempty : samples ≠ []) (small : samples.length < 2 ^ 32)
    {order : Entries UInt64} (iterates : h.IteratesAs order) :
    Statistics h order samples ∧
      ∀ (other : Histogram UInt64) (otherSamples : List UInt64) (otherOrder : Entries UInt64),
        Built other otherSamples → other.IteratesAs otherOrder → samples.Perm otherSamples →
        SameAnswers h other order otherOrder := by
  have statistics := built.statistics nonempty small iterates
  refine ⟨statistics, fun other otherSamples otherOrder builtOther iteratesOther perm => ?_⟩
  refine statistics.sameAnswers (builtOther.statistics ?_ ?_ iteratesOther) perm
  · rintro rfl
    exact nonempty perm.eq_nil
  · rwa [← perm.length_eq]

/-- Two samples, one of them merged. -/
theorem histogramStatistics_two :
    Statistics ((({} : Histogram UInt64).add 3).merge (({} : Histogram UInt64).add 5))
      [⟨5, 1⟩, ⟨3, 1⟩] [3, 5] :=
  (histogramStatistics (.merge (.add 3 .empty) (.add 5 .empty) (.refl _)) (by decide) (by decide)
    (.refl _)).1

end DiskSpd
