/-
**The standard deviation of the I/Os per second.**

* `validPart_counters` — the buckets that `GetStandardDeviation` goes over are the counters of the
  first intervals, as many as there are up to the last completion but no more than were configured.
* `getStandardDeviationSq_eq` — its square is the population variance of these.
* `JobOptions.DeviationExact` — when that is the variance over all intervals of the duration: in an
  ordinary run, when nothing completed, or something did in the last interval or later, or the numbers
  happen to cancel. Intervals after the last completion are left out, though those before it count.
* `iopsDeviation_iff` — for each bucketizer of a job and each merge of them.
-/

import DiskSpd.Lib.Sample
import DiskSpd.Model.Job
import DiskSpd.Proof.BucketizerMerge
import Mathlib.Algebra.BigOperators.Ring.Finset
import Mathlib.Algebra.BigOperators.Ring.List
import Mathlib.Algebra.Order.Ring.Rat
import Mathlib.Tactic.FieldSimp
import Mathlib.Tactic.LinearCombination
import Mathlib.Tactic.NormNum

namespace DiskSpd

open IoBucketizer Sample

/-! ### Intervals -/

/-- The completions in each of the first `n` intervals of `w` milliseconds. -/
def intervalCounts (w n : ℕ) (times : List UInt64) : List ℕ :=
  (List.range n).map fun i => times.countP fun t => i * w ≤ t.toNat ∧ t.toNat < (i + 1) * w

/-- The number of intervals up to the last one with a completion. -/
def reachedIntervals (w : ℕ) (times : List UInt64) : ℕ :=
  (times.map fun t => t.toNat / w + 1).foldr max 0

/-- The sum of the squares of counts. -/
def sumSq (counts : List ℕ) : ℕ :=
  (counts.map fun c => c ^ 2).sum

/-- The population of the counts. -/
def population (counts : List ℕ) : Multiset ℚ :=
  ((counts.map fun c : ℕ => (c : ℚ) : List ℚ) : Multiset ℚ)

/-- `V`: the intervals of the duration. -/
def JobOptions.intervals (job : JobOptions) : ℕ :=
  (1000 * job.duration.toNat + job.ioBucketDurationMs.toNat - 1) / job.ioBucketDurationMs.toNat

/-- The intervals that are configured, from the product in an `unsigned int`. -/
def JobOptions.configured (job : JobOptions) : ℕ :=
  (1000 * job.duration.toNat % 2 ^ 32 + job.ioBucketDurationMs.toNat - 1) /
    job.ioBucketDurationMs.toNat

section Counts

variable {job : JobOptions}

theorem toNat_validBuckets (job : JobOptions) : job.validBuckets.toNat = job.configured := by
  unfold JobOptions.validBuckets JobOptions.configured
  have thousand : (1000 : UInt32).toNat = 1000 := rfl
  have product : (job.duration * 1000).toNat = 1000 * job.duration.toNat % 2 ^ 32 := by
    rw [UInt32.toNat_mul, thousand, Nat.mul_comm]
  have small := job.ioBucketDurationMs.toNat_lt
  have quotient := Nat.div_le_self
    (1000 * job.duration.toNat % 2 ^ 32 + job.ioBucketDurationMs.toNat - 1)
    job.ioBucketDurationMs.toNat
  rw [product, UInt64.toNat_ofNat', Nat.mod_eq_of_lt (by omega)]

theorem configured_le (job : JobOptions) : job.configured ≤ job.intervals := by
  have wrapped := Nat.mod_le (1000 * job.duration.toNat) (2 ^ 32)
  exact Nat.div_le_div_right (by omega)

theorem configured_eq (ordinary : 1000 * job.duration.toNat < 2 ^ 32) :
    job.configured = job.intervals := by
  unfold JobOptions.configured JobOptions.intervals
  rw [Nat.mod_eq_of_lt ordinary]

/-- The bucket of a time is its interval. -/
theorem tally_eq {w : UInt32} (positive : w ≠ 0) (times : List UInt64) (i : ℕ) :
    tally w.toUInt64 times i =
      times.countP fun t => i * w.toNat ≤ t.toNat ∧ t.toNat < (i + 1) * w.toNat := by
  have nonzero : 0 < w.toNat := Nat.pos_of_ne_zero fun none => positive (UInt32.toNat_inj.mp none)
  refine List.countP_congr fun t _ => ?_
  rw [decide_eq_true_iff, decide_eq_true_iff, UInt64.toNat_div, UInt32.toNat_toUInt64,
    Nat.div_eq_iff nonzero]
  rw [Nat.add_one_mul]
  omega

theorem extent_eq (w : UInt32) (times : List UInt64) :
    extent w.toUInt64 times = reachedIntervals w.toNat times := by
  unfold extent reachedIntervals
  simp only [UInt64.toNat_div, UInt32.toNat_toUInt64]

end Counts

/-! ### What the code computes -/

section Deviation

variable {b : IoBucketizer}

theorem foldl_add_eq {α : Type} (f : α → ℚ) (xs : List α) (start : ℚ) :
    xs.foldl (fun sum x => sum + f x) start = start + (xs.map f).sum := by
  induction xs generalizing start with
  | nil => exact (add_zero start).symm
  | cons x xs ih => rw [List.foldl_cons, ih, List.map_cons, List.sum_cons, add_assoc]

theorem length_validPart (b : IoBucketizer) : b.validPart.length = b.getNumberOfValidBuckets := by
  unfold validPart getNumberOfValidBuckets
  rw [List.length_take]
  split_ifs <;> omega

theorem getMean_eq (b : IoBucketizer) :
    b.getMean = mean (population (b.validPart.map UInt32.toNat)) := by
  unfold IoBucketizer.getMean mean population
  rw [foldl_add_eq, zero_add, Multiset.sum_coe, Multiset.coe_card, List.length_map,
    List.length_map, length_validPart, List.map_map]
  simp only [div_eq_mul_inv, List.sum_map_mul_right]
  rfl

/-- **`GetStandardDeviation` is about the buckets it goes over.** -/
theorem getStandardDeviationSq_eq (b : IoBucketizer) :
    b.getStandardDeviationSq = variance (population (b.validPart.map UInt32.toNat)) := by
  have length := length_validPart b
  unfold IoBucketizer.getStandardDeviationSq
  split_ifs with none
  · rw [none, List.length_eq_zero_iff] at length
    rw [length]
    simp [population, variance]
  · rw [foldl_add_eq, zero_add, getMean_eq, variance]
    unfold population
    rw [Multiset.map_coe, Multiset.sum_coe, Multiset.coe_card, List.length_map, List.length_map,
      length, List.map_map, List.map_map]
    rfl

/-- The number of intervals that the code compares. -/
def JobOptions.compared (job : JobOptions) (times : List UInt64) : ℕ :=
  min (reachedIntervals job.ioBucketDurationMs.toNat times) job.configured

/-- The counters of the intervals that the code compares. -/
def JobOptions.comparedCounters (job : JobOptions) (times : List UInt64) : List ℕ :=
  (intervalCounts job.ioBucketDurationMs.toNat (job.compared times) times).map (· % 2 ^ 32)

theorem length_intervalCounts (w n : ℕ) (times : List UInt64) :
    (intervalCounts w n times).length = n := by
  unfold intervalCounts
  rw [List.length_map, List.length_range]

theorem length_comparedCounters (job : JobOptions) (times : List UInt64) :
    (job.comparedCounters times).length = job.compared times := by
  unfold JobOptions.comparedCounters
  rw [List.length_map, length_intervalCounts]

/-- **The buckets gone over are the counters of the first intervals.** -/
theorem validPart_counters {job : JobOptions} (positive : job.ioBucketDurationMs ≠ 0)
    {times : List UInt64} (counts : Counts b job.ioBucketDurationMs.toUInt64 times)
    (valid : b.validBuckets = job.validBuckets ∨ times = []) :
    b.validPart.map UInt32.toNat = job.comparedCounters times := by
  have size : b.vBuckets.length = reachedIntervals job.ioBucketDurationMs.toNat times :=
    counts.size.trans (extent_eq _ _)
  have compared : b.getNumberOfValidBuckets = job.compared times := by
    unfold getNumberOfValidBuckets JobOptions.compared
    rw [size]
    rcases valid with same | rfl
    · rw [same, toNat_validBuckets]
      split_ifs <;> omega
    · have none : reachedIntervals job.ioBucketDurationMs.toNat [] = 0 := rfl
      rw [none, Nat.zero_min]
      exact if_neg (Nat.not_lt_zero _)
  refine List.ext_getElem ?_ fun i below below' => ?_
  · rw [List.length_map, length_validPart, compared, length_comparedCounters]
  · have inside : i < b.vBuckets.length := by
      rw [List.length_map, validPart, List.length_take] at below
      omega
    have bucket := counts.bucket i
    rw [List.getD_eq_getElem _ _ inside] at bucket
    have entry : ∀ h : i < b.validPart.length, b.validPart[i] = b.vBuckets[i] :=
      fun h => List.getElem_take
    unfold JobOptions.comparedCounters intervalCounts at below' ⊢
    rw [List.getElem_map, entry, bucket, UInt32.toNat_ofNat', tally_eq positive,
      List.getElem_map, List.getElem_map, List.getElem_range]

/-! ### When that is the variance over the duration -/

theorem cast_sum (counts : List ℕ) : (population counts).sum = (counts.sum : ℚ) := by
  unfold population
  rw [Multiset.sum_coe, Nat.cast_list_sum]

theorem cast_sumSq (counts : List ℕ) :
    ((population counts).map fun x => x ^ 2).sum = (sumSq counts : ℚ) := by
  unfold population sumSq
  rw [Multiset.map_coe, Multiset.sum_coe, Nat.cast_list_sum, List.map_map, List.map_map]
  simp only [Function.comp_def, Nat.cast_pow]

/-- The variance of counts, through their sums. -/
theorem variance_population (counts : List ℕ) :
    variance (population counts) * (counts.length : ℚ) ^ 2 =
      counts.length * sumSq counts - (counts.sum : ℚ) ^ 2 := by
  have card : (population counts).card = counts.length := List.length_map _
  rw [← card, ← cast_sum, ← cast_sumSq]
  exact variance_mul_sq _

/-- **Two populations of counts have the same variance** when these sums agree. -/
theorem variance_eq_iff {counts others : List ℕ} (nonempty : counts ≠ []) (some : others ≠ []) :
    variance (population counts) = variance (population others) ↔
      others.length ^ 2 * (counts.length * sumSq counts) + counts.length ^ 2 * others.sum ^ 2 =
        counts.length ^ 2 * (others.length * sumSq others) + others.length ^ 2 * counts.sum ^ 2 := by
  have left := variance_population counts
  have right := variance_population others
  have m : (counts.length : ℚ) ≠ 0 := Nat.cast_ne_zero.mpr (mt List.length_eq_zero_iff.mp nonempty)
  have n : (others.length : ℚ) ≠ 0 := Nat.cast_ne_zero.mpr (mt List.length_eq_zero_iff.mp some)
  rw [← Nat.cast_inj (R := ℚ)]
  simp only [Nat.cast_add, Nat.cast_mul, Nat.cast_pow]
  constructor
  · intro same
    rw [same] at left
    linear_combination (counts.length : ℚ) ^ 2 * right - (others.length : ℚ) ^ 2 * left
  · intro sums
    have product : (variance (population counts) - variance (population others)) *
        ((counts.length : ℚ) ^ 2 * (others.length : ℚ) ^ 2) = 0 := by
      linear_combination (others.length : ℚ) ^ 2 * left - (counts.length : ℚ) ^ 2 * right + sums
    exact sub_eq_zero.mp ((mul_eq_zero.mp product).resolve_right
      (mul_ne_zero (pow_ne_zero 2 m) (pow_ne_zero 2 n)))

/-- No variance at all. -/
theorem variance_eq_zero_iff (others : List ℕ) :
    variance (population others) = 0 ↔ others.length * sumSq others = others.sum ^ 2 := by
  have right := variance_population others
  by_cases none : others = []
  · subst none
    simp [population, variance, sumSq]
  · have n : (others.length : ℚ) ≠ 0 := Nat.cast_ne_zero.mpr (mt List.length_eq_zero_iff.mp none)
    rw [← Nat.cast_inj (R := ℚ)]
    simp only [Nat.cast_mul, Nat.cast_pow]
    constructor
    · intro zero
      rw [zero, zero_mul] at right
      linear_combination -right
    · intro sums
      have product : variance (population others) * (others.length : ℚ) ^ 2 = 0 := by
        linear_combination right + sums
      exact (mul_eq_zero.mp product).resolve_right (pow_ne_zero 2 n)

/-- Nothing wraps: neither the product of the duration nor the counter of an interval. -/
def JobOptions.Ordinary (job : JobOptions) (times : List UInt64) : Prop :=
  1000 * job.duration.toNat < 2 ^ 32 ∧
    ∀ c ∈ intervalCounts job.ioBucketDurationMs.toNat job.intervals times, c < 2 ^ 32

/-- **When the deviation is the one over the duration.** With `V` intervals in the duration, `L` up
to the last completion, and the sum `s` and the sum of squares `q` of the counts of the `V` intervals:
if nothing wraps, nothing completed, or `V ≤ L`, or `q * L * V = s ^ 2 * (L + V)`. If something wraps,
the sums of the `n` counters compared have to give the variance that the sums of the counts give. -/
def JobOptions.DeviationExact (job : JobOptions) (times : List UInt64) : Prop :=
  let V := job.intervals
  let L := reachedIntervals job.ioBucketDurationMs.toNat times
  let counts := intervalCounts job.ioBucketDurationMs.toNat V times
  let n := job.compared times
  let counters := job.comparedCounters times
  (job.Ordinary times ∧
    (L = 0 ∨ V ≤ L ∨ sumSq counts * L * V = counts.sum ^ 2 * (L + V))) ∨
  (¬ job.Ordinary times ∧
    if n = 0 then V * sumSq counts = counts.sum ^ 2
    else V ^ 2 * (n * sumSq counters) + n ^ 2 * counts.sum ^ 2 =
      n ^ 2 * (V * sumSq counts) + V ^ 2 * counters.sum ^ 2)

section Condition

variable {job : JobOptions} {times : List UInt64}

theorem compared_le (job : JobOptions) (times : List UInt64) :
    job.compared times ≤ job.intervals :=
  (Nat.min_le_right _ _).trans (configured_le job)

/-- **The variances agree in general** when their sums do. -/
theorem variance_compared_iff (job : JobOptions) (times : List UInt64) :
    variance (population (job.comparedCounters times)) = variance (population
      (intervalCounts job.ioBucketDurationMs.toNat job.intervals times)) ↔
    if job.compared times = 0 then
      job.intervals * sumSq (intervalCounts job.ioBucketDurationMs.toNat job.intervals times) =
        (intervalCounts job.ioBucketDurationMs.toNat job.intervals times).sum ^ 2
    else
      job.intervals ^ 2 * (job.compared times * sumSq (job.comparedCounters times)) +
          job.compared times ^ 2 *
            (intervalCounts job.ioBucketDurationMs.toNat job.intervals times).sum ^ 2 =
        job.compared times ^ 2 * (job.intervals *
            sumSq (intervalCounts job.ioBucketDurationMs.toNat job.intervals times)) +
          job.intervals ^ 2 * (job.comparedCounters times).sum ^ 2 := by
  have length := length_comparedCounters job times
  have all := length_intervalCounts job.ioBucketDurationMs.toNat job.intervals times
  have le := compared_le job times
  split_ifs with none
  · rw [none, List.length_eq_zero_iff] at length
    have zero : variance (population (job.comparedCounters times)) = 0 := by
      rw [length]
      simp [population, variance]
    rw [zero, eq_comm, variance_eq_zero_iff, all]
  · have nonempty : job.comparedCounters times ≠ [] := by
      intro empty
      rw [empty] at length
      exact none length.symm
    have some : intervalCounts job.ioBucketDurationMs.toNat job.intervals times ≠ [] := by
      intro empty
      rw [empty, List.length_nil] at all
      omega
    rw [variance_eq_iff nonempty some, length, all]

/-- The sums of the counts do not change with intervals in which nothing completed. -/
theorem intervalCounts_sums (times : List UInt64) {w n m : ℕ} (positive : 0 < w)
    (reached : reachedIntervals w times ≤ n) (le : n ≤ m) :
    (intervalCounts w m times).sum = (intervalCounts w n times).sum ∧
      sumSq (intervalCounts w m times) = sumSq (intervalCounts w n times) := by
  obtain ⟨k, rfl⟩ := Nat.exists_eq_add_of_le le
  have split : intervalCounts w (n + k) times =
      intervalCounts w n times ++ List.replicate k 0 := by
    unfold intervalCounts
    rw [List.range_add, List.map_append, List.map_map]
    congr 1
    refine List.eq_replicate_iff.mpr ⟨by rw [List.length_map, List.length_range], ?_⟩
    intro c member
    obtain ⟨i, _, rfl⟩ := List.mem_map.mp member
    refine List.countP_eq_zero.mpr fun t isTime inside => ?_
    have last : t.toNat / w < reachedIntervals w times := le_foldr_max (List.mem_map_of_mem isTime)
    have later : n + i ≤ t.toNat / w :=
      (Nat.le_div_iff_mul_le positive).mpr (of_decide_eq_true inside).1
    omega
  rw [split, List.sum_append, List.sum_replicate, sumSq, List.map_append, List.sum_append,
    List.map_replicate, List.sum_replicate]
  exact ⟨by rw [smul_zero, add_zero], by rw [zero_pow two_ne_zero, smul_zero, add_zero]; rfl⟩

/-- In an ordinary run the counters compared are the counts. -/
theorem comparedCounters_ordinary (ordinary : job.Ordinary times) :
    job.comparedCounters times =
      intervalCounts job.ioBucketDurationMs.toNat (job.compared times) times := by
  refine (List.map_congr_left fun c member => ?_).trans (List.map_id _)
  obtain ⟨i, below, rfl⟩ := List.mem_map.mp member
  refine Nat.mod_eq_of_lt (ordinary.2 _ (List.mem_map_of_mem ?_))
  rw [List.mem_range] at below ⊢
  exact below.trans_le (compared_le job times)

/-- The sums over `L` intervals give the variance over `V` of them, when the others are idle. -/
theorem idleTail_iff {V L q s : ℕ} (short : L < V) (empty : L = 0 → q = 0 ∧ s = 0) :
    (if L = 0 then V * q = s ^ 2
      else V ^ 2 * (L * q) + L ^ 2 * s ^ 2 = L ^ 2 * (V * q) + V ^ 2 * s ^ 2) ↔
    (L = 0 ∨ V ≤ L ∨ q * L * V = s ^ 2 * (L + V)) := by
  split_ifs with none
  · obtain ⟨rfl, rfl⟩ := empty none
    exact ⟨fun _ => Or.inl none, fun _ => by rw [zero_pow two_ne_zero, Nat.mul_zero]⟩
  · have tail : (V : ℤ) - L ≠ 0 := by omega
    have cross : V ^ 2 * (L * q) + L ^ 2 * s ^ 2 = L ^ 2 * (V * q) + V ^ 2 * s ^ 2 ↔
        q * L * V = s ^ 2 * (L + V) := by
      rw [← Int.natCast_inj, ← Int.natCast_inj]
      push_cast
      constructor
      · intro sums
        have product : ((V : ℤ) - L) * ((q : ℤ) * L * V - s ^ 2 * (L + V)) = 0 := by
          linear_combination sums
        exact sub_eq_zero.mp ((mul_eq_zero.mp product).resolve_left tail)
      · intro sums
        linear_combination ((V : ℤ) - L) * sums
    rw [cross]
    exact ⟨fun sums => Or.inr (Or.inr sums), fun either =>
      (either.resolve_left none).resolve_left (Nat.not_le.mpr short)⟩

/-- **In an ordinary run** the intervals after the last completion have to make no difference. -/
theorem variance_ordinary_iff (positive : job.ioBucketDurationMs ≠ 0)
    (ordinary : job.Ordinary times) :
    variance (population (job.comparedCounters times)) = variance (population
      (intervalCounts job.ioBucketDurationMs.toNat job.intervals times)) ↔
    (reachedIntervals job.ioBucketDurationMs.toNat times = 0 ∨
      job.intervals ≤ reachedIntervals job.ioBucketDurationMs.toNat times ∨
      sumSq (intervalCounts job.ioBucketDurationMs.toNat job.intervals times) *
          reachedIntervals job.ioBucketDurationMs.toNat times * job.intervals =
        (intervalCounts job.ioBucketDurationMs.toNat job.intervals times).sum ^ 2 *
          (reachedIntervals job.ioBucketDurationMs.toNat times + job.intervals)) := by
  have general := variance_compared_iff job times
  have nonzero : 0 < job.ioBucketDurationMs.toNat :=
    Nat.pos_of_ne_zero fun none => positive (UInt32.toNat_inj.mp none)
  have comparedEq : job.compared times =
      min (reachedIntervals job.ioBucketDurationMs.toNat times) job.intervals := by
    unfold JobOptions.compared
    rw [configured_eq ordinary.1]
  rw [comparedCounters_ordinary ordinary] at general ⊢
  rcases Nat.lt_or_ge (reachedIntervals job.ioBucketDurationMs.toNat times) job.intervals with
    short | long
  · -- the intervals compared are those up to the last completion
    rw [Nat.min_eq_left short.le] at comparedEq
    obtain ⟨sums, squares⟩ := intervalCounts_sums times nonzero le_rfl short.le
    rw [general, comparedEq, sums, squares]
    exact idleTail_iff short fun none => by
      rw [none]
      exact ⟨rfl, rfl⟩
  · rw [Nat.min_eq_right long] at comparedEq
    rw [comparedEq]
    exact ⟨fun _ => Or.inr (Or.inl long), fun _ => rfl⟩

/-- **The condition is exact** for the counters compared. -/
theorem deviationExact_iff (positive : job.ioBucketDurationMs ≠ 0) :
    variance (population (job.comparedCounters times)) = variance (population
      (intervalCounts job.ioBucketDurationMs.toNat job.intervals times)) ↔
    job.DeviationExact times := by
  unfold JobOptions.DeviationExact
  by_cases ordinary : job.Ordinary times
  · rw [variance_ordinary_iff positive ordinary]
    exact ⟨fun exact => Or.inl ⟨ordinary, exact⟩, fun either =>
      (either.resolve_right fun not => not.1 ordinary).2⟩
  · rw [variance_compared_iff]
    exact ⟨fun sums => Or.inr ⟨ordinary, sums⟩, fun either =>
      (either.resolve_left fun is => ordinary is.1).2⟩

end Condition

end Deviation

/-! ### Each bucketizer and each merge -/

/-- **The claim on a bucketizer**: the square of its deviation is the population variance of the
completions in the intervals of the duration. -/
def JobOptions.DeviationRight (job : JobOptions) (b : IoBucketizer) (times : List UInt64) : Prop :=
  b.getStandardDeviationSq = variance (population
    (intervalCounts job.ioBucketDurationMs.toNat job.intervals times))

/-- **The standard deviation is right exactly when** the intervals that are not compared make no
difference, for the bucketizer of a thread and for any merge of them. -/
theorem iopsDeviation_iff {job : JobOptions} (positive : job.ioBucketDurationMs ≠ 0)
    {b : IoBucketizer} {leaves : List Leaf}
    (tree : MergeTree job.ioBucketDurationMs.toUInt64 b leaves)
    (configured : ∀ leaf ∈ leaves, leaf.1 = job.validBuckets) :
    job.DeviationRight b (timesOf leaves) ↔ job.DeviationExact (timesOf leaves) := by
  have duration : job.ioBucketDurationMs.toUInt64 ≠ 0 := fun zero => positive (by
    rw [← UInt64.toNat_inj, UInt32.toNat_toUInt64] at zero
    exact UInt32.toNat_inj.mp zero)
  obtain ⟨counts, valid⟩ := tree.counts duration
  have same : b.validBuckets = job.validBuckets ∨ timesOf leaves = [] := by
    by_cases none : leaves = []
    · rw [none]
      exact Or.inr rfl
    · exact Or.inl (valid.trans (validOf_eq none configured))
  rw [JobOptions.DeviationRight, getStandardDeviationSq_eq, validPart_counters positive counts same,
    deviationExact_iff positive]

/-! ### An idle last second -/

/-- `-D1000 -d2 f` -/
def deviationCalls : List (Key × Option CString) :=
  [(.option 'D', some "1000".toList), (.option 'd', some "2".toList),
    (.keyArg, some "f".toList)]

def deviationJob : JobOptions where
  duration := 2
  measureIopsStdDev := true
  totalThreads := 1
  targets := [{ path := "f".toList, size := 1048576, maxSize := 1048576 }]

/-- With one completion at the start, the second interval is left out. -/
theorem deviationJob_not_right :
    parseCommandLine deviationCalls (fun _ => .file 1048576) = .ok deviationJob ∧
      ∃ b, collect deviationJob.ioBucketDurationMs.toUInt64 deviationJob.validBuckets [0] = some b ∧
        ¬ deviationJob.DeviationRight b [0] := by
  refine ⟨rfl, { bucketDuration := 1000, validBuckets := 2, vBuckets := [1] }, rfl, fun right => ?_⟩
  have one : variance (population [1]) = 0 := (variance_eq_zero_iff [1]).mpr rfl
  rw [JobOptions.DeviationRight, getStandardDeviationSq_eq] at right
  have zero := right.symm.trans one
  rw [variance_eq_zero_iff] at zero
  exact absurd zero (by decide)

/-- A completion in the last second makes the deviation right. -/
theorem deviationJob_right : ∃ b,
    collect deviationJob.ioBucketDurationMs.toUInt64 deviationJob.validBuckets [0, 1500] = some b ∧
      deviationJob.DeviationRight b [0, 1500] := by
  have collected : collect deviationJob.ioBucketDurationMs.toUInt64 deviationJob.validBuckets
      [0, 1500] = some { bucketDuration := 1000, validBuckets := 2, vBuckets := [1, 1] } := rfl
  refine ⟨_, collected, (iopsDeviation_iff (by decide) (.leaf collected) ?_).mpr ?_⟩
  · intro leaf member
    rw [List.mem_singleton.mp member]
  · exact Or.inl ⟨⟨by decide, by decide⟩, Or.inr (Or.inl (by decide))⟩

end DiskSpd
