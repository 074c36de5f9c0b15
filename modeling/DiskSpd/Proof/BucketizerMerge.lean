/-
**Merging bucketizers is counting the completions of all of them.**

* `collect` — `Initialize` and a sequence of `Add`; `Counts` — the buckets of a list of completion
  times (`collect_counts`).
* `Counts.merge` — a merge counts the times of both, whichever vector is longer.
* `MergeTree` — any tree of merges, with default-constructed accumulators, and its leaves.
* `ioBucketizer_merge` — each tree observes the same as one bucketizer of all the times with the
  largest valid count, so order and grouping do not matter.
-/

import DiskSpd.Model.Summary
import Mathlib.Data.List.GetD
import Mathlib.Data.List.Perm.Basic
import Mathlib.Order.Basic

namespace DiskSpd

namespace IoBucketizer

/-- `Initialize` and a sequence of `Add`. -/
def collect (d valid : UInt64) (times : List UInt64) : Option IoBucketizer :=
  (({} : IoBucketizer).initializeBuckets d valid).bind fun bucketizer =>
    times.foldlM add bucketizer

/-- The number of times whose bucket is `i`. -/
def tally (d : UInt64) (times : List UInt64) (i : Nat) : Nat :=
  times.countP fun t => (t / d).toNat = i

/-- One more than the largest bucket of the times; 0 when there are none. -/
def extent (d : UInt64) (times : List UInt64) : Nat :=
  (times.map fun t => (t / d).toNat + 1).foldr max 0

/-- **The buckets are those of the times**, in 32-bit counters. -/
structure Counts (bucketizer : IoBucketizer) (d : UInt64) (times : List UInt64) : Prop where
  size : bucketizer.getNumberOfBuckets = extent d times
  bucket : ∀ i, bucketizer.vBuckets.getD i 0 = UInt32.ofNat (tally d times i)

/-! ### Times -/

section Times

variable {d : UInt64}

theorem tally_append (xs ys : List UInt64) (i : Nat) :
    tally d (xs ++ ys) i = tally d xs i + tally d ys i :=
  List.countP_append

theorem tally_perm {xs ys : List UInt64} (perm : xs.Perm ys) (i : Nat) :
    tally d xs i = tally d ys i :=
  perm.countP_eq _

theorem foldr_max_append (ns ms : List Nat) :
    (ns ++ ms).foldr max 0 = max (ns.foldr max 0) (ms.foldr max 0) := by
  induction ns with
  | nil => exact (Nat.zero_max _).symm
  | cons n ns ih => rw [List.cons_append, List.foldr_cons, ih, List.foldr_cons, Nat.max_assoc]

theorem extent_append (xs ys : List UInt64) :
    extent d (xs ++ ys) = max (extent d xs) (extent d ys) := by
  unfold extent
  rw [List.map_append, foldr_max_append]

theorem extent_perm {xs ys : List UInt64} (perm : xs.Perm ys) : extent d xs = extent d ys :=
  (perm.map _).foldr_eq 0

theorem le_foldr_max {n : Nat} : ∀ {ns : List Nat}, n ∈ ns → n ≤ ns.foldr max 0
  | m :: ns, member => by
    rw [List.foldr_cons]
    rcases List.mem_cons.mp member with rfl | inRest
    · exact Nat.le_max_left _ _
    · exact (le_foldr_max inRest).trans (Nat.le_max_right _ _)

theorem lt_extent {times : List UInt64} {t : UInt64} (member : t ∈ times) :
    (t / d).toNat < extent d times :=
  le_foldr_max (List.mem_map_of_mem member)

/-- The last bucket holds a time. -/
theorem exists_extent {times : List UInt64} (nonempty : times ≠ []) :
    ∃ t ∈ times, (t / d).toNat + 1 = extent d times := by
  induction times with
  | nil => exact absurd rfl nonempty
  | cons x xs ih =>
    rw [extent, List.map_cons, List.foldr_cons]
    by_cases last : extent d xs ≤ (x / d).toNat + 1
    · exact ⟨x, List.mem_cons_self, (Nat.max_eq_left last).symm⟩
    · have some : xs ≠ [] := by
        rintro rfl
        exact last (Nat.zero_le _)
      obtain ⟨t, member, isLast⟩ := ih some
      refine ⟨t, List.mem_cons_of_mem x member, isLast.trans ?_⟩
      exact (Nat.max_eq_right (Nat.le_of_not_le last)).symm

end Times

/-! ### Vectors -/

theorem length_grow (buckets : List UInt32) (n : Nat) :
    (grow buckets n).length = max buckets.length n := by
  unfold grow
  rw [List.length_append, List.length_replicate]
  omega

/-- New entries are zero, old ones are untouched. -/
theorem getD_grow (buckets : List UInt32) (n i : Nat) :
    (grow buckets n).getD i 0 = buckets.getD i 0 := by
  unfold grow
  rw [List.getD_eq_getElem?_getD, List.getD_eq_getElem?_getD]
  by_cases below : i < buckets.length
  · rw [List.getElem?_append_left below]
  · rw [List.getElem?_append_right (Nat.le_of_not_lt below), List.getElem?_replicate,
      List.getElem?_eq_none (Nat.le_of_not_lt below)]
    split_ifs <;> rfl

theorem getD_modify (buckets : List UInt32) {n : Nat} (below : n < buckets.length) (i : Nat) :
    (buckets.modify n (· + 1)).getD i 0 = buckets.getD i 0 + if n = i then 1 else 0 := by
  rw [List.getD_eq_getElem?_getD, List.getD_eq_getElem?_getD, List.getElem?_modify]
  by_cases here : n = i
  · subst here
    simp only [if_true, List.getElem?_eq_getElem below]
    rfl
  · simp only [if_neg here, UInt32.add_zero]
    cases buckets[i]? <;> rfl

variable {a b : IoBucketizer} {d : UInt64} {xs ys : List UInt64}

theorem getD_merge (i : Nat) :
    (a.merge b).vBuckets.getD i 0 = a.vBuckets.getD i 0 + b.vBuckets.getD i 0 := by
  unfold merge
  dsimp only
  rw [← getD_grow a.vBuckets b.vBuckets.length i, List.getD_eq_getElem?_getD,
    List.getElem?_mapIdx]
  by_cases below : i < (grow a.vBuckets b.vBuckets.length).length
  · rw [List.getElem?_eq_getElem below, List.getD_eq_getElem _ _ below]
    rfl
  · have outside : b.vBuckets.length ≤ i := by
      rw [length_grow] at below
      omega
    rw [List.getElem?_eq_none (Nat.le_of_not_lt below), List.getD_eq_default _ _
      (Nat.le_of_not_lt below), List.getD_eq_default _ _ outside]
    rfl

theorem length_merge :
    (a.merge b).vBuckets.length = max a.vBuckets.length b.vBuckets.length := by
  unfold merge
  rw [List.length_mapIdx, length_grow]

/-! ### Calls -/

theorem Counts.default (d : UInt64) : Counts {} d [] where
  size := rfl
  bucket _ := rfl

/-- **`Add` counts one more time.** -/
theorem Counts.add (counts : Counts a d xs) (duration : a.bucketDuration = d) {t : UInt64}
    {next : IoBucketizer} (added : a.add t = some next) :
    Counts next d (xs ++ [t]) ∧ next.bucketDuration = d ∧ next.validBuckets = a.validBuckets := by
  unfold IoBucketizer.add at added
  split_ifs at added
  cases added
  subst duration
  have inside : a.bucketNumber t <
      (grow a.vBuckets (a.bucketNumber t + 1)).length := by
    rw [length_grow]
    omega
  refine ⟨⟨?_, fun i => ?_⟩, rfl, rfl⟩
  · show (List.modify _ _ _).length = _
    have size := counts.size
    unfold getNumberOfBuckets at size
    rw [List.length_modify, length_grow, extent_append, size]
    rfl
  · show (List.modify _ _ _).getD i 0 = _
    rw [getD_modify _ inside, getD_grow, counts.bucket, tally_append, UInt32.ofNat_add]
    unfold tally bucketNumber
    rw [List.countP_singleton]
    simp only [decide_eq_true_eq]
    split_ifs <;> rfl

/-- **`Merge` counts the times of both.** -/
theorem Counts.merge (left : Counts a d xs) (right : Counts b d ys) :
    Counts (a.merge b) d (xs ++ ys) where
  size := by
    have sizes := congrArg₂ max left.size right.size
    unfold getNumberOfBuckets at sizes ⊢
    rw [length_merge, sizes, extent_append]
  bucket i := by
    rw [getD_merge, left.bucket, right.bucket, tally_append, UInt32.ofNat_add]

theorem foldlM_add (positive : d ≠ 0) (more : List UInt64) {a : IoBucketizer} {xs : List UInt64}
    (counts : Counts a d xs) (duration : a.bucketDuration = d) :
    ∃ b, more.foldlM IoBucketizer.add a = some b ∧ Counts b d (xs ++ more) ∧
      b.validBuckets = a.validBuckets := by
  induction more generalizing a xs with
  | nil => exact ⟨a, rfl, by rwa [List.append_nil], rfl⟩
  | cons t more ih =>
    obtain ⟨next, added⟩ : ∃ next, a.add t = some next := by
      unfold IoBucketizer.add
      rw [if_neg (by rwa [duration])]
      exact ⟨_, rfl⟩
    obtain ⟨counts, duration, valid⟩ := counts.add duration added
    obtain ⟨b, folded, all, same⟩ := ih counts duration
    refine ⟨b, ?_, ?_, same.trans valid⟩
    · rw [List.foldlM_cons, added]
      exact folded
    · rwa [List.append_assoc, List.singleton_append] at all

/-- **`Initialize` and any sequence of `Add`** count the times. -/
theorem collect_counts (positive : d ≠ 0) (valid : UInt64) (times : List UInt64) :
    ∃ b, collect d valid times = some b ∧ Counts b d times ∧ b.validBuckets = valid := by
  have setUp : ({} : IoBucketizer).initializeBuckets d valid =
      some { bucketDuration := d, validBuckets := valid } := if_pos ⟨rfl, positive⟩
  have fresh : Counts { bucketDuration := d, validBuckets := valid } d [] := ⟨rfl, fun _ => rfl⟩
  obtain ⟨b, folded, counts, same⟩ := foldlM_add positive times fresh rfl
  refine ⟨b, ?_, counts, same⟩
  rw [collect, setUp]
  exact folded

/-! ### Trees of merges -/

/-- The bucketizer of a leaf: its number of valid buckets and its times. -/
abbrev Leaf := UInt64 × List UInt64

/-- All the times of the leaves. -/
def timesOf (leaves : List Leaf) : List UInt64 := leaves.flatMap (·.2)

/-- The largest number of valid buckets. -/
def validOf (leaves : List Leaf) : UInt64 := (leaves.map (·.1)).foldr max 0

/-- **Merges in any grouping**, of bucketizers with one bucket duration and of accumulators that were
never initialized. -/
inductive MergeTree (d : UInt64) : IoBucketizer → List Leaf → Prop
  | leaf {b : IoBucketizer} {valid : UInt64} {times : List UInt64} :
      collect d valid times = some b → MergeTree d b [(valid, times)]
  | accumulator : MergeTree d {} []
  | merge {a b : IoBucketizer} {leaves leaves' : List Leaf} :
      MergeTree d a leaves → MergeTree d b leaves' → MergeTree d (a.merge b) (leaves ++ leaves')

/-- Two bucketizers with the same answers. -/
structure SameObservations (a b : IoBucketizer) : Prop where
  size : a.getNumberOfBuckets = b.getNumberOfBuckets
  validSize : a.getNumberOfValidBuckets = b.getNumberOfValidBuckets
  bucket : ∀ i, a.getIoBucket i = b.getIoBucket i
  standardDeviation : a.getStandardDeviationSq = b.getStandardDeviationSq

section Tree

variable {leaves leaves' : List Leaf}

theorem toNat_max (x y : UInt64) : (max x y).toNat = max x.toNat y.toNat := by
  show (if x ≤ y then y else x).toNat = _
  by_cases le : x ≤ y
  · rw [if_pos le, Nat.max_eq_right (UInt64.le_iff_toNat_le.mp le)]
  · have ge := UInt64.le_iff_toNat_le.mp (UInt64.le_of_lt (UInt64.not_le.mp le))
    rw [if_neg le, Nat.max_eq_left ge]

/-- The largest valid count as a number. -/
theorem toNat_validOf (leaves : List Leaf) :
    (validOf leaves).toNat = (leaves.map fun leaf => leaf.1.toNat).foldr max 0 := by
  induction leaves with
  | nil => rfl
  | cons leaf leaves ih =>
    rw [validOf, List.map_cons, List.foldr_cons, toNat_max, List.map_cons, List.foldr_cons, ← ih]
    rfl

theorem validOf_append : validOf (leaves ++ leaves') = max (validOf leaves) (validOf leaves') := by
  rw [← UInt64.toNat_inj, toNat_max, toNat_validOf, toNat_validOf, toNat_validOf, List.map_append,
    foldr_max_append]

theorem validOf_perm (perm : leaves.Perm leaves') : validOf leaves = validOf leaves' := by
  rw [← UInt64.toNat_inj, toNat_validOf, toNat_validOf]
  exact (perm.map _).foldr_eq 0

theorem validOf_eq {valid : UInt64} : ∀ {leaves : List Leaf}, leaves ≠ [] →
    (∀ leaf ∈ leaves, leaf.1 = valid) → validOf leaves = valid
  | [leaf], _, same => by
    rw [← UInt64.toNat_inj, toNat_validOf, ← same leaf List.mem_cons_self]
    exact Nat.max_zero _
  | leaf :: next :: rest, _, same => by
    have ih : validOf (next :: rest) = valid :=
      validOf_eq (List.cons_ne_nil _ _) fun l member => same l (List.mem_cons_of_mem _ member)
    have split : validOf (leaf :: next :: rest) = max leaf.1 (validOf (next :: rest)) := rfl
    rw [split, ih, same leaf List.mem_cons_self, ← UInt64.toNat_inj, toNat_max, Nat.max_self]

/-- **Each tree counts all the times** and has the largest valid count. -/
theorem MergeTree.counts (positive : d ≠ 0) (tree : MergeTree d a leaves) :
    Counts a d (timesOf leaves) ∧ a.validBuckets = validOf leaves := by
  induction tree with
  | @leaf b valid times collected =>
    obtain ⟨b', collected', counts, same⟩ := collect_counts positive valid times
    rw [collected, Option.some.injEq] at collected'
    subst collected'
    have most : validOf [(valid, times)] = valid := by
      rw [← UInt64.toNat_inj, toNat_validOf]
      exact Nat.max_zero _
    refine ⟨?_, same.trans most.symm⟩
    rwa [timesOf, List.flatMap_singleton]
  | accumulator => exact ⟨Counts.default d, rfl⟩
  | merge _ _ ih ih' =>
    refine ⟨?_, ?_⟩
    · rw [timesOf, List.flatMap_append]
      exact ih.1.merge ih'.1
    · show max _ _ = _
      rw [ih.2, ih'.2, validOf_append]

/-- **The buckets and the valid count fix the answers.** -/
theorem Counts.sameObservations (left : Counts a d xs) (right : Counts b d ys)
    (perm : xs.Perm ys) (valid : a.validBuckets = b.validBuckets) : SameObservations a b := by
  have size : a.vBuckets.length = b.vBuckets.length :=
    left.size.trans ((extent_perm perm).trans right.size.symm)
  have buckets : a.vBuckets = b.vBuckets := by
    refine List.ext_getElem size fun i below below' => ?_
    rw [← List.getD_eq_getElem _ 0, ← List.getD_eq_getElem _ 0, left.bucket, right.bucket,
      tally_perm perm]
  have validSize : a.getNumberOfValidBuckets = b.getNumberOfValidBuckets := by
    unfold getNumberOfValidBuckets
    rw [valid, buckets]
  have validPart : a.validPart = b.validPart := by
    unfold IoBucketizer.validPart
    rw [validSize, buckets]
  have mean : a.getMean = b.getMean := by
    unfold getMean
    rw [validPart, validSize]
  refine ⟨size, validSize, fun i => ?_, ?_⟩
  · unfold getIoBucket
    rw [buckets]
  · unfold getStandardDeviationSq
    rw [validSize, validPart, mean]

end Tree

/-- What `Initialize` and a sequence of `Add` leave: bucket `i` holds the number of its times in 32
bits, and the vector ends at the last bucket with a time. -/
structure Collected (bucketizer : IoBucketizer) (d : UInt64) (times : List UInt64) : Prop where
  bucket : ∀ i, bucketizer.getIoBucket i = if i < bucketizer.getNumberOfBuckets then
    some (UInt32.ofNat (times.countP fun t => (t / d).toNat = i)) else none
  below : ∀ t ∈ times, (t / d).toNat < bucketizer.getNumberOfBuckets
  last : times ≠ [] → ∃ t ∈ times, (t / d).toNat + 1 = bucketizer.getNumberOfBuckets
  empty : times = [] → bucketizer.getNumberOfBuckets = 0

theorem Counts.collected (counts : Counts a d xs) : Collected a d xs where
  bucket i := by
    have here := counts.bucket i
    unfold getIoBucket getNumberOfBuckets
    split_ifs with below
    · rw [List.getD_eq_getElem _ _ below] at here
      rw [List.getElem?_eq_getElem below, here]
      rfl
    · exact List.getElem?_eq_none (Nat.le_of_not_lt below)
  below t member := by
    rw [counts.size]
    exact lt_extent member
  last nonempty := by
    rw [counts.size]
    exact exists_extent nonempty
  empty none := by
    rw [counts.size, none]
    rfl

end IoBucketizer

open IoBucketizer

/-- **Bucketizer merge is a homomorphism.** `Initialize` and `Add` count the times; any tree of
merges observes the same as one bucketizer of the times of all its leaves with the largest valid
count, and the same as any other tree of these leaves in another order. -/
theorem ioBucketizer_merge {d : UInt64} (positive : d ≠ 0) :
    (∀ (valid : UInt64) (times : List UInt64),
      ∃ b, collect d valid times = some b ∧ Collected b d times) ∧
    (∀ (b : IoBucketizer) (leaves : List Leaf), MergeTree d b leaves →
      ∃ whole, collect d (validOf leaves) (timesOf leaves) = some whole ∧
        SameObservations b whole) ∧
    (∀ (b b' : IoBucketizer) (leaves leaves' : List Leaf), MergeTree d b leaves →
      MergeTree d b' leaves' → leaves.Perm leaves' → SameObservations b b') := by
  refine ⟨fun valid times => ?_, fun _ leaves tree => ?_, fun _ _ _ _ tree tree' perm => ?_⟩
  · obtain ⟨b, collected, counts, _⟩ := collect_counts positive valid times
    exact ⟨b, collected, counts.collected⟩
  · obtain ⟨counts, valid⟩ := tree.counts positive
    obtain ⟨whole, collected, all, same⟩ :=
      collect_counts positive (validOf leaves) (timesOf leaves)
    exact ⟨whole, collected, counts.sameObservations all (.refl _) (valid.trans same.symm)⟩
  · obtain ⟨counts, valid⟩ := tree.counts positive
    obtain ⟨counts', valid'⟩ := tree'.counts positive
    refine counts.sameObservations counts' (perm.flatMap_right _) ?_
    rw [valid, valid', validOf_perm perm]

/-- Two bucketizers merged into an accumulator, and into one another the other way. -/
theorem ioBucketizer_merge_two : ∃ a b, collect 1000 5 [0, 1500] = some a ∧
    collect 1000 3 [700] = some b ∧
      SameObservations ((IoBucketizer.merge {} a).merge b) (b.merge a) := by
  obtain ⟨collects, _, same⟩ := ioBucketizer_merge (d := 1000) (by decide)
  obtain ⟨a, left, _⟩ := collects 5 [0, 1500]
  obtain ⟨b, right, _⟩ := collects 3 [700]
  exact ⟨a, b, left, right, same _ _ _ _ (.merge (.merge .accumulator (.leaf left)) (.leaf right))
    (.merge (.leaf right) (.leaf left)) (.swap _ _ _)⟩

end DiskSpd
