/-
**Samples, their statistics and tables of counts.**

* `mean`, `variance` — of a population, over any field.
* `flatten` — the multiset that a table of values and counts stands for; sums and counts over it are
  weighted sums over the table (`sum_map_flatten`, `card_flatten`).
* `scan` — the first value of a table at which the cumulative count passes a test; in a sorted table
  it is the least one (`scan_eq_some_iff`).
* `foldl_min_isLeast`, `foldl_max_isGreatest` — an extremum found in one pass.
* `variance_mul_sq` — the variance through the sum and the sum of squares.
-/

import Mathlib.Algebra.BigOperators.Group.Finset.Basic
import Mathlib.Algebra.CharZero.Defs
import Mathlib.Algebra.Field.Basic
import Mathlib.Order.Bounds.Defs
import Mathlib.Tactic.FieldSimp
import Mathlib.Tactic.Ring

namespace Sample

/-! ### Populations -/

section Population

variable {K : Type*} [Field K]

/-- The mean of a population; 0 when it is empty. -/
def mean (s : Multiset K) : K :=
  s.sum / s.card

/-- The variance of a population; 0 when it is empty. -/
def variance (s : Multiset K) : K :=
  (s.map fun x => (x - mean s) ^ 2).sum / s.card

theorem sum_map_sq_sub (s : Multiset K) (m : K) :
    (s.map fun x => (x - m) ^ 2).sum =
      (s.map fun x => x ^ 2).sum - 2 * m * s.sum + s.card * m ^ 2 := by
  induction s using Multiset.induction with
  | empty => simp
  | cons x s ih =>
    simp only [Multiset.map_cons, Multiset.sum_cons, Multiset.card_cons, ih, Nat.cast_succ]
    ring

/-- **The variance through the sum and the sum of squares.** -/
theorem variance_mul_sq [CharZero K] (s : Multiset K) :
    variance s * (s.card : K) ^ 2 = s.card * (s.map fun x => x ^ 2).sum - s.sum ^ 2 := by
  by_cases empty : s.card = 0
  · rw [Multiset.card_eq_zero.mp empty]
    simp
  · have nonzero : (s.card : K) ≠ 0 := Nat.cast_ne_zero.mpr empty
    rw [variance, sum_map_sq_sub, mean]
    field_simp
    ring

end Population

/-! ### Tables of counts -/

section Table

variable {α : Type*}

/-- The multiset of a table of values and counts. -/
def flatten (table : List (α × ℕ)) : Multiset α :=
  (table.map fun entry => Multiset.replicate entry.2 entry.1).sum

@[simp] theorem flatten_nil : flatten ([] : List (α × ℕ)) = 0 := rfl

@[simp] theorem flatten_cons (entry : α × ℕ) (table : List (α × ℕ)) :
    flatten (entry :: table) = Multiset.replicate entry.2 entry.1 + flatten table :=
  List.sum_cons

/-- **A sum over the multiset is a weighted sum over the table.** -/
theorem sum_map_flatten {M : Type*} [AddCommMonoid M] (f : α → M) (table : List (α × ℕ)) :
    ((flatten table).map f).sum = (table.map fun entry => entry.2 • f entry.1).sum := by
  induction table with
  | nil => rfl
  | cons entry table ih =>
    rw [flatten_cons, Multiset.map_add, Multiset.sum_add, ih, Multiset.map_replicate,
      Multiset.sum_replicate, List.map_cons, List.sum_cons]

theorem card_flatten (table : List (α × ℕ)) :
    (flatten table).card = (table.map (·.2)).sum := by
  induction table with
  | nil => rfl
  | cons entry table ih =>
    rw [flatten_cons, Multiset.card_add, Multiset.card_replicate, ih, List.map_cons, List.sum_cons]

theorem countP_flatten_cons (p : α → Prop) [DecidablePred p] (v : α) (n : ℕ)
    (table : List (α × ℕ)) : (flatten ((v, n) :: table)).countP p =
      (if p v then n else 0) + (flatten table).countP p := by
  rw [flatten_cons, Multiset.countP_add, ← Multiset.coe_replicate, Multiset.coe_countP,
    List.countP_replicate]
  simp only [decide_eq_true_eq]

theorem mem_keys_of_mem_flatten {v : α} {table : List (α × ℕ)} (member : v ∈ flatten table) :
    v ∈ table.map (·.1) := by
  induction table with
  | nil => exact absurd member (Multiset.notMem_zero v)
  | cons entry table ih =>
    rw [flatten_cons, Multiset.mem_add] at member
    rw [List.map_cons, List.mem_cons]
    exact member.imp Multiset.eq_of_mem_replicate ih

/-- **The counts of a multiset at its members** are a table of it. -/
theorem flatten_counts [DecidableEq α] {s : Multiset α} {keys : List α} (nodup : keys.Nodup)
    (covers : ∀ v, v ∈ keys ↔ v ∈ s) : flatten (keys.map fun v => (v, s.count v)) = s := by
  have members : keys.toFinset = s.toFinset := by
    ext v
    rw [List.mem_toFinset, Multiset.mem_toFinset, covers]
  unfold flatten
  calc ((keys.map fun v => (v, s.count v)).map fun entry => Multiset.replicate entry.2 entry.1).sum
      = (keys.map fun v => s.count v • ({v} : Multiset α)).sum := by
        rw [List.map_map]
        exact congrArg List.sum (List.map_congr_left fun v _ => (Multiset.nsmul_singleton _ _).symm)
    _ = s := by
        rw [← List.sum_toFinset _ nodup, members, Multiset.toFinset_sum_count_nsmul_eq]

end Table

/-! ### Ranks -/

section Order

variable {α : Type*} [LE α] [LT α] [Std.IsLinearOrder α] [Std.LawfulOrderLT α] [DecidableLE α]

/-- The first value at which the count so far passes a test. -/
def scan (reached : ℕ → Bool) : ℕ → List (α × ℕ) → Option α
  | _, [] => none
  | cur, (v, n) :: rest => if reached (cur + n) then some v else scan reached (cur + n) rest

omit [Std.IsLinearOrder α] [Std.LawfulOrderLT α] [LT α] in
/-- A table of greater values counts nothing up to a value. -/
theorem countP_flatten_eq_zero {v : α} {table : List (α × ℕ)}
    (above : ∀ w ∈ table.map (·.1), ¬ w ≤ v) : (flatten table).countP (· ≤ v) = 0 := by
  rw [Multiset.countP_eq_zero]
  exact fun w member => above w (mem_keys_of_mem_flatten member)

section Head

variable {w x : α} {n : ℕ} {table : List (α × ℕ)}

/-- The rank of the head is its own count, -/
theorem countP_flatten_head (above : ∀ y ∈ table.map (·.1), w < y) :
    (flatten ((w, n) :: table)).countP (· ≤ w) = n := by
  have none : (flatten table).countP (· ≤ w) = 0 :=
    countP_flatten_eq_zero fun y member => Std.not_le.mpr (above y member)
  rw [countP_flatten_cons, if_pos (Std.le_refl w), none, Nat.add_zero]

omit [LT α] [Std.IsLinearOrder α] [Std.LawfulOrderLT α] in
/-- and each later rank includes it. -/
theorem countP_flatten_tail (after : w ≤ x) :
    (flatten ((w, n) :: table)).countP (· ≤ x) = n + (flatten table).countP (· ≤ x) := by
  rw [countP_flatten_cons, if_pos after]

end Head

/-- **In a sorted table the scan finds the least value** whose rank passes the test. -/
theorem scan_eq_some_iff {reached : ℕ → Bool} {table : List (α × ℕ)}
    (sorted : (table.map (·.1)).Pairwise (· < ·)) (cur : ℕ) (v : α) :
    scan reached cur table = some v ↔
      IsLeast {x | x ∈ table.map (·.1) ∧
        reached (cur + (flatten table).countP (· ≤ x)) = true} v := by
  induction table generalizing cur with
  | nil =>
    refine ⟨fun found => (by cases found), fun least => ?_⟩
    exact absurd least.1.1 List.not_mem_nil
  | cons entry table ih =>
    obtain ⟨w, n⟩ := entry
    rw [List.map_cons, List.pairwise_cons] at sorted
    have above : ∀ x ∈ table.map (·.1), w ≤ x := fun x member =>
      Std.le_of_lt (sorted.1 x member)
    have atHead : (flatten ((w, n) :: table)).countP (· ≤ w) = n := countP_flatten_head sorted.1
    have later : ∀ x ∈ table.map (·.1), cur + (flatten ((w, n) :: table)).countP (· ≤ x) =
        cur + n + (flatten table).countP (· ≤ x) := by
      intro x member
      rw [countP_flatten_tail (above x member), Nat.add_assoc]
    rw [scan]
    by_cases here : reached (cur + n) = true
    · have least : IsLeast {x | x ∈ w :: table.map (·.1) ∧
          reached (cur + (flatten ((w, n) :: table)).countP (· ≤ x)) = true} w := by
        refine ⟨⟨List.mem_cons_self, by rwa [atHead]⟩, fun x member => ?_⟩
        rcases List.mem_cons.mp member.1 with rfl | inRest
        · exact Std.le_refl x
        · exact above x inRest
      rw [if_pos here, Option.some.injEq, List.map_cons]
      refine ⟨fun same => same ▸ least, fun other => ?_⟩
      exact Std.le_antisymm (least.2 other.1) (other.2 least.1)
    · have same : {x | x ∈ w :: table.map (·.1) ∧
          reached (cur + (flatten ((w, n) :: table)).countP (· ≤ x)) = true} =
          {x | x ∈ table.map (·.1) ∧
            reached (cur + n + (flatten table).countP (· ≤ x)) = true} := by
        ext x
        constructor
        · rintro ⟨member, passes⟩
          rcases List.mem_cons.mp member with rfl | inRest
          · rw [atHead] at passes
            exact absurd passes here
          · exact ⟨inRest, by rwa [later x inRest] at passes⟩
        · rintro ⟨member, passes⟩
          exact ⟨List.mem_cons_of_mem _ member, by rwa [later x member]⟩
      rw [if_neg here, List.map_cons, same]
      exact ih sorted.2 (cur + n)

end Order

/-! ### Extrema -/

/-- **A pass that keeps the better value** ends with one that no other is better than. -/
theorem foldl_extremum {α : Type*} (better : α → α → Prop) [DecidableRel better]
    (irrefl : ∀ x, ¬ better x x)
    (trans : ∀ x y z, ¬ better x y → ¬ better y z → ¬ better x z)
    (asymm : ∀ x y, better x y → ¬ better y x) (xs : List α) (start : α) :
    (xs.foldl (fun best x => if better x best then x else best) start = start ∨
      xs.foldl (fun best x => if better x best then x else best) start ∈ xs) ∧
    (¬ better start (xs.foldl (fun best x => if better x best then x else best) start)) ∧
    ∀ x ∈ xs, ¬ better x (xs.foldl (fun best x => if better x best then x else best) start) := by
  induction xs generalizing start with
  | nil => exact ⟨Or.inl rfl, irrefl start, fun x member => absurd member List.not_mem_nil⟩
  | cons x xs ih =>
    rw [List.foldl_cons]
    obtain ⟨found, notStart, notRest⟩ := ih (if better x start then x else start)
    by_cases first : better x start
    · rw [if_pos first] at found notStart notRest ⊢
      refine ⟨Or.inr ?_, trans _ _ _ (asymm _ _ first) notStart, ?_⟩
      · rw [List.mem_cons]
        exact found
      · intro y member
        rcases List.mem_cons.mp member with rfl | inRest
        · exact notStart
        · exact notRest y inRest
    · rw [if_neg first] at found notStart notRest ⊢
      refine ⟨found.imp id (List.mem_cons_of_mem _), notStart, ?_⟩
      intro y member
      rcases List.mem_cons.mp member with rfl | inRest
      · exact trans _ _ _ first notStart
      · exact notRest y inRest

section Bounds

variable {α : Type*} [LE α] [LT α] [Std.IsLinearOrder α] [Std.LawfulOrderLT α] [DecidableLT α]

/-- **The minimum**, from the greatest value down. -/
theorem foldl_min_isLeast {xs : List α} (nonempty : xs ≠ []) {top : α} (isTop : ∀ x, x ≤ top) :
    IsLeast {x | x ∈ xs} (xs.foldl (fun best x => if x < best then x else best) top) := by
  obtain ⟨found, _, least⟩ := foldl_extremum (fun x best : α => x < best) (fun x => Std.lt_irrefl)
    (fun x y z notXY notYZ => Std.not_lt.mpr (Std.le_trans (Std.not_lt.mp notYZ)
      (Std.not_lt.mp notXY)))
    (fun x y before => Std.not_lt.mpr (Std.le_of_lt before)) xs top
  refine ⟨?_, fun x member => Std.not_lt.mp (least x member)⟩
  rcases found with start | inList
  · obtain ⟨x, member⟩ := List.exists_mem_of_ne_nil xs nonempty
    have below := Std.not_lt.mp (least x member)
    rw [start] at below ⊢
    exact Std.le_antisymm (isTop x) below ▸ member
  · exact inList

/-- **The maximum**, from the least value up. -/
theorem foldl_max_isGreatest {xs : List α} (nonempty : xs ≠ []) {bot : α} (isBot : ∀ x, bot ≤ x) :
    IsGreatest {x | x ∈ xs} (xs.foldl (fun best x => if x > best then x else best) bot) := by
  obtain ⟨found, _, greatest⟩ := foldl_extremum (fun x best : α => x > best)
    (fun x => Std.lt_irrefl)
    (fun x y z notXY notYZ => Std.not_lt.mpr (Std.le_trans (Std.not_lt.mp notXY)
      (Std.not_lt.mp notYZ)))
    (fun x y before => Std.not_lt.mpr (Std.le_of_lt before)) xs bot
  refine ⟨?_, fun x member => Std.not_lt.mp (greatest x member)⟩
  rcases found with start | inList
  · obtain ⟨x, member⟩ := List.exists_mem_of_ne_nil xs nonempty
    have above := Std.not_lt.mp (greatest x member)
    rw [start] at above ⊢
    exact Std.le_antisymm above (isBot x) ▸ member
  · exact inList

end Bounds

end Sample
