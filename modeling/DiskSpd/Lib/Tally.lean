/-
**Lists of counters.**

* `sum_set`, `sum_modify` — one counter changes; `sum_map_le` — the sums of two families that differ
  at one place, by at most one.
* `sum_toNat_ofNat` — counters of 32 bits keep a sum that fits; `modify_map` — a change of one
  counter is a change of the word that holds it.
* `countP_range` — a list counted through its indices.
-/

import Mathlib.Algebra.BigOperators.Group.List.Basic
import Mathlib.Algebra.Order.BigOperators.Group.List
import Mathlib.Algebra.Order.Group.Nat
import Mathlib.Algebra.Ring.Nat

namespace Tally

theorem sum_set {x y : Nat} : ∀ {counters : List Nat} {i : Nat}, counters[i]? = some x →
    (counters.set i y).sum + x = counters.sum + y
  | [], _, found => by cases found
  | c :: rest, 0, found => by
    cases found
    rw [List.set_cons_zero, List.sum_cons, List.sum_cons]
    omega
  | c :: rest, i + 1, found => by
    have ih := sum_set (y := y) (List.getElem?_cons_succ.symm.trans found)
    rw [List.set_cons_succ, List.sum_cons, List.sum_cons]
    omega

/-- One more in the counter at an index. -/
theorem sum_modify {counters : List Nat} {i : Nat} (below : i < counters.length) :
    (counters.modify i (· + 1)).sum = counters.sum + 1 := by
  have found := List.getElem?_eq_getElem below
  have changed := sum_set (y := counters[i] + 1) found
  rw [List.modify_eq_set_getElem? (· + 1) i counters, found]
  show (counters.set i (counters[i] + 1)).sum = _
  omega

theorem sum_map_le {f g : Nat → Nat} {k : Nat} (others : ∀ n, n ≠ k → g n = f n)
    (here : g k ≤ f k + 1) :
    ∀ {indices : List Nat}, indices.Nodup → (indices.map g).sum ≤ (indices.map f).sum + 1
  | [], _ => Nat.zero_le _
  | n :: rest, nodup => by
    obtain ⟨fresh, nodup⟩ := List.nodup_cons.mp nodup
    rw [List.map_cons, List.sum_cons, List.map_cons, List.sum_cons]
    by_cases same : n = k
    · have unchanged : rest.map g = rest.map f :=
        List.map_congr_left fun m member => others m fun isK => fresh (same ▸ isK ▸ member)
      rw [same, unchanged]
      omega
    · have ih := sum_map_le others here nodup
      rw [others n same]
      omega

/-- A sum that fits in 32 bits has only counters that do. -/
theorem sum_toNat_ofNat {counters : List Nat} (fits : counters.sum < 2 ^ 32) :
    ((counters.map UInt32.ofNat).map UInt32.toNat).sum = counters.sum := by
  rw [List.map_map]
  congr 1
  conv_rhs => rw [← List.map_id counters]
  refine List.map_congr_left fun c member => ?_
  have small := List.le_sum_of_mem member
  show (UInt32.ofNat c).toNat = c
  rw [UInt32.toNat_ofNat', Nat.mod_eq_of_lt (by omega)]

/-- A change of one counter, in the words that hold them. -/
theorem modify_map {α β : Type*} {f : α → β} {change : α → α} {change' : β → β}
    (same : ∀ x, change' (f x) = f (change x)) :
    ∀ (counters : List α) (i : Nat), (counters.map f).modify i change' =
      (counters.modify i change).map f
  | [], _ => by simp
  | c :: rest, 0 => by simp [same]
  | c :: rest, i + 1 => by simp [modify_map same rest i]

/-- A list counted through its indices. -/
theorem countP_range {α : Type*} (xs : List α) (p : α → Bool) :
    (List.range xs.length).countP (fun i => xs[i]?.any p) = xs.countP p := by
  have values : (List.range xs.length).map (fun i => xs[i]?) = xs.map some := by
    refine List.ext_getElem? fun i => ?_
    rw [List.getElem?_map, List.getElem?_map]
    rcases Nat.lt_or_ge i xs.length with below | above
    · rw [List.getElem?_range below, Option.map_some, List.getElem?_eq_getElem below]
      rfl
    · rw [List.getElem?_eq_none (by rwa [List.length_range]), List.getElem?_eq_none above]
      rfl
  calc (List.range xs.length).countP (fun i => xs[i]?.any p)
      = ((List.range xs.length).map fun i => xs[i]?).countP fun x => x.any p := by
        rw [List.countP_map]
        rfl
    _ = xs.countP p := by
        rw [values, List.countP_map]
        rfl

end Tally
