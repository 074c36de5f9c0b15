/-
**A total of running subtotals.**

A loop that adds each entry to a subtotal, and then the subtotal to a total, counts an entry once
for itself and once more for each entry after it:

* `excess` — what it counts too much; `foldl_round` — the loop computes the sum and the excess.
* `map_excess` — the excess of images is the image of the excess.
* `excess_eq_zero_iff` — over the natural numbers there is none exactly when all entries but the last
  are 0.
-/

import Mathlib.Algebra.BigOperators.Group.List.Basic
import Mathlib.Algebra.Module.NatInt
import Mathlib.Tactic.Abel

namespace RunningTotal

variable {M N : Type*} [AddCommMonoid M] [AddCommMonoid N]

/-- One round: the entry joins the subtotal, and the subtotal joins the total. -/
def round (state : M × M) (x : M) : M × M :=
  (state.1 + x, state.2 + (state.1 + x))

/-- Each entry once for each entry after it. -/
def excess : List M → M
  | [] => 0
  | x :: rest => rest.length • x + excess rest

/-- **The loop computes the sum and the excess.** -/
theorem foldl_round (xs : List M) (subtotal total : M) :
    xs.foldl round (subtotal, total) =
      (subtotal + xs.sum, total + xs.length • subtotal + (xs.sum + excess xs)) := by
  induction xs generalizing subtotal total with
  | nil => simp [excess]
  | cons x rest ih =>
    rw [List.foldl_cons, round, ih, List.sum_cons, excess, List.length_cons, smul_add, succ_nsmul,
      Prod.mk.injEq]
    exact ⟨add_assoc _ _ _, by abel⟩

theorem map_excess (f : M →+ N) (xs : List M) : f (excess xs) = excess (xs.map f) := by
  induction xs with
  | nil => exact map_zero f
  | cons x rest ih =>
    rw [excess, map_add, map_nsmul, ih, List.map_cons, excess, List.length_map]

theorem excess_eq_zero_iff (xs : List ℕ) : excess xs = 0 ↔ ∀ x ∈ xs.dropLast, x = 0 := by
  induction xs with
  | nil => exact ⟨fun _ _ member => (by cases member), fun _ => rfl⟩
  | cons x rest ih =>
    rw [excess, Nat.add_eq_zero_iff, ih, smul_eq_mul, Nat.mul_eq_zero, List.length_eq_zero_iff]
    cases rest with
    | nil => simp
    | cons y rest => simp [List.dropLast_cons_cons]

end RunningTotal
