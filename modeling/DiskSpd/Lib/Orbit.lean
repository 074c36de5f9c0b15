/-
**Lists that follow a function.**

* `IsOrbit` — a list starts at a point, and each next entry is the image of the one before it.
* `append_next`, `append_after` — an orbit grows by the image of its last entry.
* `getElem?_eq` — the entries are the iterates of the function.
* `of_fixed` — at a fixed point, every constant list is an orbit.
* `iterate_cyclic` — a function that goes around `L` points in order is addition modulo `L`, and
  each turn comes to each point once (`existsUnique_turn`).
-/

import Mathlib.Data.List.Iterate
import Mathlib.Data.Nat.ModEq

namespace Orbit

variable {α : Type*} {f : α → α} {start : α} {xs : List α}

/-- The list follows the function from the start. -/
structure IsOrbit (f : α → α) (start : α) (xs : List α) : Prop where
  first : ∀ x, xs[0]? = some x → x = start
  next : ∀ i x y, xs[i]? = some x → xs[i + 1]? = some y → y = f x

namespace IsOrbit

theorem nil : IsOrbit f start [] where
  first _ found := by cases found
  next _ _ _ found := by cases found

theorem singleton : IsOrbit f start [start] where
  first x found := by
    cases found
    rfl
  next _ _ _ _ found := by cases found

/-- **The entries are the iterates.** -/
theorem getElem?_eq (orbit : IsOrbit f start xs) {i : Nat} {x : α} (found : xs[i]? = some x) :
    x = f^[i] start := by
  induction i generalizing x with
  | zero => exact orbit.first x found
  | succ i ih =>
    have below := (List.getElem?_eq_some_iff.mp found).1
    have before := List.getElem?_eq_getElem (Nat.lt_of_succ_lt below)
    rw [orbit.next i _ x before found, ih before, Function.iterate_succ_apply']

theorem iterate (f : α → α) (start : α) (n : Nat) : IsOrbit f start (List.iterate f start n) where
  first x found := by
    obtain ⟨below, rfl⟩ := List.getElem?_eq_some_iff.mp found
    rw [List.getElem_iterate]
    rfl
  next i x y found after := by
    obtain ⟨_, rfl⟩ := List.getElem?_eq_some_iff.mp found
    obtain ⟨_, rfl⟩ := List.getElem?_eq_some_iff.mp after
    rw [List.getElem_iterate, List.getElem_iterate, Function.iterate_succ_apply']

/-- **An orbit grows by the image of its last entry.** -/
theorem append_next (orbit : IsOrbit f start xs) {last : α} (isLast : xs.getLast? = some last) :
    IsOrbit f start (xs ++ [f last]) where
  first x found := by
    cases xs with
    | nil => cases isLast
    | cons y ys => exact orbit.first x found
  next i x y found after := by
    have below := (List.getElem?_eq_some_iff.mp after).1
    rw [List.length_append, List.length_singleton] at below
    rw [List.getElem?_append_left (by omega)] at found
    by_cases inside : i + 1 < xs.length
    · rw [List.getElem?_append_left inside] at after
      exact orbit.next i x y found after
    · have atEnd : i + 1 = xs.length := by omega
      rw [atEnd, List.getElem?_concat_length, Option.some.injEq] at after
      rw [List.getLast?_eq_getElem?, ← atEnd, Nat.add_sub_cancel, found,
        Option.some.injEq] at isLast
      rw [← after, isLast]

/-- The same from the point before the start, which an empty orbit grows from. -/
theorem append_after {origin : α} (orbit : IsOrbit f (f origin) xs) :
    IsOrbit f (f origin) (xs ++ [f (xs.getLast?.getD origin)]) := by
  cases last : xs.getLast? with
  | none =>
    rw [List.getLast?_eq_none_iff.mp last]
    exact .singleton
  | some x => exact orbit.append_next last

theorem of_fixed (fixed : f start = start) (same : ∀ x ∈ xs, x = start) : IsOrbit f start xs where
  first x found := same x (List.mem_of_getElem? found)
  next i x y found after := by
    rw [same x (List.mem_of_getElem? found), fixed]
    exact same y (List.mem_of_getElem? after)

end IsOrbit

/-! ### Cycles -/

/-- **A function that goes around** `L` points in order. -/
theorem iterate_cyclic (point : Nat → α) {L : Nat}
    (next : ∀ j, j < L → f (point j) = point ((j + 1) % L)) {j : Nat} (below : j < L) (k : Nat) :
    f^[k] (point j) = point ((j + k) % L) := by
  induction k with
  | zero => rw [Function.iterate_zero_apply, Nat.add_zero, Nat.mod_eq_of_lt below]
  | succ k ih =>
    have inside : (j + k) % L < L := Nat.mod_lt _ (Nat.zero_lt_of_lt below)
    rw [Function.iterate_succ_apply', ih, next _ inside, Nat.mod_add_mod, Nat.add_assoc]

/-- **In `L` consecutive places each residue modulo `L` comes once.** -/
theorem existsUnique_turn {L m : Nat} (below : m < L) (first : Nat) :
    ∃! i, i < L ∧ (first + i) % L = m := by
  have inside : first % L < L := Nat.mod_lt _ (Nat.zero_lt_of_lt below)
  have reaches : ∃ i, i < L ∧ (first % L + i) % L = m := by
    by_cases later : first % L ≤ m
    · refine ⟨m - first % L, by omega, ?_⟩
      rw [Nat.add_sub_cancel' later, Nat.mod_eq_of_lt below]
    · refine ⟨m + L - first % L, by omega, ?_⟩
      rw [Nat.add_sub_cancel' (by omega), Nat.add_mod_right, Nat.mod_eq_of_lt below]
  obtain ⟨i, small, there⟩ := reaches
  rw [Nat.mod_add_mod] at there
  refine ⟨i, ⟨small, there⟩, fun i' ⟨small', there'⟩ => ?_⟩
  have same : first + i' ≡ first + i [MOD L] := there'.trans there.symm
  exact (Nat.ModEq.add_left_cancel' first same).eq_of_lt_of_lt small' small

end Orbit
