/-
**Steps that may be taken in another order.**

* `foldlM_move` — an element whose step commutes with those before it may be taken first.
* `foldlM_eq_of_perm` — two permuted lists give the same run where only the steps of some elements
  must keep their order, and both lists have these in the same order.
-/

import Mathlib.Data.List.Perm.Basic

namespace Reorder

variable {m : Type → Type} [Monad m] [LawfulMonad m] {σ : Type} {α : Type*} {step : σ → α → m σ}

/-- Two steps commute from each state. -/
def Commute (step : σ → α → m σ) (a b : α) : Prop :=
  ∀ state, (step state a >>= fun next => step next b) = step state b >>= fun next => step next a

theorem foldlM_move {a : α} {before after : List α} (commute : ∀ b ∈ before, Commute step b a)
    (state : σ) :
    (before ++ a :: after).foldlM step state = (a :: (before ++ after)).foldlM step state := by
  induction before generalizing state with
  | nil => rfl
  | cons b before ih =>
    obtain ⟨first, others⟩ := List.forall_mem_cons.mp commute
    calc (b :: before ++ a :: after).foldlM step state
        = step state b >>= fun next => (a :: (before ++ after)).foldlM step next := by
          rw [List.cons_append, List.foldlM_cons]
          exact bind_congr fun next => ih others next
      _ = (step state b >>= fun next => step next a) >>=
            fun next => (before ++ after).foldlM step next := by
          simp only [List.foldlM_cons, bind_assoc]
      _ = (a :: (b :: before ++ after)).foldlM step state := by
          rw [first state]
          simp only [List.cons_append, List.foldlM_cons, bind_assoc]

/-- What stands before the first occurrence of an element that keeps its place among the kept ones
is not kept. -/
theorem filter_before {kept : α → Bool} {a : α} {rest before after : List α}
    (order : (a :: rest).filter kept = (before ++ a :: after).filter kept)
    (firstOne : a ∉ before) (isKept : kept a = true) : before.filter kept = [] := by
  rw [List.filter_append, List.filter_cons_of_pos isKept] at order
  cases found : before.filter kept with
  | nil => rfl
  | cons b others =>
    rw [found, List.cons_append] at order
    have here : b ∈ before.filter kept := found ▸ List.mem_cons_self
    exact absurd (List.mem_of_mem_filter ((List.cons.inj order).1 ▸ here)) firstOne

/-- **Reordering.** Permuted lists that keep the order of the kept elements give the same run. -/
theorem foldlM_eq_of_perm {kept : α → Bool}
    (commute : ∀ a b, ¬(kept a = true ∧ kept b = true) → Commute step a b) {first second : List α}
    (perm : first.Perm second) (order : first.filter kept = second.filter kept) (state : σ) :
    first.foldlM step state = second.foldlM step state := by
  induction first generalizing second state with
  | nil => rw [perm.nil_eq]
  | cons a rest ih =>
    -- the first occurrence in the other list is moved to its front
    obtain ⟨before, after, rfl, firstOne⟩ :=
      List.eq_append_cons_of_mem (perm.mem_iff.mp List.mem_cons_self)
    have passes : ∀ b ∈ before, Commute step b a := by
      refine fun b member => commute b a fun both => ?_
      have none := filter_before order firstOne both.2
      exact List.not_mem_nil (none ▸ List.mem_filter.mpr ⟨member, both.1⟩)
    have tails : rest.filter kept = (before ++ after).filter kept := by
      rw [List.filter_append] at order ⊢
      by_cases isKept : kept a = true
      · have none := filter_before (by rwa [List.filter_append]) firstOne isKept
        rw [List.filter_cons_of_pos isKept, List.filter_cons_of_pos isKept, none] at order
        rw [none]
        exact (List.cons.inj order).2
      · rwa [List.filter_cons_of_neg isKept, List.filter_cons_of_neg isKept] at order
    have others : rest.Perm (before ++ after) := (perm.trans List.perm_middle).cons_inv
    rw [foldlM_move passes, List.foldlM_cons, List.foldlM_cons]
    exact bind_congr fun next => ih others tails next

end Reorder
