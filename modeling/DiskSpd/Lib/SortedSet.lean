/-
**Sets as increasing lists.**

* `SortedSet` — a set with its elements listed in increasing order, as an iteration meets them;
  `insert` adds one, and `ext` — the members fix the set.
* `IsNth` — the element with so many smaller ones: the entry of the list there (`isNth_getElem`).
* `runs` — the numbers of an increasing list as maximal runs of consecutive ones (`areRuns_runs`).
-/

import Mathlib.Data.List.Sort
import Mathlib.Tactic.SplitIfs

/-- A set of which the elements are listed in increasing order. -/
structure SortedSet (α : Type) [LT α] where
  toList : List α
  sorted : toList.Pairwise (· < ·)

namespace SortedSet

/-! ### Insertion -/

section Insert

variable {α : Type} [LE α] [LT α] [Std.IsLinearOrder α] [Std.LawfulOrderLT α] [DecidableLT α]

instance : Membership α (SortedSet α) := ⟨fun s a => a ∈ s.toList⟩

/-- An element put into an increasing list, unless it is there. -/
def insertSorted (a : α) : List α → List α
  | [] => [a]
  | b :: rest =>
    if a < b then a :: b :: rest
    else if b < a then b :: insertSorted a rest
    else b :: rest

theorem mem_insertSorted {a c : α} {list : List α} :
    c ∈ insertSorted a list ↔ c = a ∨ c ∈ list := by
  induction list with
  | nil => rw [insertSorted, List.mem_singleton, or_iff_left List.not_mem_nil]
  | cons b rest ih =>
    unfold insertSorted
    split_ifs with before after
    · exact List.mem_cons
    · rw [List.mem_cons, ih, List.mem_cons]
      exact or_left_comm
    · have same : a = b := Std.le_antisymm (Std.not_lt.mp after) (Std.not_lt.mp before)
      rw [List.mem_cons, same]
      exact (or_iff_right_of_imp Or.inl).symm

theorem sorted_insertSorted (a : α) {list : List α} (sorted : list.Pairwise (· < ·)) :
    (insertSorted a list).Pairwise (· < ·) := by
  induction list with
  | nil => exact List.pairwise_singleton _ _
  | cons b rest ih =>
    obtain ⟨above, later⟩ := List.pairwise_cons.mp sorted
    unfold insertSorted
    split_ifs with before after
    · refine List.pairwise_cons.mpr ⟨fun c member => ?_, sorted⟩
      rcases List.mem_cons.mp member with rfl | inRest
      · exact before
      · exact Std.lt_trans before (above c inRest)
    · refine List.pairwise_cons.mpr ⟨fun c member => ?_, ih later⟩
      rcases mem_insertSorted.mp member with rfl | inRest
      · exact after
      · exact above c inRest
    · exact sorted

def empty : SortedSet α := ⟨[], List.Pairwise.nil⟩

def insert (s : SortedSet α) (a : α) : SortedSet α :=
  ⟨insertSorted a s.toList, sorted_insertSorted a s.sorted⟩

/-- The number of elements. -/
def size (s : SortedSet α) : Nat := s.toList.length

variable {s t : SortedSet α}

omit [LE α] [Std.IsLinearOrder α] [Std.LawfulOrderLT α] [DecidableLT α] in
theorem not_mem_empty (a : α) : a ∉ (empty : SortedSet α) := List.not_mem_nil

theorem mem_insert {a c : α} : c ∈ s.insert a ↔ c = a ∨ c ∈ s := mem_insertSorted

omit [DecidableLT α] in
/-- **The members fix the set.** -/
theorem ext (same : ∀ a, a ∈ s ↔ a ∈ t) : s = t := by
  obtain ⟨list, sorted⟩ := s
  obtain ⟨other, sorted'⟩ := t
  have lists : list = other := List.Pairwise.eq_of_mem_iff sorted sorted' same
  subst lists
  rfl

end Insert

/-! ### The order -/

section Order

variable {α : Type} [LE α] [LT α] [Std.IsLinearOrder α] [Std.LawfulOrderLT α] [DecidableLT α]

/-- The element has so many smaller ones in the set. -/
structure IsNth (s : SortedSet α) (k : Nat) (a : α) : Prop where
  mem : a ∈ s
  smaller : s.toList.countP (· < a) = k

theorem countP_lt_getElem {list : List α} (sorted : list.Pairwise (· < ·)) {k : Nat}
    (below : k < list.length) : list.countP (· < list[k]) = k := by
  induction list generalizing k with
  | nil => exact absurd below (Nat.not_lt_zero k)
  | cons a rest ih =>
    obtain ⟨above, later⟩ := List.pairwise_cons.mp sorted
    cases k with
    | zero =>
      refine List.countP_eq_zero.mpr fun c member less => ?_
      have less : c < a := of_decide_eq_true less
      rcases List.mem_cons.mp member with rfl | inRest
      · exact Std.lt_irrefl less
      · exact Std.lt_irrefl (Std.lt_trans less (above c inRest))
    | succ k =>
      have below : k < rest.length := Nat.lt_of_succ_lt_succ below
      have first : a < rest[k] := above _ (List.getElem_mem below)
      rw [List.getElem_cons_succ, List.countP_cons, ih later below, if_pos (decide_eq_true first)]

/-- **The entries of the list are its elements in order.** -/
theorem isNth_getElem (s : SortedSet α) {k : Nat} (below : k < s.toList.length) :
    s.IsNth k s.toList[k] :=
  ⟨List.getElem_mem below, countP_lt_getElem s.sorted below⟩

omit [DecidableLT α] in
/-- No element is above the last one. -/
theorem le_getLast? {s : SortedSet α} {last a : α} (isLast : s.toList.getLast? = some last)
    (member : a ∈ s) : a ≤ last := by
  obtain ⟨before, split⟩ := List.getLast?_eq_some_iff.mp isLast
  have sorted := s.sorted
  rw [split, List.pairwise_append] at sorted
  have member : a ∈ before ++ [last] := split ▸ member
  rcases List.mem_append.mp member with earlier | here
  · exact Std.le_of_lt (sorted.2.2 a earlier last (List.mem_singleton.mpr rfl))
  · exact Std.le_of_eq (List.mem_singleton.mp here)

end Order

/-! ### Runs of consecutive numbers -/

/-- The runs of an increasing list, each with its first and its last number. -/
def runs : List Nat → List (Nat × Nat)
  | [] => []
  | a :: rest =>
    match runs rest with
    | [] => [(a, a)]
    | (lo, hi) :: more => if lo = a + 1 then (a, hi) :: more else (a, a) :: (lo, hi) :: more

/-- **Ascending maximal runs** of the numbers of a list: between two runs a number is missing. -/
structure AreRuns (list : List Nat) (runs : List (Nat × Nat)) : Prop where
  ordered : ∀ run ∈ runs, run.1 ≤ run.2
  apart : runs.Pairwise fun run later => run.2 + 1 < later.1
  mem : ∀ c, c ∈ list ↔ ∃ run ∈ runs, run.1 ≤ c ∧ c ≤ run.2

section Runs

variable {a lo hi : Nat} {rest : List Nat} {more : List (Nat × Nat)}

/-- A number in front of the run that starts after it. -/
theorem AreRuns.extend (are : AreRuns rest ((a + 1, hi) :: more)) :
    AreRuns (a :: rest) ((a, hi) :: more) := by
  obtain ⟨first, ordered⟩ := List.forall_mem_cons.mp are.ordered
  obtain ⟨apart, later⟩ := List.pairwise_cons.mp are.apart
  have first : a + 1 ≤ hi := first
  refine ⟨List.forall_mem_cons.mpr ⟨by omega, ordered⟩, List.pairwise_cons.mpr ⟨apart, later⟩,
    fun c => ?_⟩
  rw [List.mem_cons, are.mem, List.exists_mem_cons_iff, List.exists_mem_cons_iff, ← or_assoc]
  refine or_congr_left ⟨fun either => ?_, fun inside => ?_⟩ <;> dsimp only at * <;> omega

/-- A number in front of a run that starts later. -/
theorem AreRuns.before (are : AreRuns rest ((lo, hi) :: more)) (gap : a + 1 < lo) :
    AreRuns (a :: rest) ((a, a) :: (lo, hi) :: more) := by
  obtain ⟨first, _⟩ := List.forall_mem_cons.mp are.ordered
  have first : lo ≤ hi := first
  refine ⟨List.forall_mem_cons.mpr ⟨le_rfl, are.ordered⟩, List.pairwise_cons.mpr ⟨?_, are.apart⟩,
    fun c => ?_⟩
  · refine List.forall_mem_cons.mpr ⟨gap, fun run member => ?_⟩
    have later : hi + 1 < run.1 := (List.pairwise_cons.mp are.apart).1 run member
    show a + 1 < run.1
    omega
  · rw [List.mem_cons, are.mem, List.exists_mem_cons_iff (a := (a, a))]
    exact or_congr_left ⟨fun same => ⟨same.ge, same.le⟩, fun ⟨low, high⟩ => le_antisymm high low⟩

/-- **The runs of an increasing list.** -/
theorem areRuns_runs {list : List Nat} (sorted : list.Pairwise (· < ·)) :
    AreRuns list (runs list) := by
  induction list with
  | nil => exact ⟨List.forall_mem_nil _, List.Pairwise.nil, fun c => by simp [runs]⟩
  | cons a rest ih =>
    obtain ⟨above, later⟩ := List.pairwise_cons.mp sorted
    have are := ih later
    unfold runs
    generalize runs rest = tail at are
    cases tail with
    | nil =>
      have none : rest = [] := List.eq_nil_iff_forall_not_mem.mpr fun c member => by
        obtain ⟨_, no, _⟩ := (are.mem c).mp member
        cases no
      rw [none]
      refine ⟨fun run member => ?_, List.pairwise_singleton _ _, fun c => ?_⟩
      · rw [List.mem_singleton.mp member]
      · simp only [List.mem_singleton, exists_eq_left]
        exact ⟨fun same => ⟨same.ge, same.le⟩, fun ⟨low, high⟩ => le_antisymm high low⟩
    | cons run more =>
      obtain ⟨lo, hi⟩ := run
      have first : a < lo := above lo ((are.mem lo).mpr
        ⟨(lo, hi), List.mem_cons_self, le_rfl, are.ordered _ List.mem_cons_self⟩)
      dsimp only
      split_ifs with next
      · subst next
        exact are.extend
      · exact are.before (by omega)

end Runs

end SortedSet
