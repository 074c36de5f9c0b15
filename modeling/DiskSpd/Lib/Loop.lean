/-
**Loops over a list.**

A loop can fail at each round:

* `foldlM_history` — the invariant rule for a loop with an accumulator: what holds before the first
  round and is kept by each round, of the rounds so far and the accumulator, holds at the end.
* `foldlM_total` — a loop whose rounds succeed and keep what the next ones need succeeds.
* `mapM_getElem?` — a loop that maps each entry on its own: each entry of the result comes from the
  entry at its place, there are as many (`mapM_length`), and no entry fails (`mapM_total`); it
  succeeds when each entry does (`mapM_exists`).

`nested` are the rounds of two nested loops: `length_nested` counts them, `nested_getElem?` finds one,
no round comes twice (`nodup_nested`), and `filter_inner` and `filter_outer` pick those with one inner
index and those of one outer entry.
-/

import Mathlib.Algebra.BigOperators.Group.List.Basic
import Mathlib.Algebra.Ring.Nat
import Mathlib.Data.List.Basic
import Mathlib.Data.List.Nodup

namespace Loop

variable {α β : Type*}

/-- **The invariant rule**, over the rounds done so far. -/
theorem foldlM_history {step : β → α → Option β} (holds : List α → β → Prop) :
    ∀ {rounds : List α} {first last : β}, rounds.foldlM step first = some last →
      holds [] first →
      (∀ past state round next, past ++ [round] <+: rounds → holds past state →
        step state round = some next → holds (past ++ [round]) next) →
      holds rounds last
  | [], _, _, done, start, _ => by
    cases done
    exact start
  | round :: rounds, first, _, done, start, keep => by
    rw [List.foldlM_cons] at done
    obtain ⟨next, taken, done⟩ := Option.bind_eq_some_iff.mp done
    refine foldlM_history (fun past => holds (round :: past)) done
      (keep [] first round next ⟨rounds, rfl⟩ start taken) ?_
    intro past state round' next' isPrefix before step
    exact keep (round :: past) state round' next' ((List.prefix_cons_inj round).mpr isPrefix) before
      step

/-- **A loop that succeeds**, by what the rounds that are left need. -/
theorem foldlM_total {step : β → α → Option β} (needs : List α → β → Prop)
    (keep : ∀ round rest state, needs (round :: rest) state →
      ∃ next, step state round = some next ∧ needs rest next) :
    ∀ {rounds : List α} {first : β}, needs rounds first →
      ∃ last, rounds.foldlM step first = some last
  | [], first, _ => ⟨first, rfl⟩
  | round :: rounds, first, start => by
    obtain ⟨next, taken, left⟩ := keep round rounds first start
    obtain ⟨last, done⟩ := foldlM_total needs keep left
    refine ⟨last, ?_⟩
    rw [List.foldlM_cons, taken]
    exact done

theorem mapM_getElem? {f : α → Option β} :
    ∀ {xs : List α} {ys : List β}, xs.mapM f = some ys → ∀ n : Nat, ys[n]? = xs[n]?.bind f
  | [], ys, done, n => by
    cases done
    rfl
  | x :: xs, ys, done, n => by
    rw [List.mapM_cons] at done
    obtain ⟨y, here, done⟩ := Option.bind_eq_some_iff.mp done
    obtain ⟨rest, there, done⟩ := Option.bind_eq_some_iff.mp done
    cases done
    cases n with
    | zero => exact here.symm
    | succ n => exact mapM_getElem? there n

theorem mapM_total {f : α → Option β} :
    ∀ {xs : List α} {ys : List β}, xs.mapM f = some ys → ∀ x ∈ xs, ∃ y, f x = some y
  | [], _, _, _, member => by cases member
  | x :: xs, ys, done, x', member => by
    rw [List.mapM_cons] at done
    obtain ⟨y, here, done⟩ := Option.bind_eq_some_iff.mp done
    obtain ⟨rest, there, _⟩ := Option.bind_eq_some_iff.mp done
    rcases List.mem_cons.mp member with rfl | member
    · exact ⟨y, here⟩
    · exact mapM_total there x' member

theorem mapM_length {f : α → Option β} :
    ∀ {xs : List α} {ys : List β}, xs.mapM f = some ys → ys.length = xs.length
  | [], _, done => by
    cases done
    rfl
  | x :: xs, ys, done => by
    rw [List.mapM_cons] at done
    obtain ⟨y, _, done⟩ := Option.bind_eq_some_iff.mp done
    obtain ⟨rest, there, done⟩ := Option.bind_eq_some_iff.mp done
    cases done
    exact congrArg Nat.succ (mapM_length there)

theorem mapM_exists {f : α → Option β} :
    ∀ {xs : List α}, (∀ x ∈ xs, ∃ y, f x = some y) → ∃ ys, xs.mapM f = some ys
  | [], _ => ⟨[], rfl⟩
  | x :: xs, each => by
    obtain ⟨here, there⟩ := List.forall_mem_cons.mp each
    obtain ⟨y, here⟩ := here
    obtain ⟨ys, there⟩ := mapM_exists there
    refine ⟨y :: ys, ?_⟩
    rw [List.mapM_cons, here, there]
    rfl

/-! ### Nested loops -/

/-- The rounds of two nested loops, where an entry of the outer one bounds the inner one. -/
def nested (limit : α → Nat) (xs : List α) : List (α × Nat) :=
  xs.flatMap fun x => (List.range (limit x)).map fun i => (x, i)

theorem length_nested (limit : α → Nat) (xs : List α) :
    (nested limit xs).length = (xs.map limit).sum := by
  simp [nested, List.length_flatMap]

theorem nested_cons (limit : α → Nat) (x : α) (xs : List α) :
    nested limit (x :: xs) = (List.range (limit x)).map (fun i => (x, i)) ++ nested limit xs :=
  List.flatMap_cons

theorem mem_nested {limit : α → Nat} {xs : List α} {round : α × Nat} :
    round ∈ nested limit xs ↔ round.1 ∈ xs ∧ round.2 < limit round.1 := by
  obtain ⟨x, i⟩ := round
  simp [nested]

/-- **Where a round is**: after all rounds of the entries before its own. -/
theorem nested_getElem? {limit : α → Nat} {i : Nat} :
    ∀ {xs : List α} {t : Nat} {x : α}, xs[t]? = some x → i < limit x →
      (nested limit xs)[((xs.take t).map limit).sum + i]? = some (x, i)
  | [], _, _, found, _ => by cases found
  | y :: ys, 0, x, found, below => by
    cases found
    rw [nested_cons, List.take_zero, List.map_nil, List.sum_nil, Nat.zero_add,
      List.getElem?_append_left (by rwa [List.length_map, List.length_range]), List.getElem?_map,
      List.getElem?_range below]
    rfl
  | y :: ys, t + 1, x, found, below => by
    have there := nested_getElem? (List.getElem?_cons_succ.symm.trans found) below
    have length : ((List.range (limit y)).map fun i => (y, i)).length = limit y := by
      rw [List.length_map, List.length_range]
    rw [nested_cons, List.take_succ_cons, List.map_cons, List.sum_cons,
      List.getElem?_append_right (by rw [length]; omega), length]
    rwa [show limit y + ((ys.take t).map limit).sum + i - limit y =
      ((ys.take t).map limit).sum + i by omega]

theorem nodup_nested {limit : α → Nat} :
    ∀ {xs : List α}, xs.Nodup → (nested limit xs).Nodup
  | [], _ => List.nodup_nil
  | x :: xs, nodup => by
    obtain ⟨fresh, nodup⟩ := List.nodup_cons.mp nodup
    rw [nested_cons, List.nodup_append]
    refine ⟨List.Nodup.map (fun i j same => (Prod.mk.inj same).2) List.nodup_range,
      nodup_nested nodup, ?_⟩
    rintro _ here round there rfl
    obtain ⟨i, _, rfl⟩ := List.mem_map.mp here
    exact fresh (mem_nested.mp there).1

/-- The rounds with one inner index, when every entry has one. -/
theorem filter_inner {limit : α → Nat} {i : Nat} :
    ∀ {xs : List α}, (∀ x ∈ xs, i < limit x) →
      (nested limit xs).filter (fun round => round.2 == i) = xs.map fun x => (x, i)
  | [], _ => rfl
  | x :: xs, below => by
    obtain ⟨here, rest⟩ := List.forall_mem_cons.mp below
    have ih := filter_inner rest
    unfold nested at ih ⊢
    rw [List.flatMap_cons, List.filter_append, ih, List.filter_map]
    have one : (List.range (limit x)).filter ((fun round : α × Nat => round.2 == i) ∘ fun i => (x, i))
        = [i] := by
      show (List.range (limit x)).filter (fun j => j == i) = [i]
      rw [List.filter_beq, List.nodup_range.count, if_pos (List.mem_range.mpr here)]
      rfl
    rw [one]
    rfl

/-- The rounds of some of the outer entries. -/
theorem filter_outer (limit : α → Nat) (p : α → Bool) (xs : List α) :
    (nested limit xs).filter (fun round => p round.1) = nested limit (xs.filter p) := by
  induction xs with
  | nil => rfl
  | cons x xs ih =>
    unfold nested at ih ⊢
    rw [List.flatMap_cons, List.filter_append, ih]
    cases chosen : p x with
    | true =>
      rw [List.filter_cons_of_pos chosen, List.flatMap_cons, List.filter_eq_self.mpr]
      intro round member
      obtain ⟨i, _, rfl⟩ := List.mem_map.mp member
      exact chosen
    | false =>
      rw [List.filter_cons_of_neg (by rw [chosen]; exact Bool.false_ne_true),
        List.filter_eq_nil_iff.mpr, List.nil_append]
      intro round member yes
      obtain ⟨i, _, rfl⟩ := List.mem_map.mp member
      exact Bool.false_ne_true (chosen.symm.trans yes)

/-- The entry at an index, among the entries with their indices. -/
theorem filter_zipIdx {k : Nat} : ∀ {xs : List α} {x : α} {start : Nat}, xs[k]? = some x →
    (xs.zipIdx start).filter (fun entry => entry.2 == start + k) = [(x, start + k)] := by
  induction k with
  | zero =>
    intro xs x start found
    cases xs with
    | nil => cases found
    | cons y ys =>
      cases found
      rw [List.zipIdx_cons, List.filter_cons_of_pos (by simp)]
      have none : (ys.zipIdx (start + 1)).filter (fun entry => entry.2 == start + 0) = [] := by
        rw [List.filter_eq_nil_iff]
        intro entry member same
        have := List.le_snd_of_mem_zipIdx member
        have := eq_of_beq same
        omega
      rw [none]
      rfl
  | succ k ih =>
    intro xs x start found
    cases xs with
    | nil => cases found
    | cons y ys =>
      have rest : (ys.zipIdx (start + 1)).filter (fun entry => entry.2 == start + 1 + k) =
          [(x, start + 1 + k)] := ih (List.getElem?_cons_succ.symm.trans found)
      rw [List.zipIdx_cons, List.filter_cons_of_neg (by simp)]
      rwa [show start + 1 + k = start + (k + 1) by omega] at rest

end Loop
