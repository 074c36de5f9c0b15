/-
**Draws from a shared source.**

A source with a state answers draws under keys. What a draw returns depends on its key and on the
state, so on all the draws before it.

* `values` — the draws for a list of keys, each with its key, and the state they leave.
* `take_values` — the first draws are those for the first keys.
* `Replays` — a list of draws that begins as a fixed list and goes on as draws for some keys.
  `Replays.take_eq` — two such lists with the same first keys have the same first draws.
-/

import Mathlib.Data.List.Basic

namespace Draws

variable {Key Value State : Type*} (draw : Key → State → Value × State)

def values : List Key → State → List (Key × Value) × State
  | [], state => ([], state)
  | key :: keys, state =>
    let first := draw key state
    let rest := values keys first.2
    ((key, first.1) :: rest.1, rest.2)

/-- One draw more. -/
theorem values_concat (keys : List Key) (key : Key) (state : State) :
    values draw (keys ++ [key]) state =
      ((values draw keys state).1 ++ [(key, (draw key (values draw keys state).2).1)],
        (draw key (values draw keys state).2).2) := by
  induction keys generalizing state with
  | nil => rfl
  | cons first rest ih =>
    simp only [List.cons_append, values, ih]

theorem keys_values (keys : List Key) (state : State) :
    (values draw keys state).1.map Prod.fst = keys := by
  induction keys generalizing state with
  | nil => rfl
  | cons first rest ih => simp only [values, List.map_cons, ih]

/-- **The first draws are those for the first keys.** -/
theorem take_values (n : Nat) (keys : List Key) (state : State) :
    (values draw keys state).1.take n = (values draw (keys.take n) state).1 := by
  induction keys generalizing n state with
  | nil => rw [List.take_nil, values, List.take_nil]
  | cons first rest ih =>
    cases n with
    | zero => rfl
    | succ n => simp only [values, List.take_succ_cons, ih]

/-- The list begins as `start` and goes on with draws, or it is a beginning of that. -/
def Replays (start : List (Key × Value)) (state : State) (drawn : List (Key × Value)) : Prop :=
  ∃ keys, drawn <+: start ++ (values draw keys state).1

variable {draw} {start drawn drawn' : List (Key × Value)} {state : State}

/-- **The same keys give the same draws**, as far as they are the same. -/
theorem Replays.take_eq (replays : Replays draw start state drawn)
    (replays' : Replays draw start state drawn') {n : Nat}
    (same : (drawn.take n).map Prod.fst = (drawn'.take n).map Prod.fst) :
    drawn.take n = drawn'.take n := by
  obtain ⟨keys, isPrefix⟩ := replays
  obtain ⟨keys', isPrefix'⟩ := replays'
  have length := congrArg List.length same
  rw [List.length_map, List.length_map, List.length_take, List.length_take] at length
  have cut : ∀ {drawn : List (Key × Value)} {keys : List Key},
      drawn <+: start ++ (values draw keys state).1 →
      drawn.take n = start.take (min n drawn.length) ++
        (values draw (keys.take (min n drawn.length - start.length)) state).1 := by
    intro drawn keys isPrefix
    rw [← take_values, ← List.take_append, ← List.take_take, ← List.prefix_iff_eq_take.mp isPrefix]
  rw [cut isPrefix, cut isPrefix', ← length] at same ⊢
  rw [List.map_append, List.map_append, keys_values, keys_values, List.append_cancel_left_eq] at same
  rw [same]

end Draws
