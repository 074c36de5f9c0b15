/-
**Character classes in regular expressions.**

* `oneOf` — a class of symbols, as in `[0-9]`; `optional` — an expression that may be absent.
* `cons_mem_oneOf_mul`, `cons_mem_star_mul` — what a scanner decides at its next symbol, once for a
  class and once for a loop over a class; `nil_notMem_oneOf_mul`, `nil_mem_star_mul` — at the end.
-/

import Mathlib.Computability.RegularExpressions

namespace Grammar

open RegularExpression

variable {α : Type*} {a : α} {word : List α} {symbols : List α} {P Q : RegularExpression α}

/-- One symbol of the class. -/
def oneOf (symbols : List α) : RegularExpression α :=
  symbols.foldr (fun a rest => char a + rest) 0

/-- The expression, or nothing. -/
def optional (P : RegularExpression α) : RegularExpression α := P + 1

theorem mem_oneOf : word ∈ (oneOf symbols).matches' ↔ ∃ a ∈ symbols, word = [a] := by
  induction symbols with
  | nil => exact ⟨fun none => none.elim, fun ⟨_, member, _⟩ => nomatch member⟩
  | cons b symbols ih =>
    show word ∈ (char b + oneOf symbols).matches' ↔ _
    rw [matches'_add, Language.mem_add, ih, matches'_char, List.exists_mem_cons_iff]
    exact Iff.rfl

theorem mem_optional : word ∈ (optional P).matches' ↔ word ∈ P.matches' ∨ word = [] := by
  unfold optional
  rw [matches'_add, Language.mem_add, matches'_epsilon, Language.mem_one]

/-! ### A class, then the rest -/

theorem cons_mem_oneOf_mul :
    a :: word ∈ (oneOf symbols * Q).matches' ↔ a ∈ symbols ∧ word ∈ Q.matches' := by
  rw [matches'_mul, Language.mem_mul]
  constructor
  · rintro ⟨first, isFirst, rest, isRest, joined⟩
    obtain ⟨b, member, rfl⟩ := mem_oneOf.mp isFirst
    obtain ⟨rfl, rfl⟩ := List.cons.inj joined
    exact ⟨member, isRest⟩
  · rintro ⟨member, isRest⟩
    exact ⟨[a], mem_oneOf.mpr ⟨a, member, rfl⟩, word, isRest, rfl⟩

theorem nil_notMem_oneOf_mul : [] ∉ (oneOf symbols * Q).matches' := by
  rw [matches'_mul, Language.mem_mul]
  rintro ⟨first, isFirst, rest, _, joined⟩
  obtain ⟨b, _, rfl⟩ := mem_oneOf.mp isFirst
  cases joined

/-! ### A loop over a class, then the rest -/

/-- The loop ends, or goes round once more. -/
theorem mem_star_mul : word ∈ (star P * Q).matches' ↔
    word ∈ Q.matches' ∨ word ∈ (P * (star P * Q)).matches' := by
  have unrolled : (star P * Q).matches' = Q.matches' + (P * (star P * Q)).matches' :=
    calc (star P * Q).matches' = (1 + P.matches' * KStar.kstar P.matches') * Q.matches' := by
          rw [Language.one_add_self_mul_kstar_eq_kstar, matches'_mul, matches'_star]
      _ = Q.matches' + (P * (star P * Q)).matches' := by
          rw [add_mul, one_mul, mul_assoc, matches'_mul, matches'_mul, matches'_star]
  rw [unrolled, Language.mem_add]

theorem cons_mem_star_mul : a :: word ∈ (star (oneOf symbols) * Q).matches' ↔
    a :: word ∈ Q.matches' ∨ (a ∈ symbols ∧ word ∈ (star (oneOf symbols) * Q).matches') :=
  mem_star_mul.trans (or_congr_right cons_mem_oneOf_mul)

theorem nil_mem_star_mul : [] ∈ (star (oneOf symbols) * Q).matches' ↔ [] ∈ Q.matches' :=
  mem_star_mul.trans (or_iff_left nil_notMem_oneOf_mul)

/-- A loop alone accepts the words over its class. -/
theorem mem_star_oneOf :
    word ∈ (star (oneOf symbols)).matches' ↔ ∀ a ∈ word, a ∈ symbols := by
  have alone : (star (oneOf symbols)).matches' = (star (oneOf symbols) * 1).matches' := by
    rw [matches'_mul, matches'_epsilon, mul_one]
  rw [alone]
  induction word with
  | nil =>
    rw [nil_mem_star_mul, matches'_epsilon]
    exact ⟨fun _ _ member => (List.not_mem_nil member).elim, fun _ => rfl⟩
  | cons a word ih =>
    have never : a :: word ∉ (1 : RegularExpression α).matches' := by
      rw [matches'_epsilon, Language.mem_one]
      exact List.cons_ne_nil a word
    rw [cons_mem_star_mul, or_iff_right never, List.forall_mem_cons]
    exact and_congr_right fun _ => ih

end Grammar
