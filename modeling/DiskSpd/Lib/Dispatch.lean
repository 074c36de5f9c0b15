/-
**Things that wait in queues and are then handed over.**

* `Apart` — each thing is in one queue at most, and not twice. It stays so when a queue loses things or
  orders them differently (`Apart.update`), and when a new thing joins one (`Apart.grow`).
* `Once` — besides, what has been handed over is in no queue: `Once.push`, `Once.take` and
  `Once.release` are its rules for a new thing, for the end of a queue that is handed over, and for a
  thing that comes back.
-/

import Mathlib.Data.List.Nodup
import Mathlib.Data.List.Perm.Subperm
import Mathlib.Logic.Function.Basic

namespace Dispatch

variable {G T : Type*} {queue : G → List T} {held : List T}

/-- Each thing is in one queue at most. -/
structure Apart (queue : G → List T) : Prop where
  queues : ∀ g, (queue g).Nodup
  apart : ∀ g g' x, x ∈ queue g → x ∈ queue g' → g = g'

namespace Apart

theorem empty : Apart (fun _ : G => ([] : List T)) where
  queues _ := List.nodup_nil
  apart _ _ _ member := by cases member

variable [DecidableEq G] {g : G} {items : List T}

/-- One queue changes, and every thing it then has comes from no other queue. -/
theorem replace (apart : Apart queue) (nodup : items.Nodup)
    (free : ∀ x ∈ items, ∀ g' ≠ g, x ∉ queue g') : Apart (Function.update queue g items) := by
  refine ⟨fun g' => ?_, fun g₁ g₂ x first second => ?_⟩
  · by_cases here : g' = g
    · rw [here, Function.update_self]
      exact nodup
    · rw [Function.update_of_ne here]
      exact apart.queues g'
  · by_cases one : g₁ = g <;> by_cases two : g₂ = g
    · rw [one, two]
    · rw [one, Function.update_self] at first
      rw [Function.update_of_ne two] at second
      exact absurd second (free x first g₂ two)
    · rw [Function.update_of_ne one] at first
      rw [two, Function.update_self] at second
      exact absurd first (free x second g₁ one)
    · rw [Function.update_of_ne one] at first
      rw [Function.update_of_ne two] at second
      exact apart.apart g₁ g₂ x first second

/-- A queue loses things, or orders them differently. -/
theorem update (apart : Apart queue) (fewer : items.Subperm (queue g)) :
    Apart (Function.update queue g items) := by
  obtain ⟨part, same, sub⟩ := fewer
  refine apart.replace (same.nodup_iff.mp ((apart.queues g).sublist sub)) fun x member g' other => ?_
  have old : x ∈ queue g := sub.subset (same.mem_iff.mpr member)
  exact fun there => other (apart.apart g' g x there old)

/-- A new thing joins a queue. -/
theorem grow {x : T} (apart : Apart queue) (new : ∀ g, x ∉ queue g)
    (joins : items.Perm (x :: queue g)) : Apart (Function.update queue g items) := by
  refine apart.replace (joins.nodup_iff.mpr (List.nodup_cons.mpr ⟨new g, apart.queues g⟩)) ?_
  intro y member g' other there
  rcases List.mem_cons.mp (joins.mem_iff.mp member) with rfl | old
  · exact new g' there
  · exact other (apart.apart g' g y there old)

end Apart

/-- Each thing is in one queue at most, or has been handed over. -/
structure Once (queue : G → List T) (held : List T) : Prop extends Apart queue where
  once : held.Nodup
  notBoth : ∀ g, ∀ x ∈ queue g, x ∉ held

namespace Once

theorem empty : Once (fun _ : G => ([] : List T)) [] where
  toApart := .empty
  once := List.nodup_nil
  notBoth _ _ member := by cases member

theorem perm {other : List T} (once : Once queue held) (same : held.Perm other) :
    Once queue other where
  toApart := once.toApart
  once := same.nodup_iff.mp once.once
  notBoth g x member := fun inOther => once.notBoth g x member (same.mem_iff.mpr inOther)

/-- A thing that comes back is in no place. -/
theorem release {x : T} (once : Once queue (x :: held)) :
    Once queue held ∧ x ∉ held ∧ ∀ g, x ∉ queue g := by
  obtain ⟨apart, once, notBoth⟩ := once
  rw [List.nodup_cons] at once
  refine ⟨⟨apart, once.2, fun g y member inHeld => ?_⟩, once.1, fun g member => ?_⟩
  · exact notBoth g y member (List.mem_cons_of_mem x inHeld)
  · exact notBoth g x member List.mem_cons_self

variable [DecidableEq G] {g : G}

/-- What one queue has after a change, it had before or is new. -/
theorem mem_update {items : List T} {g' : G} {y : T}
    (member : y ∈ Function.update queue g items g') : y ∈ queue g' ∨ g' = g ∧ y ∈ items := by
  by_cases here : g' = g
  · rw [here, Function.update_self] at member
    exact Or.inr ⟨here, member⟩
  · rw [Function.update_of_ne here] at member
    exact Or.inl member

/-- A new thing joins a queue. -/
theorem push {x : T} (once : Once queue held) (new : ∀ g, x ∉ queue g) (notHeld : x ∉ held) :
    Once (Function.update queue g (queue g ++ [x])) held where
  toApart := once.grow new (List.perm_append_singleton x (queue g))
  once := once.once
  notBoth g' y member := by
    rcases mem_update member with old | ⟨rfl, here⟩
    · exact once.notBoth g' y old
    · rcases List.mem_append.mp here with old | single
      · exact once.notBoth g' y old
      · rwa [List.mem_singleton.mp single]

/-- The end of a queue is handed over. -/
theorem take {rest taken : List T} (once : Once queue held) (split : queue g = rest ++ taken) :
    Once (Function.update queue g rest) (held ++ taken) := by
  have distinct := once.queues g
  rw [split, List.nodup_append] at distinct
  have part : rest.Sublist (queue g) := by
    rw [split]
    exact List.sublist_append_left rest taken
  have isTaken : ∀ y ∈ taken, y ∈ queue g := fun y member => by
    rw [split]
    exact List.mem_append_right _ member
  refine ⟨once.update part.subperm, List.nodup_append.mpr ⟨once.once, distinct.2.1, ?_⟩, ?_⟩
  · rintro y inHeld z member rfl
    exact once.notBoth g y (isTaken y member) inHeld
  · intro g' y member inHeld
    have old : y ∈ queue g' := by
      rcases mem_update member with old | ⟨rfl, here⟩
      · exact old
      · exact part.subset here
    rcases List.mem_append.mp inHeld with isHeld | new
    · exact once.notBoth g' y old isHeld
    · have here := once.apart g' g y old (isTaken y new)
      rw [here, Function.update_self] at member
      exact distinct.2.2 y member y new rfl

end Once

end Dispatch
