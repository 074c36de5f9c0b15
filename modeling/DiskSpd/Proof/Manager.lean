/-
**What the interface of an engine promises** (`IAsyncIOManager`).

* `Standing` — all that the interface lets a caller know of a group: the call it is in, the operations it
  has queued, and those in flight.
* `Unchanged` — a step of the engine that leaves what an operation says of itself.
* `LawfulManager` — the promise: `enqueue` queues an operation, `submit` puts what is queued in flight or
  fails, `wait` returns an operation in flight and never a null pointer; a call of one group leaves the
  others as they stand.

A group whose `submit` has failed has no promise left, only its operations.
-/

import DiskSpd.Lib.Dispatch
import DiskSpd.Model.Manager
import DiskSpd.Proof.Iop

namespace DiskSpd

open Dispatch IAsyncIop LawfulIop

/-- The call of the engine that a group is in. -/
inductive Activity where
  | outside
  | submitting
  | waiting
  | failed
  deriving DecidableEq, Repr

structure Standing where
  activity : Activity := .outside
  queue : List Nat := []
  flying : List Nat := []

def Standing.place (standing : Standing) : List Nat :=
  standing.queue ++ standing.flying

/-- An operation says of itself what it did. -/
structure Unchanged {Op : Type} [IAsyncIop Op] [LawfulIop Op] (op op' : Op) : Prop where
  view : view op' = view op
  inStep : InStep op → InStep op'

namespace Unchanged

variable {Op : Type} [IAsyncIop Op] [LawfulIop Op] {op op' op'' : Op}

theorem refl (op : Op) : Unchanged op op :=
  ⟨rfl, id⟩

theorem trans (first : Unchanged op op') (second : Unchanged op' op'') : Unchanged op op'' :=
  ⟨second.view.trans first.view, second.inStep ∘ first.inStep⟩

/-- Another operation of the heap gets new fields that change nothing it says. -/
theorem update {ops : Nat → Op} {m : Nat} {op : Op} (unchanged : Unchanged (ops m) op) (n : Nat) :
    Unchanged (ops n) (Function.update ops m op n) := by
  by_cases here : n = m
  · rw [here, Function.update_self]
    exact unchanged
  · rw [Function.update_of_ne here]
    exact .refl _

end Unchanged

/-- **What an engine promises.** `Holds` tells how the groups stand in a state. -/
structure LawfulManager {Op : Type} [IAsyncIop Op] [LawfulIop Op] (manager : IAsyncIOManager Op) where
  Holds : manager.State → (Int32 → Standing) → Prop
  apart {s : manager.State} {st : Int32 → Standing} : Holds s st → Dispatch.Apart (Standing.place ∘ st)
  requests {s : manager.State} {st : Int32 → Standing} {g : Int32} : Holds s st →
    (st g).activity ≠ .failed → (manager.requests s g).Perm (st g).flying
  requests_place {s : manager.State} {st : Int32 → Standing} {g : Int32} : Holds s st →
    (manager.requests s g).Subperm (st g).place
  init {s : manager.State} : manager.init s → Holds s fun _ => {}
  store {s : manager.State} {st : Int32 → Standing} {n : Nat} (op : Op) : Holds s st →
    (∀ g, n ∉ (st g).place) → Holds (manager.store s n op) st
  ops_store (s : manager.State) (n : Nat) (op : Op) :
    manager.ops (manager.store s n op) = Function.update (manager.ops s) n op
  enqueue {s : manager.State} {st : Int32 → Standing} {g : Int32} {n : Nat} {q f : List Nat} :
    Holds s st → st g = ⟨.outside, q, f⟩ → (view (manager.ops s n)).groupId = g →
    (∀ g, n ∉ (st g).place) →
    Holds (manager.enqueue s n) (Function.update st g ⟨.outside, q ++ [n], f⟩)
  callSubmit {s : manager.State} {st : Int32 → Standing} {g : Int32} {q f : List Nat} : Holds s st →
    st g = ⟨.outside, q, f⟩ →
    Holds (manager.callSubmit s g) (Function.update st g ⟨.submitting, q, f⟩)
  callWait {s : manager.State} {st : Int32 → Standing} {g : Int32} {q f : List Nat} : Holds s st →
    st g = ⟨.outside, q, f⟩ → Holds (manager.callWait s g) (Function.update st g ⟨.waiting, q, f⟩)
  insideSubmit {s next : manager.State} {st : Int32 → Standing} {g : Int32} {q f : List Nat} :
    Holds s st → st g = ⟨.submitting, q, f⟩ → manager.inside s g next →
    ∃ q' f', (q' ++ f').Perm (q ++ f) ∧ f.Subperm f' ∧
      Holds next (Function.update st g ⟨.submitting, q', f'⟩)
  insideWait {s next : manager.State} {st : Int32 → Standing} {g : Int32} {q f : List Nat} :
    Holds s st → st g = ⟨.waiting, q, f⟩ → manager.inside s g next →
    ∃ f', f'.Perm f ∧ Holds next (Function.update st g ⟨.waiting, q, f'⟩)
  submitReturns {s next : manager.State} {st : Int32 → Standing} {g ret : Int32} {q f : List Nat} :
    Holds s st → st g = ⟨.submitting, q, f⟩ → manager.submitReturns s g ret next →
    (ret = 0 ∧ ∃ f', f'.Perm (q ++ f) ∧ Holds next (Function.update st g ⟨.outside, [], f'⟩)) ∨
      (ret ≠ 0 ∧ Holds next (Function.update st g ⟨.failed, q, f⟩))
  waitReturns {s next : manager.State} {st : Int32 → Standing} {g : Int32} {op : Option Nat}
    {q f : List Nat} : Holds s st → st g = ⟨.waiting, q, f⟩ → manager.waitReturns s g op next →
    ∃ n f', op = some n ∧ f.Perm (n :: f') ∧ Holds next (Function.update st g ⟨.outside, q, f'⟩)
  device {s next : manager.State} {st : Int32 → Standing} : Holds s st → manager.device s next →
    Holds next st
  /-- no call changes what an operation says of itself -/
  enqueue_ops (s : manager.State) (m n : Nat) :
    Unchanged (manager.ops s n) (manager.ops (manager.enqueue s m) n)
  callSubmit_ops (s : manager.State) (g : Int32) (n : Nat) :
    Unchanged (manager.ops s n) (manager.ops (manager.callSubmit s g) n)
  callWait_ops (s : manager.State) (g : Int32) (n : Nat) :
    Unchanged (manager.ops s n) (manager.ops (manager.callWait s g) n)
  inside_ops {s next : manager.State} {g : Int32} : manager.inside s g next →
    ∀ n, Unchanged (manager.ops s n) (manager.ops next n)
  submitReturns_ops {s next : manager.State} {g ret : Int32} : manager.submitReturns s g ret next →
    ∀ n, Unchanged (manager.ops s n) (manager.ops next n)
  waitReturns_ops {s next : manager.State} {g : Int32} {op : Option Nat} :
    manager.waitReturns s g op next → ∀ n, Unchanged (manager.ops s n) (manager.ops next n)
  device_ops {s next : manager.State} : manager.device s next →
    ∀ n, Unchanged (manager.ops s n) (manager.ops next n)

theorem place_update (st : Int32 → Standing) (g : Int32) (standing : Standing) :
    Standing.place ∘ Function.update st g standing =
      Function.update (Standing.place ∘ st) g standing.place :=
  Function.comp_update Standing.place st g standing

/-- A group keeps its operations, in any order. -/
theorem apart_of_perm {st : Int32 → Standing} (apart : Dispatch.Apart (Standing.place ∘ st)) {g : Int32}
    {standing : Standing} (same : standing.place.Subperm (st g).place) :
    Dispatch.Apart (Standing.place ∘ Function.update st g standing) := by
  rw [place_update]
  exact apart.update same

/-- A new operation is queued. -/
theorem apart_enqueue {st : Int32 → Standing} (apart : Dispatch.Apart (Standing.place ∘ st)) {g : Int32}
    {n : Nat} {q f : List Nat} (here : st g = ⟨.outside, q, f⟩) (free : ∀ g, n ∉ (st g).place) :
    Dispatch.Apart (Standing.place ∘ Function.update st g ⟨.outside, q ++ [n], f⟩) := by
  rw [place_update]
  refine apart.grow (x := n) free ?_
  show (q ++ [n] ++ f).Perm (n :: (st g).place)
  rw [here, List.append_assoc]
  exact List.perm_middle

end DiskSpd
