/-
**A pool of identifiers.**

An engine gives each thing it works on an identifier that is free, and finds the thing again by it:

* `findFree` — the search for a free identifier, from a hint on. Where identifiers count up and wrap
  around, it finds one as long as there are fewer things than identifiers (`findFree_total`).
* `Tracks` — a finite map holds exactly a list of identified things; `Tracks.insert`, `Tracks.erase` and
  `Tracks.lookup` are the rules for its three operations.
-/

import Mathlib.Data.List.AList
import Mathlib.Data.List.Iterate
import Mathlib.Data.List.Perm.Subperm
import Mathlib.Data.Nat.ModEq

namespace IdPool

variable {Id Thing : Type*}

/-! ### The search for a free identifier -/

/-- `while (used.count(id)) ++id;`, for at most as many rounds as there is fuel. -/
def findFree [DecidableEq Id] (succ : Id → Id) (used : List Id) : Nat → Id → Option Id
  | 0, _ => none
  | fuel + 1, id => if id ∈ used then findFree succ used fuel (succ id) else some id

/-- The identifiers of a counter are distinct until it has wrapped around. -/
theorem iterate_nodup {succ : Id → Id} {value : Id → Nat} {m : Nat} (below : ∀ id, value id < m)
    (next : ∀ id, value (succ id) = (value id + 1) % m) (id : Id) {n : Nat} (few : n ≤ m) :
    (List.iterate succ id n).Nodup := by
  have counts : ∀ i, value (succ^[i] id) = (value id + i) % m := fun i => by
    induction i with
    | zero => exact (Nat.mod_eq_of_lt (below id)).symm
    | succ i ih => rw [Function.iterate_succ_apply', next, ih, Nat.mod_add_mod, Nat.add_assoc]
  rw [← List.range_map_iterate]
  refine List.Nodup.map_on (fun i first j second same => ?_) List.nodup_range
  rw [List.mem_range] at first second
  have values : (value id + i) % m = (value id + j) % m := by
    rw [← counts, ← counts, same]
  exact Nat.ModEq.eq_of_lt_of_lt (Nat.ModEq.add_left_cancel' (value id) values) (by omega) (by omega)

section Search

variable [DecidableEq Id] {succ : Id → Id} {used : List Id}

theorem findFree_not_mem {fuel : Nat} {id free : Id}
    (found : findFree succ used fuel id = some free) : free ∉ used := by
  induction fuel generalizing id with
  | zero => cases found
  | succ fuel ih =>
    unfold findFree at found
    split_ifs at found with taken
    · exact ih found
    · cases found
      exact taken

/-- A search that fails has seen used identifiers only. -/
theorem iterate_subset_of_none {fuel : Nat} {id : Id} (none : findFree succ used fuel id = none) :
    List.iterate succ id fuel ⊆ used := by
  induction fuel generalizing id with
  | zero => exact List.nil_subset used
  | succ fuel ih =>
    unfold findFree at none
    split_ifs at none with taken
    exact List.cons_subset.mpr ⟨taken, ih none⟩

/-- **The search succeeds** when it goes through more identifiers than are used. -/
theorem findFree_isSome {id : Id} (distinct : (List.iterate succ id (used.length + 1)).Nodup) :
    ∃ free, findFree succ used (used.length + 1) id = some free := by
  by_contra fails
  have none : findFree succ used (used.length + 1) id = none := by
    cases search : findFree succ used (used.length + 1) id with
    | none => rfl
    | some free => exact absurd ⟨free, search⟩ fails
  have few := (List.subperm_of_subset distinct (iterate_subset_of_none none)).length_le
  rw [List.length_iterate] at few
  omega

/-- **The search of a counter that wraps around** succeeds while some identifier is free. -/
theorem findFree_total {value : Id → Nat} {m : Nat} (below : ∀ id, value id < m)
    (next : ∀ id, value (succ id) = (value id + 1) % m) (id : Id) (few : used.length < m) :
    ∃ free, findFree succ used (used.length + 1) id = some free :=
  findFree_isSome (iterate_nodup below next id few)

end Search

/-! ### The things in a map -/

/-- The map holds exactly these identified things. -/
def Tracks (pool : AList fun _ : Id => Thing) (held : List (Id × Thing)) : Prop :=
  (pool.entries.map fun entry => (entry.1, entry.2)).Perm held

namespace Tracks

variable {pool : AList fun _ : Id => Thing} {held : List (Id × Thing)} {id : Id} {thing : Thing}

theorem empty : Tracks (∅ : AList fun _ : Id => Thing) [] :=
  List.Perm.refl []

theorem entries (tracks : Tracks pool held) :
    pool.entries.Perm (held.map fun pair => ⟨pair.1, pair.2⟩) := by
  have mapped := tracks.map fun pair => (⟨pair.1, pair.2⟩ : Sigma fun _ : Id => Thing)
  rw [List.map_map] at mapped
  exact (List.Perm.of_eq (List.map_id _).symm).trans mapped

/-- **A thing is found by its identifier.** -/
theorem lookup [DecidableEq Id] (tracks : Tracks pool held) (member : (id, thing) ∈ held) :
    pool.lookup id = some thing := by
  refine AList.mem_lookup_iff.mpr (tracks.entries.mem_iff.mpr ?_)
  exact List.mem_map.mpr ⟨(id, thing), member, rfl⟩

theorem mem_of_lookup [DecidableEq Id] (tracks : Tracks pool held)
    (found : pool.lookup id = some thing) : (id, thing) ∈ held :=
  (List.Perm.mem_iff tracks).mp (List.mem_map.mpr ⟨⟨id, thing⟩, AList.mem_lookup_iff.mp found, rfl⟩)

theorem insert [DecidableEq Id] (tracks : Tracks pool held) (fresh : id ∉ pool) (thing : Thing) :
    Tracks (pool.insert id thing) ((id, thing) :: held) := by
  unfold Tracks
  rw [AList.entries_insert_of_notMem fresh, List.map_cons]
  exact tracks.cons _

theorem erase [DecidableEq Id] (tracks : Tracks pool ((id, thing) :: held)) : Tracks (pool.erase id) held := by
  have erased := tracks.entries.kerase pool.nodupKeys (a := id)
  rw [List.map_cons] at erased
  have shrinks : List.kerase id (⟨id, thing⟩ :: held.map fun pair => ⟨pair.1, pair.2⟩) =
      held.map fun pair => (⟨pair.1, pair.2⟩ : Sigma fun _ : Id => Thing) :=
    List.kerase_cons_eq (s := (⟨id, thing⟩ : Sigma fun _ : Id => Thing)) rfl
  rw [shrinks] at erased
  have mapped := erased.map fun entry => (entry.1, entry.2)
  rw [List.map_map] at mapped
  exact mapped.trans (List.Perm.of_eq (List.map_id _))

/-- Some of the things are taken out, one after the other. -/
theorem foldl_erase [DecidableEq Id] {id : Thing → Id} {things : List Thing}
    (tracks : Tracks pool (held ++ things.map fun thing => (id thing, thing))) :
    Tracks (things.foldl (fun pool thing => pool.erase (id thing)) pool) held := by
  induction things generalizing pool with
  | nil => rwa [List.map_nil, List.append_nil] at tracks
  | cons thing things ih =>
    rw [List.map_cons] at tracks
    exact ih (Tracks.erase (tracks.trans List.perm_middle))

theorem perm {other : List (Id × Thing)} (tracks : Tracks pool held) (same : held.Perm other) :
    Tracks pool other :=
  tracks.trans same

end Tracks

end IdPool
