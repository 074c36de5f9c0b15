/-
**Histograms hold multisets of samples.**

* `Histogram.Holds` — the counters are those of a multiset, modulo 2^32, and the entries are its
  members.
* `Holds.empty`, `Holds.add`, `Holds.merge` — the three ways a histogram is built.
* `SameContents` — two histograms that answer every question alike; a histogram holds a multiset
  exactly when it has the same contents as one that does (`Holds.iff_sameContents`).
* `Holds.iff_of_add` — a histogram that holds some samples too often still holds the multiset exactly
  when each of them is held too often by a multiple of 2^32.
-/

import DiskSpd.Model.Results
import Mathlib.Algebra.BigOperators.Ring.Finset
import Mathlib.Data.Multiset.Count

namespace DiskSpd

namespace Histogram

variable {T : Type} [DecidableEq T] {h other : Histogram T}

/-! ### Lookups -/

theorem lookup_bump (data : AList fun _ : T => UInt32) (v w : T) (n : UInt32) :
    (bump data v n).lookup w = if w = v then some ((data.lookup v).getD 0 + n)
      else data.lookup w := by
  unfold bump
  by_cases same : w = v
  · rw [same, if_pos rfl, AList.lookup_insert]
  · rw [if_neg same, AList.lookup_insert_ne same]

/-- The entries of a merge, one by one. -/
theorem lookup_foldl_bump {entries : List (Sigma fun _ : T => UInt32)}
    (nodup : entries.NodupKeys) (data : AList fun _ : T => UInt32) (w : T) :
    (entries.foldl (fun data entry => bump data entry.1 entry.2) data).lookup w =
      match entries.dlookup w with
      | some n => some ((data.lookup w).getD 0 + n)
      | none => data.lookup w := by
  induction entries generalizing data with
  | nil => rfl
  | cons entry rest ih =>
    obtain ⟨v, n⟩ := entry
    rw [List.nodupKeys_cons] at nodup
    rw [List.foldl_cons, ih nodup.2, lookup_bump]
    by_cases same : w = v
    · subst same
      rw [List.dlookup_eq_none.mpr nodup.1, List.dlookup_cons_eq, if_pos rfl]
    · rw [List.dlookup_cons_ne _ _ same, if_neg same]

/-- **The lookup in a merge.** -/
theorem lookup_merge (w : T) : (h.merge other).data.lookup w =
    match other.data.lookup w with
    | some n => some ((h.data.lookup w).getD 0 + n)
    | none => h.data.lookup w :=
  lookup_foldl_bump other.data.nodupKeys h.data w

@[simp] theorem count_merge (w : T) : (h.merge other).count w = h.count w + other.count w := by
  unfold count
  rw [lookup_merge]
  cases other.data.lookup w with
  | none => exact (UInt32.add_zero _).symm
  | some n => rfl

@[simp] theorem count_add (v w : T) : (h.add v).count w = h.count w + if w = v then 1 else 0 := by
  unfold count add
  rw [lookup_bump]
  split_ifs with same
  · rw [same]
    rfl
  · exact (UInt32.add_zero _).symm

theorem mem_merge (w : T) : w ∈ (h.merge other).data ↔ w ∈ h.data ∨ w ∈ other.data := by
  simp only [← AList.lookup_isSome, lookup_merge]
  cases other.data.lookup w <;> simp

theorem mem_add (v w : T) : w ∈ (h.add v).data ↔ w = v ∨ w ∈ h.data :=
  AList.mem_insert _

/-! ### Multisets -/

/-- **The histogram holds the samples**, in 32-bit counters. -/
structure Holds (h : Histogram T) (s : Multiset T) : Prop where
  samples : h.samples = UInt32.ofNat s.card
  count : ∀ v, h.count v = UInt32.ofNat (s.count v)
  keys : ∀ v, v ∈ h.data ↔ v ∈ s

theorem Holds.empty : ({} : Histogram T).Holds 0 where
  samples := rfl
  count v := by
    unfold Histogram.count
    rw [AList.lookup_empty, Multiset.count_zero]
    rfl
  keys v := by simp

variable {s t : Multiset T}

theorem Holds.add (holds : h.Holds s) (v : T) : (h.add v).Holds (v ::ₘ s) where
  samples := by
    show h.samples + 1 = _
    rw [holds.samples, Multiset.card_cons, UInt32.ofNat_add]
    rfl
  count w := by
    rw [count_add, holds.count, Multiset.count_cons, UInt32.ofNat_add]
    split_ifs <;> rfl
  keys w := by rw [mem_add, holds.keys, Multiset.mem_cons]

theorem Holds.merge (holds : h.Holds s) (holdsOther : other.Holds t) :
    (h.merge other).Holds (s + t) where
  samples := by
    show h.samples + other.samples = _
    rw [holds.samples, holdsOther.samples, Multiset.card_add, UInt32.ofNat_add]
  count w := by
    rw [count_merge, holds.count, holdsOther.count, Multiset.count_add, UInt32.ofNat_add]
  keys w := by rw [mem_merge, holds.keys, holdsOther.keys, Multiset.mem_add]

/-! ### Contents -/

/-- Two histograms with the same number of samples and the same entries. -/
structure SameContents (h other : Histogram T) : Prop where
  samples : h.samples = other.samples
  lookup : ∀ v, h.data.lookup v = other.data.lookup v

theorem lookup_of_mem (v : T) : h.data.lookup v = if v ∈ h.data then some (h.count v) else none := by
  by_cases member : v ∈ h.data
  · obtain ⟨n, found⟩ := Option.isSome_iff_exists.mp (AList.lookup_isSome.mpr member)
    rw [if_pos member, count, found, Option.getD_some]
  · rw [if_neg member]
    exact AList.lookup_eq_none.mpr member

/-- **What holds a multiset has the contents of what holds it.** -/
theorem Holds.iff_sameContents (holdsOther : other.Holds s) : h.Holds s ↔ h.SameContents other := by
  constructor
  · intro holds
    refine ⟨holds.samples.trans holdsOther.samples.symm, fun v => ?_⟩
    rw [lookup_of_mem, lookup_of_mem (h := other), holds.count, holdsOther.count]
    simp only [holds.keys, holdsOther.keys]
  · intro same
    refine ⟨same.samples.trans holdsOther.samples, fun v => ?_, fun v => ?_⟩
    · rw [← holdsOther.count, Histogram.count, same.lookup]
      rfl
    · rw [← holdsOther.keys, ← AList.lookup_isSome, ← AList.lookup_isSome, same.lookup]

/-- Equal counters are equal numbers modulo 2^32. -/
theorem ofNat_add_eq_iff (m n : ℕ) :
    UInt32.ofNat (m + n) = UInt32.ofNat m ↔ 2 ^ 32 ∣ n := by
  rw [← UInt32.toNat_inj, UInt32.toNat_ofNat', UInt32.toNat_ofNat']
  omega

/-- **Samples held too often** are not seen exactly when each is held a multiple of 2^32 times. -/
theorem Holds.iff_of_add {excess : Multiset T} (holds : h.Holds (s + excess))
    (members : ∀ v ∈ excess, v ∈ s) : h.Holds s ↔ ∀ v, 2 ^ 32 ∣ excess.count v := by
  constructor
  · intro exactly v
    have same := (exactly.count v).symm.trans (holds.count v)
    rw [Multiset.count_add] at same
    exact (ofNat_add_eq_iff _ _).mp same.symm
  · intro multiples
    have all : 2 ^ 32 ∣ excess.card := by
      rw [← Multiset.toFinset_sum_count_eq]
      exact Finset.dvd_sum fun v _ => multiples v
    refine ⟨?_, fun v => ?_, fun v => ?_⟩
    · rw [holds.samples, Multiset.card_add]
      exact (ofNat_add_eq_iff _ _).mpr all
    · rw [holds.count, Multiset.count_add]
      exact (ofNat_add_eq_iff _ _).mpr (multiples v)
    · rw [holds.keys, Multiset.mem_add]
      exact ⟨fun member => member.elim id (members v), Or.inl⟩

end Histogram

end DiskSpd
