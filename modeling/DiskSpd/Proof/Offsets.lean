/-
**The offset functions, over the integers.**

* `Target.InRegion` — an offset whose whole block lies in `[base_offset, max_size)`.
* `correctOverflow_inRegion` — a strided step from an offset in the region stays in the region, as
  long as the base offset of the thread is in it: the unsigned comparison is the comparison of the
  integers (`overflows_add_stride`).
* `threadBases_inRegion_iff` — the base offsets of all the threads of a target are in the region
  exactly when the last one is, computed over the integers. The first base offset past the end is
  never wrapped back into the region.
* `checkSetUp_product` — what the check of `run_job` compares: it is the bound on the last thread
  whenever the product of the check does not wrap (`lastThread_le_iff`).
-/

import DiskSpd.Proof.Accepted
import Mathlib.Algebra.Order.Ring.Int
import Mathlib.Data.Nat.Find

namespace DiskSpd

open MachineWord

namespace Target

variable {target : Target}

/-- The operation at this offset lies in `[base_offset, max_size)`. -/
def InRegion (target : Target) (offset : Int64) : Prop :=
  target.baseOffset.toInt ≤ offset.toInt ∧
    offset.toInt + target.blockSize.toNat ≤ target.maxSize.toInt

instance (target : Target) (offset : Int64) : Decidable (target.InRegion offset) :=
  inferInstanceAs (Decidable (_ ∧ _))

/-- The room for offsets above the base offset. -/
def room (target : Target) : Int :=
  target.maxSize.toInt - target.baseOffset.toInt - target.blockSize.toNat

theorem baseOffset_inRegion (accepted : target.Accepted) : target.InRegion target.baseOffset :=
  ⟨le_rfl, accepted.fits⟩

/-! ### One step -/

/-- From an offset whose block fits, the unsigned test of `correct_overflow` is the test over the
integers: the sum of the stride may leave the signed type, but not the unsigned one. -/
theorem overflows_step {curr : Int64} (nonneg : 0 ≤ curr.toInt) (stride : 0 ≤ target.stride.toInt)
    (fits : curr.toInt + target.blockSize.toNat ≤ target.maxSize.toInt) :
    target.overflows (curr + target.stride) = true ↔
      target.maxSize.toInt < curr.toInt + target.stride.toInt + target.blockSize.toNat := by
  have sum := toNat_toUInt64 (curr + target.stride)
  have max := toNat_toUInt64 target.maxSize
  have strideBounds := toInt_bounds target.stride
  have maxBounds := toInt_bounds target.maxSize
  rw [toInt_add] at sum
  rw [overflows, decide_eq_true_iff, UInt64.lt_iff_toNat_lt, UInt64.toNat_add]
  omega

/-- A step that is not corrected adds the stride over the integers. -/
theorem toInt_step {curr : Int64} (nonneg : 0 ≤ curr.toInt) (stride : 0 ≤ target.stride.toInt)
    (fits : curr.toInt + target.stride.toInt + target.blockSize.toNat ≤ target.maxSize.toInt) :
    (curr + target.stride).toInt = curr.toInt + target.stride.toInt := by
  have maxBounds := toInt_bounds target.maxSize
  rw [toInt_add]
  omega

/-- The same from the region of an accepted target. -/
theorem overflows_add_stride (accepted : target.Accepted) {curr : Int64}
    (inside : target.InRegion curr) :
    target.overflows (curr + target.stride) = true ↔
      target.maxSize.toInt < curr.toInt + target.stride.toInt + target.blockSize.toNat :=
  overflows_step (accepted.baseOffset.trans inside.1) accepted.stride inside.2

theorem toInt_add_stride (accepted : target.Accepted) {curr : Int64}
    (inside : target.InRegion curr)
    (fits : curr.toInt + target.stride.toInt + target.blockSize.toNat ≤ target.maxSize.toInt) :
    (curr + target.stride).toInt = curr.toInt + target.stride.toInt :=
  toInt_step (accepted.baseOffset.trans inside.1) accepted.stride fits

theorem correctOverflow_inRegion (accepted : target.Accepted) {relThreadId : UInt32}
    {curr : Int64} (threadBase : target.InRegion (target.getThreadBaseOffset relThreadId))
    (inside : target.InRegion curr) :
    target.InRegion (target.correctOverflow relThreadId (curr + target.stride)) := by
  unfold correctOverflow
  by_cases past : target.overflows (curr + target.stride) = true
  · rw [if_pos past]
    exact threadBase
  · rw [if_neg past]
    rw [overflows_add_stride accepted inside, not_lt] at past
    have sum := toInt_add_stride accepted inside past
    have stride := accepted.stride
    unfold InRegion
    rw [sum]
    exact ⟨le_trans inside.1 (le_add_of_nonneg_right stride), past⟩

/-! ### The base offsets of the threads -/

theorem getThreadBaseOffset_toInt (relThreadId : UInt32) :
    (target.getThreadBaseOffset relThreadId).toInt =
      (target.baseOffset.toInt + relThreadId.toNat * target.threadOffset.toInt + 2 ^ 63) % 2 ^ 64
        - 2 ^ 63 := by
  unfold getThreadBaseOffset
  rw [toInt_add, toInt_mul, toInt_ofUInt32]
  omega

/-- A base offset that lies in the room is the one over the integers. -/
theorem threadBase_inRegion (accepted : target.Accepted) {relThreadId : UInt32}
    (fits : relThreadId.toNat * target.threadOffset.toInt ≤ target.room) :
    target.InRegion (target.getThreadBaseOffset relThreadId) := by
  have product : 0 ≤ relThreadId.toNat * target.threadOffset.toInt :=
    mul_nonneg (Int.natCast_nonneg _) accepted.threadOffset
  have base := accepted.baseOffset
  have bounds := toInt_bounds target.maxSize
  unfold room at fits
  unfold InRegion
  rw [getThreadBaseOffset_toInt]
  omega

/-- The first base offset past the room is out of the region, wrapped or not. -/
theorem threadBase_not_inRegion (accepted : target.Accepted) {relThreadId : UInt32}
    (past : target.room < relThreadId.toNat * target.threadOffset.toInt)
    (before : ((relThreadId.toNat : Int) - 1) * target.threadOffset.toInt ≤ target.room) :
    ¬ target.InRegion (target.getThreadBaseOffset relThreadId) := by
  have split : ((relThreadId.toNat : Int) - 1) * target.threadOffset.toInt =
      relThreadId.toNat * target.threadOffset.toInt - target.threadOffset.toInt := by ring
  have base := accepted.baseOffset
  have bounds := toInt_bounds target.maxSize
  have stride := toInt_bounds target.threadOffset
  have fits := accepted.fits
  unfold room at past before
  unfold InRegion
  rw [getThreadBaseOffset_toInt]
  omega

theorem room_nonneg (accepted : target.Accepted) : 0 ≤ target.room := by
  have fits := accepted.fits
  unfold room
  omega

/-- **The base offsets of `n` threads are in the region exactly when the last one is.** The last
one that fits is followed by one that does not, and that one is out of the region. -/
theorem threadBases_inRegion_iff (accepted : target.Accepted) (n : UInt32) :
    (∀ relThreadId : UInt32, relThreadId.toNat < n.toNat →
        target.InRegion (target.getThreadBaseOffset relThreadId)) ↔
      ((n.toNat : Int) - 1) * target.threadOffset.toInt ≤ target.room := by
  have roomNonneg := room_nonneg accepted
  constructor
  · intro inside
    by_contra past
    rw [not_le] at past
    have positive : 0 < n.toNat := by
      by_contra zero
      have none : (n.toNat : Int) = 0 := by omega
      rw [none, zero_sub, neg_one_mul] at past
      have nonneg := accepted.threadOffset
      omega
    have exceeds : ∃ k : Nat, target.room < (k : Int) * target.threadOffset.toInt :=
      ⟨n.toNat - 1, by rwa [Nat.cast_sub positive, Nat.cast_one]⟩
    classical
    have first := Nat.find_spec exceeds
    have minimal := Nat.find_min' exceeds
      (m := n.toNat - 1) (by rwa [Nat.cast_sub positive, Nat.cast_one])
    have previous : ∀ m < Nat.find exceeds, (m : Int) * target.threadOffset.toInt ≤ target.room :=
      fun m below => not_lt.mp (Nat.find_min exceeds below)
    revert first minimal previous
    generalize Nat.find exceeds = k
    intro first minimal previous
    have bounded : k < 2 ^ 32 := by
      have := n.toNat_lt
      omega
    have value : (UInt32.ofNat k).toNat = k := by
      rw [UInt32.toNat_ofNat']
      exact Nat.mod_eq_of_lt bounded
    have nonzero : k ≠ 0 := by
      rintro rfl
      rw [Nat.cast_zero, zero_mul] at first
      omega
    have outside := inside (UInt32.ofNat k) (by omega)
    refine threadBase_not_inRegion accepted (by rwa [value]) ?_ outside
    have before := previous (k - 1) (by omega)
    rwa [Nat.cast_sub (by omega), Nat.cast_one, ← value] at before
  · intro last relThreadId below
    refine threadBase_inRegion accepted (le_trans ?_ last)
    exact mul_le_mul_of_nonneg_right (by omega) accepted.threadOffset

/-! ### The check of `run_job` -/

/-- What the check on the base offsets of the threads compares. -/
theorem checkSetUp_product {noThreads : UInt32} {u : Unit}
    (checked : target.checkSetUp noThreads = .ok u) :
    (target.threadOffset * (noThreads - 1).toUInt64.toInt64).toInt ≤ target.maxOffset.toInt := by
  obtain ⟨_, _, checked⟩ := bind_ok.mp checked
  rw [rejectIf_ok, decide_eq_false_iff_not, Int64.lt_iff_toInt_lt, not_lt] at checked
  exact checked

theorem maxOffset_toInt (accepted : target.Accepted) : target.maxOffset.toInt = target.room := by
  have base := accepted.baseOffset
  have bounds := toInt_bounds target.maxSize
  have fits := accepted.fits
  have difference := toNat_toUInt64 (target.maxSize - target.baseOffset)
  have block := accepted.blockSize
  rw [toInt_sub] at difference
  unfold maxOffset room
  rw [toInt_toInt64, UInt64.toNat_sub]
  omega

/-- **The check bounds the last thread exactly when its product does not wrap.** -/
theorem lastThread_le_iff (accepted : target.Accepted) {noThreads : UInt32} {u : Unit}
    (checked : target.checkSetUp noThreads = .ok u) :
    ((noThreads.toNat : Int) - 1) * target.threadOffset.toInt ≤ target.room ↔
      ((noThreads.toNat : Int) - 1) * target.threadOffset.toInt < 2 ^ 63 := by
  have bound := checkSetUp_product checked
  rw [maxOffset_toInt accepted, toInt_mul, toInt_ofUInt32] at bound
  have fits := accepted.fits
  have base := accepted.baseOffset
  have bounds := toInt_bounds target.maxSize
  have nonneg := accepted.threadOffset
  constructor
  · intro last
    unfold room at last
    omega
  · intro small
    by_cases zero : noThreads.toNat = 0
    · have roomNonneg := room_nonneg accepted
      rw [zero, Nat.cast_zero, zero_sub, neg_one_mul]
      omega
    · have previous : ((noThreads - 1).toNat : Int) = (noThreads.toNat : Int) - 1 := by
        have below := noThreads.toNat_lt
        have one : (1 : UInt32).toNat = 1 := rfl
        rw [UInt32.toNat_sub, one]
        omega
      have product : 0 ≤ ((noThreads.toNat : Int) - 1) * target.threadOffset.toInt :=
        mul_nonneg (by omega) nonneg
      rw [previous, mul_comm] at bound
      omega

end Target

end DiskSpd
