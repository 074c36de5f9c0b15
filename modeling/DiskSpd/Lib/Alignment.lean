/-
**Alignment of 64-bit words to a power of two.**

* `PowerOfTwo` — read off the usual test with a mask (`powerOfTwo_of_mask`).
* `toNat_mask`, `mask_eq_zero_iff` — the mask of an alignment is the remainder.
* `dvd_toNat_add`, `dvd_toNat_mul` — wrapping sums and products keep multiples.
* `toInt_add_modEq`, `toInt_mul_modEq` — signed words modulo an alignment.
* `alignUp` — the next multiple: a multiple in any case (`dvd_alignUp`), and between the word and the
  largest one it can need when that does not wrap (`alignUp_bounds`).
-/

import DiskSpd.Lib.MachineWord
import Mathlib.Data.Int.ModEq

namespace Alignment

def PowerOfTwo (a : UInt64) : Prop := a.toNat.isPowerOfTwo

section Mask

variable {a : UInt64}

theorem PowerOfTwo.pos (power : PowerOfTwo a) : 0 < a.toNat := by
  obtain ⟨j, same⟩ := power
  rw [same]
  exact Nat.two_pow_pos j

theorem PowerOfTwo.toNat_pred (power : PowerOfTwo a) : (a - 1).toNat = a.toNat - 1 := by
  have positive := power.pos
  have bounded := a.toNat_lt
  have one : (1 : UInt64).toNat = 1 := rfl
  rw [UInt64.toNat_sub, one]
  omega

/-- The alignment divides the range of the words, so a wrap keeps remainders. -/
theorem PowerOfTwo.dvd_range (power : PowerOfTwo a) : a.toNat ∣ 2 ^ 64 := by
  obtain ⟨j, same⟩ := power
  have bounded := a.toNat_lt
  rw [same] at bounded ⊢
  exact Nat.pow_dvd_pow 2 ((Nat.pow_lt_pow_iff_right (by decide)).mp bounded).le

/-- **The test for a power of two.** -/
theorem powerOfTwo_of_mask (some : a ≠ 0) (mask : a &&& (a - 1) = 0) : PowerOfTwo a := by
  have positive : a.toNat ≠ 0 := fun zero => some (UInt64.toNat_inj.mp zero)
  have bounded := a.toNat_lt
  have pred : (a - 1).toNat = a.toNat - 1 := by
    have one : (1 : UInt64).toNat = 1 := rfl
    rw [UInt64.toNat_sub, one]
    omega
  refine (Nat.and_sub_one_eq_zero_iff_isPowerOfTwo positive).mp ?_
  rw [← pred, ← UInt64.toNat_and, mask]
  rfl

/-- **The mask is the remainder.** -/
theorem toNat_mask (power : PowerOfTwo a) (x : UInt64) :
    (x &&& (a - 1)).toNat = x.toNat % a.toNat := by
  rw [UInt64.toNat_and, power.toNat_pred]
  obtain ⟨j, same⟩ := power
  rw [same, Nat.and_two_pow_sub_one_eq_mod]

theorem mask_eq_zero_iff (power : PowerOfTwo a) (x : UInt64) :
    x &&& (a - 1) = 0 ↔ a.toNat ∣ x.toNat := by
  rw [← UInt64.toNat_inj, toNat_mask power]
  exact Nat.dvd_iff_mod_eq_zero.symm

end Mask

/-! ### Sums and products -/

section Wrap

variable {a : UInt64}

theorem dvd_toNat_add (power : PowerOfTwo a) {x y : UInt64} (left : a.toNat ∣ x.toNat)
    (right : a.toNat ∣ y.toNat) : a.toNat ∣ (x + y).toNat := by
  rw [UInt64.toNat_add]
  exact (Nat.dvd_mod_iff power.dvd_range).mpr (Nat.dvd_add left right)

theorem dvd_toNat_mul (power : PowerOfTwo a) (x : UInt64) {y : UInt64} (right : a.toNat ∣ y.toNat) :
    a.toNat ∣ (x * y).toNat := by
  rw [UInt64.toNat_mul]
  exact (Nat.dvd_mod_iff power.dvd_range).mpr (Dvd.dvd.mul_left right _)

/-- A signed word that wraps keeps its remainder. -/
theorem wrap_modEq (power : PowerOfTwo a) (x : Int) :
    (x + 2 ^ 63) % 2 ^ 64 - 2 ^ 63 ≡ x [ZMOD a.toNat] := by
  have range : (a.toNat : Int) ∣ 2 ^ 64 := by exact_mod_cast power.dvd_range
  have wrapped := ((Int.mod_modEq (x + 2 ^ 63) (2 ^ 64)).of_dvd range).sub_right (2 ^ 63)
  rwa [Int.add_sub_cancel] at wrapped

theorem toInt_add_modEq (power : PowerOfTwo a) (x y : Int64) :
    (x + y).toInt ≡ x.toInt + y.toInt [ZMOD a.toNat] := by
  rw [MachineWord.toInt_add]
  exact wrap_modEq power _

theorem toInt_mul_modEq (power : PowerOfTwo a) (x y : Int64) :
    (x * y).toInt ≡ x.toInt * y.toInt [ZMOD a.toNat] := by
  rw [MachineWord.toInt_mul]
  exact wrap_modEq power _

/-- A signed word is as aligned as the unsigned one with its bits. -/
theorem dvd_toUInt64_iff (power : PowerOfTwo a) (x : Int64) :
    a.toNat ∣ x.toUInt64.toNat ↔ (a.toNat : Int) ∣ x.toInt := by
  have range : (a.toNat : Int) ∣ 2 ^ 64 := by exact_mod_cast power.dvd_range
  have bits := MachineWord.toNat_toUInt64 x
  rw [← Int.natCast_dvd_natCast, Int.dvd_iff_emod_eq_zero, Int.dvd_iff_emod_eq_zero, bits,
    Int.emod_emod_of_dvd _ range]

/-- Adding a multiple of an aligned word. -/
theorem add_mul_modEq (power : PowerOfTwo a) (x n : Int64) {y : Int64}
    (aligned : (a.toNat : Int) ∣ y.toInt) : (x + n * y).toInt ≡ x.toInt [ZMOD a.toNat] := by
  have product : (n * y).toInt ≡ 0 [ZMOD a.toNat] :=
    (toInt_mul_modEq power n y).trans
      ((Int.modEq_zero_iff_dvd).mpr (Dvd.dvd.mul_left aligned _))
  have sum := (toInt_add_modEq power x (n * y)).trans (product.add_left x.toInt)
  rwa [add_zero] at sum

theorem add_modEq (power : PowerOfTwo a) (x : Int64) {y : Int64}
    (aligned : (a.toNat : Int) ∣ y.toInt) : (x + y).toInt ≡ x.toInt [ZMOD a.toNat] := by
  have sum := (toInt_add_modEq power x y).trans
    (((Int.modEq_zero_iff_dvd).mpr aligned).add_left x.toInt)
  rwa [add_zero] at sum

end Wrap

/-! ### The next multiple -/

/-- `(u + a - 1) & ~(a - 1)` -/
def alignUp (u a : UInt64) : UInt64 := (u + a - 1) &&& ~~~(a - 1)

section AlignUp

variable {a : UInt64}

theorem dvd_alignUp (power : PowerOfTwo a) (u : UInt64) : a.toNat ∣ (alignUp u a).toNat := by
  rw [← mask_eq_zero_iff power, alignUp, UInt64.and_assoc, UInt64.not_and_self, UInt64.and_zero]

/-- What a mask takes away and what it leaves. -/
theorem toNat_and_not_add (y m : UInt64) : (y &&& ~~~m).toNat + (y &&& m).toNat = y.toNat := by
  have apart : (y.toBitVec &&& ~~~m.toBitVec) &&& (y.toBitVec &&& m.toBitVec) = 0#64 := by
    ext i below
    simp only [BitVec.getElem_and, BitVec.getElem_not, BitVec.getElem_zero]
    cases y.toBitVec[i] <;> cases m.toBitVec[i] <;> rfl
  have whole : (y.toBitVec &&& ~~~m.toBitVec) + (y.toBitVec &&& m.toBitVec) = y.toBitVec := by
    rw [BitVec.add_eq_or_of_and_eq_zero _ _ apart]
    ext i below
    simp only [BitVec.getElem_and, BitVec.getElem_not, BitVec.getElem_or]
    cases y.toBitVec[i] <;> cases m.toBitVec[i] <;> rfl
  have sum := BitVec.toNat_add_of_and_eq_zero apart
  rw [whole] at sum
  exact sum.symm

/-- **Where the next multiple lies.** -/
theorem alignUp_bounds (power : PowerOfTwo a) {u : UInt64}
    (fits : u.toNat + (a.toNat - 1) < 2 ^ 64) :
    u.toNat ≤ (alignUp u a).toNat ∧ (alignUp u a).toNat ≤ u.toNat + (a.toNat - 1) := by
  have positive := power.pos
  have one : (1 : UInt64).toNat = 1 := rfl
  have bounded := a.toNat_lt
  have last : (u + a - 1).toNat = u.toNat + (a.toNat - 1) := by
    rw [UInt64.toNat_sub, UInt64.toNat_add, one]
    omega
  have parts := toNat_and_not_add (u + a - 1) (a - 1)
  rw [toNat_mask power, last] at parts
  have remainder := Nat.mod_lt (u.toNat + (a.toNat - 1)) positive
  unfold alignUp
  omega

end AlignUp

end Alignment
