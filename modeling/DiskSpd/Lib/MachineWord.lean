/-
**Fixed-width words read over the integers.**

C's mixed arithmetic on signed and unsigned words, as the core types `Int64`, `UInt64`, `Int32` and
`UInt32` compute it, is turned into integer arithmetic that `omega` decides:

* `bmod_64`, `bmod_32` — the two's complement wrap as a remainder;
* `toInt_add`, `toInt_sub`, `toInt_mul` — signed operations with the wrap written out;
* `toNat_toUInt64`, `toInt_toInt64`, `toInt_toInt32` — the conversions between the widths;
* `toInt_add_one` — the successor of a signed 32-bit word;
* `toNat_foldl_add`, `toNat_foldl_add_64` — a running sum of words.
-/

import Mathlib.Tactic.Ring

namespace MachineWord

/-- The 64-bit two's complement wrap as a remainder. -/
theorem bmod_64 (x : Int) : x.bmod (2 ^ 64) = (x + 2 ^ 63) % 2 ^ 64 - 2 ^ 63 := by
  unfold Int.bmod
  simp only [Nat.cast_pow, Nat.cast_ofNat]
  split <;> omega

/-- The 32-bit two's complement wrap as a remainder. -/
theorem bmod_32 (x : Int) : x.bmod (2 ^ 32) = (x + 2 ^ 31) % 2 ^ 32 - 2 ^ 31 := by
  unfold Int.bmod
  simp only [Nat.cast_pow, Nat.cast_ofNat]
  split <;> omega

/-! ### Signed 64-bit words -/

theorem toInt_bounds (x : Int64) : -2 ^ 63 ≤ x.toInt ∧ x.toInt < 2 ^ 63 :=
  ⟨x.le_toInt, x.toInt_lt⟩

theorem toInt_add (x y : Int64) :
    (x + y).toInt = (x.toInt + y.toInt + 2 ^ 63) % 2 ^ 64 - 2 ^ 63 := by
  rw [Int64.toInt_add, bmod_64]

theorem toInt_sub (x y : Int64) :
    (x - y).toInt = (x.toInt - y.toInt + 2 ^ 63) % 2 ^ 64 - 2 ^ 63 := by
  rw [Int64.toInt_sub, bmod_64]

theorem toInt_mul (x y : Int64) :
    (x * y).toInt = (x.toInt * y.toInt + 2 ^ 63) % 2 ^ 64 - 2 ^ 63 := by
  rw [Int64.toInt_mul, bmod_64]

/-! ### Conversions -/

/-- A signed word converted to unsigned keeps its residue. -/
theorem toNat_toUInt64 (x : Int64) : (x.toUInt64.toNat : Int) = x.toInt % 2 ^ 64 := by
  have unsigned : x.toUInt64.toNat = x.toBitVec.toNat := rfl
  have signed : x.toInt = x.toBitVec.toInt := rfl
  have bounded := x.toBitVec.isLt
  rw [unsigned, signed, BitVec.toInt_eq_toNat_bmod, bmod_64]
  omega

/-- An unsigned word converted to signed keeps its residue. -/
theorem toInt_toInt64 (x : UInt64) :
    x.toInt64.toInt = ((x.toNat : Int) + 2 ^ 63) % 2 ^ 64 - 2 ^ 63 := by
  have signed : x.toInt64.toInt = x.toBitVec.toInt := rfl
  rw [signed, BitVec.toInt_eq_toNat_bmod, bmod_64]
  rfl

/-- An unsigned word below `2 ^ 63` converted to signed keeps its value. -/
theorem toInt_toInt64_of_lt {x : UInt64} (small : x.toNat < 2 ^ 63) :
    x.toInt64.toInt = x.toNat := by
  rw [toInt_toInt64]
  omega

theorem toInt64_eq_zero (x : UInt64) : x.toInt64 = 0 ↔ x = 0 := by
  rw [← Int64.toInt_inj, ← UInt64.toNat_inj, toInt_toInt64]
  have bounded := x.toNat_lt
  have signed : (0 : Int64).toInt = 0 := rfl
  have unsigned : (0 : UInt64).toNat = 0 := rfl
  omega

/-- A 32-bit unsigned word converted to a signed 64-bit one keeps its value. -/
theorem toInt_ofUInt32 (x : UInt32) : x.toUInt64.toInt64.toInt = x.toNat := by
  have bounded := x.toNat_lt
  have widened : x.toUInt64.toNat = x.toNat := UInt32.toNat_toUInt64 x
  rw [toInt_toInt64_of_lt (by omega), widened]

/-- A signed word cut to 32 bits. -/
theorem toInt_toInt32 (x : Int64) : x.toInt32.toInt = (x.toInt + 2 ^ 31) % 2 ^ 32 - 2 ^ 31 := by
  rw [Int64.toInt_toInt32, bmod_32]

/-- An integer in 64 bits. -/
theorem toInt_ofInt_64 (x : Int) : (Int64.ofInt x).toInt = (x + 2 ^ 63) % 2 ^ 64 - 2 ^ 63 := by
  rw [Int64.toInt_ofInt]
  exact bmod_64 x

/-- An integer in 32 bits. -/
theorem toInt_ofInt_32 (x : Int) : (Int32.ofInt x).toInt = (x + 2 ^ 31) % 2 ^ 32 - 2 ^ 31 := by
  rw [Int32.toInt_ofInt]
  exact bmod_32 x

/-- A signed 32-bit word converted to unsigned keeps its residue. -/
theorem toNat_toUInt32 (x : Int32) : (x.toUInt32.toNat : Int) = x.toInt % 2 ^ 32 := by
  have unsigned : x.toUInt32.toNat = x.toBitVec.toNat := rfl
  have signed : x.toInt = x.toBitVec.toInt := rfl
  have bounded := x.toBitVec.isLt
  rw [unsigned, signed, BitVec.toInt_eq_toNat_bmod, bmod_32]
  omega

/-- A small word keeps its value when it is taken as signed. -/
theorem toInt_toInt32_of_lt {x : UInt32} (small : x.toNat < 2 ^ 31) :
    x.toInt32.toInt = x.toNat := by
  have signed : x.toInt32.toInt = x.toBitVec.toInt := rfl
  have unsigned : x.toBitVec.toNat = x.toNat := rfl
  rw [signed, BitVec.toInt_eq_toNat_bmod, unsigned, bmod_32]
  omega

/-- Below the largest signed word a successor does not overflow. -/
theorem toInt_add_one {x : Int32} (notLargest : x ≠ Int32.maxValue) :
    x.toInt < 2 ^ 31 - 1 ∧ (x + 1).toInt = x.toInt + 1 := by
  have largest : Int32.maxValue.toInt = 2 ^ 31 - 1 := rfl
  have one : (1 : Int32).toInt = 1 := rfl
  have other : x.toInt ≠ Int32.maxValue.toInt := fun same => notLargest (Int32.toInt_inj.mp same)
  have low := x.le_toInt
  have high := x.toInt_lt
  refine ⟨by omega, ?_⟩
  rw [Int32.toInt_add, one, bmod_32]
  omega

/-! ### Running sums -/

/-- A running sum of 32-bit words is the sum of their values, wrapped once. -/
theorem toNat_foldl_add {α : Type*} (f : α → UInt32) (xs : List α) (start : UInt32) :
    (xs.foldl (fun total x => total + f x) start).toNat =
      (start.toNat + (xs.map fun x => (f x).toNat).sum) % 2 ^ 32 := by
  induction xs generalizing start with
  | nil => exact (Nat.mod_eq_of_lt start.toNat_lt).symm
  | cons x rest ih =>
    rw [List.foldl_cons, ih, UInt32.toNat_add, List.map_cons, List.sum_cons]
    omega

/-- The same in 64 bits. -/
theorem toNat_foldl_add_64 {α : Type*} (f : α → UInt64) (xs : List α) (start : UInt64) :
    (xs.foldl (fun total x => total + f x) start).toNat =
      (start.toNat + (xs.map fun x => (f x).toNat).sum) % 2 ^ 64 := by
  induction xs generalizing start with
  | nil => exact (Nat.mod_eq_of_lt start.toNat_lt).symm
  | cons x rest ih =>
    rw [List.foldl_cons, ih, UInt64.toNat_add, List.map_cons, List.sum_cons]
    omega

end MachineWord
