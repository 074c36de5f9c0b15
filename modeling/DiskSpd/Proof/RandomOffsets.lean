/-
**Which offsets a random target draws.**

* `UniformInt.Lawful` — what the library promises of `std::uniform_int_distribution<int>(a, b)`: some
  value of `[a, b]`, each of them from some state of the engine, and nothing when `b < a`.
* `Target.IsSlot` — the offsets at a multiple of the stride from the base offset whose block fits.
* `randomRange_sub_one` — the last slot number, which the code computes exactly in 64 bits.
* `drawsExactly_iff` — the offsets drawn are exactly the slots if and only if the number of the last
  slot fits an `int`: the generator is asked for a number of that type.
-/

import DiskSpd.Proof.Offsets

namespace DiskSpd

open MachineWord

/-- **The contract of the distribution.** -/
structure UniformInt.Lawful {Engine : Type} (dist : UniformInt Engine) : Prop where
  mem : ∀ a b engine, a ≤ b → a ≤ (dist a b engine).1 ∧ (dist a b engine).1 ≤ b
  all : ∀ a b value, a ≤ value → value ≤ b → ∃ engine, (dist a b engine).1 = value

/-- A lawful distribution: the engine holds the value to return, if that is in range. -/
def heldValue : UniformInt Int32 := fun a b engine =>
  (if a ≤ engine ∧ engine ≤ b then engine else a, engine)

theorem heldValue_lawful : heldValue.Lawful where
  mem a b engine le := by
    unfold heldValue
    dsimp only
    split_ifs with inside
    · exact inside
    · exact ⟨Int32.le_refl a, le⟩
  all a b value low high := ⟨value, if_pos ⟨low, high⟩⟩

namespace Target

variable {target : Target}

/-- A block at a multiple of the stride from the base offset that fits below the maximal size. -/
def IsSlot (target : Target) (offset : Int64) : Prop :=
  ∃ k : Nat, offset.toInt = target.baseOffset.toInt + k * target.stride.toInt ∧
    offset.toInt + target.blockSize.toNat ≤ target.maxSize.toInt

/-- **The offsets that `random_offset` can return are exactly the slots**, for any lawful
distribution. -/
def DrawsExactly (target : Target) : Prop :=
  ∀ (Engine : Type) (dist : UniformInt Engine), dist.Lawful → ∀ offset : Int64,
    (∃ engine next, target.randomOffset dist engine = some (offset, next)) ↔ target.IsSlot offset

/-- The number of the last slot. -/
def lastSlot (target : Target) : Int :=
  target.room / target.stride.toInt

/-! ### The slots over the integers -/

theorem stride_pos (accepted : target.Accepted) (nonzero : target.stride ≠ 0) :
    0 < target.stride.toInt := by
  have nonneg := accepted.stride
  have : target.stride.toInt ≠ 0 := fun zero => nonzero (Int64.toInt_inj.mp zero)
  omega

theorem lastSlot_nonneg (accepted : target.Accepted) : 0 ≤ target.lastSlot :=
  Int.ediv_nonneg (room_nonneg accepted) accepted.stride

/-- A multiple of the stride fits exactly up to the last slot. -/
theorem slot_fits_iff (accepted : target.Accepted) (nonzero : target.stride ≠ 0) (k : Int) :
    target.baseOffset.toInt + k * target.stride.toInt + target.blockSize.toNat ≤
      target.maxSize.toInt ↔ k ≤ target.lastSlot := by
  unfold lastSlot
  rw [Int.le_ediv_iff_mul_le (stride_pos accepted nonzero)]
  unfold room
  omega

/-- The offset computed for a slot number is the one over the integers. -/
theorem slotOffset_toInt (accepted : target.Accepted) (nonzero : target.stride ≠ 0) {value : Int32}
    (low : 0 ≤ value.toInt) (high : value.toInt ≤ target.lastSlot) :
    (target.baseOffset + value.toInt64 * target.stride).toInt =
      target.baseOffset.toInt + value.toInt * target.stride.toInt := by
  have fits := (slot_fits_iff accepted nonzero value.toInt).mpr high
  have product : 0 ≤ value.toInt * target.stride.toInt := mul_nonneg low accepted.stride
  have base := accepted.baseOffset
  have bounds := toInt_bounds target.maxSize
  rw [toInt_add, toInt_mul, Int32.toInt_toInt64]
  omega

/-! ### The range of the draw -/

/-- The whole number of strides in the room, in 64-bit arithmetic. -/
theorem strides_toInt (accepted : target.Accepted) (nonzero : target.stride ≠ 0) :
    ((target.maxOffset - target.maxOffset % target.stride) / target.stride).toInt =
      target.lastSlot := by
  have positive := stride_pos accepted nonzero
  have nonneg := room_nonneg accepted
  have bounds := toInt_bounds target.maxOffset
  have remainder : (target.maxOffset % target.stride).toInt =
      target.room % target.stride.toInt := by
    rw [Int64.toInt_mod, maxOffset_toInt accepted, Int.tmod_eq_emod_of_nonneg nonneg]
  have small := Int.emod_nonneg target.room positive.ne'
  have whole := Int.mul_ediv_add_emod target.room target.stride.toInt
  have quotient : 0 ≤ target.stride.toInt * (target.room / target.stride.toInt) :=
    mul_nonneg positive.le (lastSlot_nonneg accepted)
  have interval : (target.maxOffset - target.maxOffset % target.stride).toInt =
      target.stride.toInt * (target.room / target.stride.toInt) := by
    rw [maxOffset_toInt accepted] at bounds
    rw [toInt_sub, remainder, maxOffset_toInt accepted]
    omega
  have notMin : target.maxOffset - target.maxOffset % target.stride ≠ Int64.minValue := by
    intro same
    rw [same] at interval
    have : Int64.minValue.toInt = -2 ^ 63 := rfl
    omega
  rw [Int64.toInt_div_of_ne_left _ _ notMin, interval, Int.tdiv_eq_ediv_of_nonneg quotient,
    Int.mul_ediv_cancel_left _ positive.ne']
  rfl

/-- **The upper bound handed to the generator**, before its conversion to `int`. -/
theorem randomRange_sub_one (accepted : target.Accepted) (nonzero : target.stride ≠ 0) :
    (target.randomRange - 1).toInt = target.lastSlot := by
  have range : target.randomRange =
      (target.maxOffset - target.maxOffset % target.stride) / target.stride + 1 := rfl
  rw [range, Int64.add_sub_cancel]
  exact strides_toInt accepted nonzero

/-- What `random_offset` can return, by the values that can be drawn. -/
theorem randomOffset_iff {Engine : Type} {dist : UniformInt Engine} (nonzero : target.stride ≠ 0)
    (offset : Int64) :
    (∃ engine next, target.randomOffset dist engine = some (offset, next)) ↔
      ∃ engine, target.baseOffset +
        (dist 0 (target.randomRange - 1).toInt32 engine).1.toInt64 * target.stride = offset := by
  have call : ∀ engine, target.randomOffset dist engine = some
      (target.baseOffset +
        (dist 0 (target.randomRange - 1).toInt32 engine).1.toInt64 * target.stride,
        (dist 0 (target.randomRange - 1).toInt32 engine).2) := fun engine => by
    unfold randomOffset
    rw [if_neg nonzero]
    rfl
  constructor
  · rintro ⟨engine, next, drawn⟩
    rw [call, Option.some.injEq, Prod.mk.injEq] at drawn
    exact ⟨engine, drawn.1⟩
  · rintro ⟨engine, rfl⟩
    exact ⟨engine, _, call engine⟩

/-- Without a stride the division traps, and no offset is drawn. -/
theorem randomOffset_zero_stride {Engine : Type} {dist : UniformInt Engine}
    (zero : target.stride = 0) (engine : Engine) : target.randomOffset dist engine = none := by
  unfold randomOffset
  rw [if_pos zero]

/-! ### Both directions -/

/-- **A slot number that fits an `int` is drawn, and no other.** -/
theorem drawsExactly_of_lastSlot (accepted : target.Accepted) (nonzero : target.stride ≠ 0)
    (small : target.lastSlot < 2 ^ 31) : target.DrawsExactly := by
  intro Engine dist lawful offset
  have nonneg := lastSlot_nonneg accepted
  have last : (target.randomRange - 1).toInt32.toInt = target.lastSlot := by
    rw [toInt_toInt32, randomRange_sub_one accepted nonzero]
    omega
  have zero : (0 : Int32).toInt = 0 := rfl
  have ordered : (0 : Int32) ≤ (target.randomRange - 1).toInt32 := by
    rw [Int32.le_iff_toInt_le, last]
    exact nonneg
  rw [randomOffset_iff nonzero]
  constructor
  · rintro ⟨engine, rfl⟩
    obtain ⟨low, high⟩ := lawful.mem _ _ engine ordered
    rw [Int32.le_iff_toInt_le] at low high
    rw [zero] at low
    rw [last] at high
    have sum := slotOffset_toInt accepted nonzero low high
    refine ⟨(dist 0 (target.randomRange - 1).toInt32 engine).1.toInt.toNat, ?_, ?_⟩
    · rw [sum, Int.toNat_of_nonneg low]
    · rw [sum]
      exact (slot_fits_iff accepted nonzero _).mpr high
  · rintro ⟨k, same, fits⟩
    rw [same, slot_fits_iff accepted nonzero] at fits
    have value : (Int32.ofInt k).toInt = k := by
      rw [toInt_ofInt_32]
      omega
    obtain ⟨engine, drawn⟩ := lawful.all 0 (target.randomRange - 1).toInt32 (Int32.ofInt k)
      (by rw [Int32.le_iff_toInt_le, value, zero]; omega)
      (by rw [Int32.le_iff_toInt_le, value, last]; exact fits)
    refine ⟨engine, Int64.toInt_inj.mp ?_⟩
    rw [drawn, slotOffset_toInt accepted nonzero (by omega) (by omega), value, same]

/-- **The last slot is never drawn when its number does not fit an `int`**: a lawful distribution may
stay at 0 where its bounds are out of order. -/
theorem lastSlot_of_drawsExactly (accepted : target.Accepted) (exactly : target.DrawsExactly) :
    target.stride ≠ 0 ∧ target.lastSlot < 2 ^ 31 := by
  have draws := exactly Int32 heldValue heldValue_lawful
  have nonzero : target.stride ≠ 0 := by
    intro zero
    have first : target.IsSlot target.baseOffset :=
      ⟨0, by rw [Nat.cast_zero, zero_mul, add_zero], accepted.fits⟩
    obtain ⟨engine, next, drawn⟩ := (draws _).mpr first
    rw [randomOffset_zero_stride zero] at drawn
    cases drawn
  refine ⟨nonzero, ?_⟩
  by_contra large
  rw [not_lt] at large
  have positive := stride_pos accepted nonzero
  have nonneg := lastSlot_nonneg accepted
  have fits := (slot_fits_iff accepted nonzero target.lastSlot).mpr le_rfl
  have product : 0 ≤ target.lastSlot * target.stride.toInt := mul_nonneg nonneg positive.le
  have base := accepted.baseOffset
  have bounds := toInt_bounds target.maxSize
  have isLast : (Int64.ofInt (target.baseOffset.toInt +
      target.lastSlot * target.stride.toInt)).toInt =
        target.baseOffset.toInt + target.lastSlot * target.stride.toInt := by
    rw [toInt_ofInt_64]
    omega
  have slot : target.IsSlot (Int64.ofInt (target.baseOffset.toInt +
      target.lastSlot * target.stride.toInt)) :=
    ⟨target.lastSlot.toNat, by rw [isLast, Int.toNat_of_nonneg nonneg], by rwa [isLast]⟩
  obtain ⟨engine, drawn⟩ := (randomOffset_iff nonzero _).mp ((draws _).mpr slot)
  have low : 0 ≤ (heldValue 0 (target.randomRange - 1).toInt32 engine).1.toInt := by
    unfold heldValue
    dsimp only
    split_ifs with inside
    · exact Int32.le_iff_toInt_le.mp inside.1
    · exact le_rfl
  have below := (heldValue 0 (target.randomRange - 1).toInt32 engine).1.toInt_lt
  have sum := slotOffset_toInt accepted nonzero low (by omega)
  rw [drawn, isLast] at sum
  have same := mul_right_cancel₀ positive.ne' (add_left_cancel sum)
  omega

end Target

/-- **The offsets drawn from an accepted target are exactly its slots if and only if the stride is
not 0 and the last slot number fits an `int`.** -/
theorem drawsExactly_iff {calls : List (Key × Option CString)} {stat : CString → Stat}
    {job : JobOptions} (ok : parseCommandLine calls stat = .ok job) {target : Target}
    (member : target ∈ job.targets) :
    target.DrawsExactly ↔ target.stride ≠ 0 ∧
      (target.maxSize.toInt - target.baseOffset.toInt - target.blockSize.toNat) /
        target.stride.toInt < 2 ^ 31 := by
  have accepted := parseCommandLine_accepted ok target member
  exact ⟨Target.lastSlot_of_drawsExactly accepted, fun ⟨nonzero, small⟩ =>
    Target.drawsExactly_of_lastSlot accepted nonzero small⟩

/-! ### A file of 2 TiB -/

/-- `-r512 f` -/
def sectorCalls : List (Key × Option CString) :=
  [(.option 'r', some "512".toList), (.keyArg, some "f".toList)]

/-- The target of `-r512 f` on a file of a size. -/
def sectorTarget (size : Int64) : Target where
  path := "f".toList
  size := size
  maxSize := size
  stride := 512
  useRandomAlignment := true

def sectorJob (size : Int64) : JobOptions where
  totalThreads := 1
  targets := [sectorTarget size]

/-- On 2 TiB the last slot has the number 2^32 - 128. -/
theorem sectorTarget_not_drawsExactly :
    parseCommandLine sectorCalls (fun _ => .file 2199023255552) = .ok (sectorJob 2199023255552) ∧
      ¬ (sectorTarget 2199023255552).DrawsExactly := by
  have ok : parseCommandLine sectorCalls (fun _ => .file 2199023255552) =
      .ok (sectorJob 2199023255552) := rfl
  refine ⟨ok, fun exactly => ?_⟩
  have small := (Target.lastSlot_of_drawsExactly (parseCommandLine_accepted ok _
    (List.mem_singleton.mpr rfl)) exactly).2
  exact absurd small (by decide)

/-- On 1 GiB every slot is drawn. -/
theorem sectorTarget_drawsExactly : (sectorTarget 1073741824).DrawsExactly := by
  have ok : parseCommandLine sectorCalls (fun _ => .file 1073741824) =
      .ok (sectorJob 1073741824) := rfl
  exact (drawsExactly_iff ok (List.mem_singleton.mpr rfl)).mpr (by decide)

end DiskSpd
