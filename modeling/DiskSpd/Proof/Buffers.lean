/-
**What `TargetBuffer` hands out.**

* `calloc_some` — a buffer is empty and null, or it is aligned up from the memory it got.
* `calloc_dvd` — either way its base is a multiple of the alignment.
* `allocate_some` — the two buffers of a target.
* `CallocSound` — what `std::calloc` promises; then each buffer lies in its own memory
  (`usable_subset`), and so do the slots of a block in it (`slot_subset`), which do not overlap
  (`slot_disjoint`).
* `calloc_placed` — where the base of a buffer and the slices of its operations are.
-/

import DiskSpd.Lib.Alignment
import DiskSpd.Model.Buffers
import Mathlib.Order.CompletePartialOrder
import Mathlib.Order.Interval.Set.Basic
import Mathlib.Order.Interval.Set.Disjoint

namespace DiskSpd

open Alignment

section Buffer

variable {memory size align : UInt64} {buffer : TargetBuffer}

/-- **The cases of `calloc`.** -/
theorem calloc_some (done : TargetBuffer.calloc memory size align = some buffer) :
    buffer.sz = size ∧ buffer.align = align ∧
      (size = 0 ∧ buffer.ptr = 0 ∨
        size ≠ 0 ∧ PowerOfTwo align ∧ buffer.unaligned = memory ∧
          buffer.ptr = alignUp memory align) := by
  unfold TargetBuffer.calloc TargetBuffer.newBuffer at done
  dsimp only at done
  split_ifs at done with empty bad null
  · cases done
    exact ⟨rfl, rfl, Or.inl ⟨empty, rfl⟩⟩
  · cases done
    refine ⟨rfl, rfl, Or.inr ⟨empty, ?_, rfl, rfl⟩⟩
    simp only [Bool.or_eq_true, decide_eq_true_eq, Bool.and_eq_true, bne_iff_ne, not_or, not_and,
      ne_eq, not_not] at bad
    obtain ⟨some, mask⟩ := bad
    by_cases one : align = 1
    · subst one
      exact ⟨0, rfl⟩
    · exact powerOfTwo_of_mask some (mask one)

/-- **The base is aligned.** -/
theorem calloc_dvd (done : TargetBuffer.calloc memory size align = some buffer) :
    align.toNat ∣ buffer.ptr.toNat := by
  obtain ⟨_, _, ⟨_, null⟩ | ⟨_, power, _, base⟩⟩ := calloc_some done
  · rw [null]
    exact dvd_zero _
  · rw [base]
    exact dvd_alignUp power memory

end Buffer

theorem allocate_some {target : Target} {memory : Memory} {buffers : TargetBuffers}
    (done : target.allocate memory = some buffers) :
    TargetBuffer.calloc memory.buffer (target.overlap.toUInt64 * target.blockSize)
        target.bufferAlign = some buffers.buffer ∧
      (target.separateBuffers = true → TargetBuffer.calloc memory.writeBuffer target.blockSize
        target.bufferAlign = some buffers.writeBuffer) ∧
      (target.separateBuffers = false → buffers.writeBuffer = {}) := by
  unfold Target.allocate Target.allocateWriteBuffer at done
  obtain ⟨buffer, isBuffer, done⟩ := Option.bind_eq_some_iff.mp done
  obtain ⟨writeBuffer, isWrite, done⟩ := Option.bind_eq_some_iff.mp done
  cases done
  refine ⟨isBuffer, fun separate => ?_, fun shared => ?_⟩
  · rwa [separate, if_pos rfl] at isWrite
  · rw [shared, if_neg Bool.false_ne_true, Option.some.injEq] at isWrite
    exact isWrite.symm

/-! ### Where the buffers are -/

/-- The addresses of a buffer. -/
def TargetBuffer.usable (buffer : TargetBuffer) : Set Nat :=
  Set.Ico buffer.ptr.toNat (buffer.ptr.toNat + buffer.sz.toNat)

/-- The addresses it got from `std::calloc`. -/
def TargetBuffer.allocation (buffer : TargetBuffer) : Set Nat :=
  if buffer.sz = 0 then ∅
  else Set.Ico buffer.unaligned.toNat (buffer.unaligned.toNat + buffer.requested.toNat)

/-- The buffer that operations of a direction would have of their own. -/
def TargetBuffers.get (buffers : TargetBuffers) : IopType → TargetBuffer
  | .read => buffers.buffer
  | .write => buffers.writeBuffer

/-- **What `std::calloc` promises** for the buffers of a thread with so many targets: memory of the
size it was asked for, and apart from all it has given out. -/
structure CallocSound (targets : Nat) (buffers : Nat → TargetBuffers) : Prop where
  inSpace : ∀ t < targets, ∀ which, ((buffers t).get which).sz ≠ 0 →
    ((buffers t).get which).unaligned.toNat + ((buffers t).get which).requested.toNat ≤ 2 ^ 64
  apart : ∀ t < targets, ∀ t' < targets, ∀ which which', (t, which) ≠ (t', which') →
    Disjoint ((buffers t).get which).allocation ((buffers t').get which').allocation

/-- **A buffer lies in the memory it got.** -/
theorem usable_subset {memory size align : UInt64} {buffer : TargetBuffer}
    (done : TargetBuffer.calloc memory size align = some buffer)
    (fits : size.toNat + (align.toNat - 1) < 2 ^ 64)
    (inSpace : buffer.sz ≠ 0 → buffer.unaligned.toNat + buffer.requested.toNat ≤ 2 ^ 64) :
    buffer.usable ⊆ buffer.allocation ∧ buffer.ptr.toNat + size.toNat ≤ 2 ^ 64 := by
  have one : (1 : UInt64).toNat = 1 := rfl
  unfold TargetBuffer.usable TargetBuffer.allocation
  obtain ⟨sz, isAlign, ⟨empty, null⟩ | ⟨some, power, base, ptr⟩⟩ := calloc_some done
  · rw [sz, empty, null, if_pos rfl]
    exact ⟨(Set.Ico_self _).subset, Nat.zero_le _⟩
  · have positive := power.pos
    have whole : buffer.requested.toNat = size.toNat + (align.toNat - 1) := by
      unfold TargetBuffer.requested
      rw [sz, isAlign, UInt64.toNat_sub, UInt64.toNat_add, one]
      have := align.toNat_lt
      omega
    have space := inSpace (by rwa [sz])
    rw [whole, base] at space
    have sizePositive : 0 < size.toNat :=
      Nat.pos_of_ne_zero fun zero => some (UInt64.toNat_inj.mp zero)
    obtain ⟨low, high⟩ := alignUp_bounds power (u := memory) (by omega)
    rw [sz, if_neg some, whole, base, ptr]
    exact ⟨Set.Ico_subset_Ico low (by omega), by omega⟩

/-! ### Slots -/

/-- The slot of a block in memory that starts at an address. -/
def slot (start size i : Nat) : Set Nat :=
  Set.Ico (start + i * size) (start + i * size + size)

theorem slot_subset {start size count i : Nat} (below : i < count) :
    slot start size i ⊆ Set.Ico start (start + count * size) := by
  have upTo : (i + 1) * size ≤ count * size := Nat.mul_le_mul_right size below
  rw [Nat.succ_mul] at upTo
  exact Set.Ico_subset_Ico (Nat.le_add_right _ _) (by omega)

theorem slot_disjoint {start size i j : Nat} (different : i ≠ j) :
    Disjoint (slot start size i) (slot start size j) := by
  have ordered : ∀ {i j : Nat}, i < j → Disjoint (slot start size i) (slot start size j) := by
    intro i j before
    have upTo : (i + 1) * size ≤ j * size := Nat.mul_le_mul_right size before
    rw [Nat.succ_mul] at upTo
    rw [slot, slot, Set.Ico_disjoint_Ico]
    omega
  rcases Nat.lt_or_gt_of_ne different with before | after
  · exact ordered before
  · exact (ordered after).symm

/-- The address of a slot, where the slots fit in the address space. -/
theorem toNat_slot {start size : UInt64} {count i : Nat} (below : i < count)
    (inSpace : start.toNat + count * size.toNat ≤ 2 ^ 64) :
    (start + UInt64.ofNat i * size).toNat = start.toNat + i * size.toNat := by
  have upTo : (i + 1) * size.toNat ≤ count * size.toNat := Nat.mul_le_mul_right _ below
  rw [Nat.succ_mul] at upTo
  have bounded := start.toNat_lt
  rw [UInt64.toNat_add, UInt64.toNat_mul, UInt64.toNat_ofNat', Nat.mod_mul_mod, Nat.add_mod_mod]
  refine Nat.mod_eq_of_lt ?_
  rcases Nat.eq_zero_or_pos size.toNat with empty | some
  · rw [empty]
    omega
  · omega

/-! ### The slices of a buffer -/

/-- `&ptr()[i*block_size]` -/
def TargetBuffer.slice (buffer : TargetBuffer) (blockSize : UInt64) (i : UInt32) : UInt64 :=
  buffer.ptr + i.toUInt64 * blockSize

/-- The addresses of a block. -/
def blockAt (start blockSize : UInt64) : Set Nat :=
  Set.Ico start.toNat (start.toNat + blockSize.toNat)

/-- The buffer that an operation of the thread reads into is its slice. -/
theorem readBuf_slice {th : ThreadParams} {tData : TargetData} {buffer : TargetBuffer}
    (here : tData.buffer = buffer.ptr) (t : Nat) (i percentage : UInt32) (offset : Int64)
    (now : UInt64) : (ThreadState.iopArgs th tData t i offset percentage now).readBuf =
      buffer.slice tData.target.blockSize i := by
  unfold ThreadState.iopArgs TargetBuffer.slice
  rw [here]

/-- **A buffer in its place**: aligned up in the memory at `base`, with a slice of a block for each
operation. -/
structure TargetBuffer.Placed (buffer : TargetBuffer) (base : UInt64) (overlap : UInt32)
    (blockSize align : UInt64) : Prop where
  aligned : align.toNat ∣ buffer.ptr.toNat
  above : base.toNat ≤ buffer.ptr.toNat
  below : buffer.ptr.toNat + overlap.toNat * blockSize.toNat ≤
    base.toNat + overlap.toNat * blockSize.toNat + align.toNat - 1
  inside : ∀ i < overlap, blockAt (buffer.slice blockSize i) blockSize ⊆
    Set.Ico buffer.ptr.toNat (buffer.ptr.toNat + overlap.toNat * blockSize.toNat)
  disjoint : ∀ i < overlap, ∀ j < overlap, i ≠ j →
    Disjoint (blockAt (buffer.slice blockSize i) blockSize)
      (blockAt (buffer.slice blockSize j) blockSize)
  slices : align.toNat ∣ blockSize.toNat → ∀ i < overlap,
    align.toNat ∣ (buffer.slice blockSize i).toNat

section Placed

variable {overlap : UInt32} {blockSize align base : UInt64}

theorem toNat_request (space : overlap.toNat * blockSize.toNat < 2 ^ 64) :
    (overlap.toUInt64 * blockSize).toNat = overlap.toNat * blockSize.toNat := by
  rw [UInt64.toNat_mul, UInt32.toNat_toUInt64]
  exact Nat.mod_eq_of_lt space

theorem toNat_slice {buffer : TargetBuffer} {i : UInt32} (below : i < overlap)
    (inSpace : buffer.ptr.toNat + overlap.toNat * blockSize.toNat ≤ 2 ^ 64) :
    (buffer.slice blockSize i).toNat = buffer.ptr.toNat + i.toNat * blockSize.toNat := by
  have index : i.toUInt64 = UInt64.ofNat i.toNat := UInt64.toNat_inj.mp (by
    rw [UInt32.toNat_toUInt64, UInt64.toNat_ofNat']
    have := i.toNat_lt
    omega)
  unfold TargetBuffer.slice
  rw [index]
  exact toNat_slot (UInt32.lt_iff_toNat_lt.mp below) inSpace

/-- **The placement of a buffer.** Where the memory lies in the address space, `calloc` leaves the
buffer in its place, and the operations that a thread constructs on it read into its slices. It fails its
assertion only on a null pointer. -/
theorem calloc_placed (operations : 1 ≤ overlap.toNat) (bytes : 1 ≤ blockSize.toNat)
    (power : PowerOfTwo align)
    (space : base.toNat + overlap.toNat * blockSize.toNat + align.toNat - 1 < 2 ^ 64) :
    (base ≠ 0 →
      ∃ buffer, TargetBuffer.calloc base (overlap.toUInt64 * blockSize) align = some buffer) ∧
    ∀ buffer, TargetBuffer.calloc base (overlap.toUInt64 * blockSize) align = some buffer →
      buffer.Placed base overlap blockSize align ∧
        ∀ (th : ThreadParams) (tData : TargetData), tData.buffer = buffer.ptr →
          tData.target.blockSize = blockSize → ∀ t i percentage offset now,
            (ThreadState.iopArgs th tData t i offset percentage now).readBuf =
              buffer.slice blockSize i := by
  have alignPositive := power.pos
  have product : 0 < overlap.toNat * blockSize.toNat := Nat.mul_pos operations bytes
  have size : (overlap.toUInt64 * blockSize).toNat = overlap.toNat * blockSize.toNat :=
    toNat_request (by omega)
  have nonempty : overlap.toUInt64 * blockSize ≠ 0 := by
    intro empty
    rw [empty] at size
    have zero : (0 : UInt64).toNat = 0 := rfl
    omega
  refine ⟨fun memory => ?_, fun buffer done => ?_⟩
  · have some : align ≠ 0 := by
      rintro rfl
      exact absurd alignPositive (by decide)
    have mask : align &&& (align - 1) = 0 := (mask_eq_zero_iff power align).mpr dvd_rfl
    unfold TargetBuffer.calloc TargetBuffer.newBuffer
    rw [if_neg nonempty, if_neg (by simp [some, mask]), if_neg memory]
    exact ⟨_, rfl⟩
  · obtain ⟨_, _, ⟨empty, _⟩ | ⟨_, _, _, ptr⟩⟩ := calloc_some done
    · exact absurd empty nonempty
    obtain ⟨low, high⟩ := alignUp_bounds power (u := base) (by omega)
    rw [← ptr] at low high
    have inSpace : buffer.ptr.toNat + overlap.toNat * blockSize.toNat ≤ 2 ^ 64 := by omega
    have slots : ∀ i < overlap, blockAt (buffer.slice blockSize i) blockSize =
        slot buffer.ptr.toNat blockSize.toNat i.toNat := by
      intro i below
      unfold blockAt slot
      rw [toNat_slice below inSpace]
    refine ⟨⟨calloc_dvd done, low, by omega, fun i below => ?_, fun i isSlot j isSlot' other => ?_,
      fun whole i below => ?_⟩, fun th tData here sameSize t i percentage offset now => ?_⟩
    · rw [slots i below]
      exact slot_subset (UInt32.lt_iff_toNat_lt.mp below)
    · rw [slots i isSlot, slots j isSlot']
      exact slot_disjoint fun same => other (UInt32.toNat_inj.mp same)
    · rw [toNat_slice below inSpace]
      exact Nat.dvd_add (calloc_dvd done) (Dvd.dvd.mul_left whole _)
    · rw [← sameSize]
      exact readBuf_slice here t i percentage offset now

end Placed

/-- Two blocks of 4096 bytes aligned to 512, in memory at 1000: the base is moved up to 1024. -/
theorem calloc_placed_two :
    ∃ buffer, TargetBuffer.calloc 1000 ((2 : UInt32).toUInt64 * 4096) 512 = some buffer ∧
      buffer.ptr = 1024 ∧ buffer.Placed 1000 2 4096 512 := by
  have operations : 1 ≤ (2 : UInt32).toNat := by decide
  have bytes : 1 ≤ (4096 : UInt64).toNat := by decide
  have power : PowerOfTwo 512 := ⟨9, rfl⟩
  have space : (1000 : UInt64).toNat + (2 : UInt32).toNat * (4096 : UInt64).toNat +
      (512 : UInt64).toNat - 1 < 2 ^ 64 := by decide
  obtain ⟨works, placed⟩ := calloc_placed operations bytes power space
  obtain ⟨buffer, done⟩ := works (by decide)
  obtain ⟨isPlaced, -⟩ := placed buffer done
  exact ⟨buffer, done, by cases done; rfl, isPlaced⟩

end DiskSpd
