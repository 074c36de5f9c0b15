/-
**Strided offsets go around the slots of a region.**

* `Target.Slots` — a region `[t, max_size)` with room for a block, and a positive stride.
* `slotCount`, `slotOffset` — the slots `t + m * stride` whose block fits, in order
  (`fits_iff_slot`).
* `correctOverflow_slot` — one step goes to the next slot, and from the last one back to `t`. The sum
  of the stride may pass `2 ^ 63`; the comparison is unsigned, and the sum does not reach `2 ^ 64`.
* `getNextOffset_cyclic` — so `k` steps add `k` modulo the number of slots, in strided mode and for
  the calls of an interlocked target in lock order, and every turn visits every slot once.
-/

import DiskSpd.Proof.InterlockedPattern

namespace DiskSpd

open MachineWord Orbit Transition

namespace Target

/-- A region from `t` on that holds a block, and a stride to go through it. -/
structure Slots (target : Target) (t : Int64) : Prop where
  base : 0 ≤ t.toInt
  fits : t.toInt + target.blockSize.toNat ≤ target.maxSize.toInt
  stride : 1 ≤ target.stride.toInt

/-- `L = floor((max_size - block_size - t) / stride) + 1` -/
def slotCount (target : Target) (t : Int64) : Nat :=
  ((target.maxSize.toInt - target.blockSize.toNat - t.toInt) / target.stride.toInt).toNat + 1

/-- The offset of a slot, over the integers. -/
def slotOffset (target : Target) (t : Int64) (m : Nat) : Int :=
  t.toInt + m * target.stride.toInt

variable {target : Target} {t : Int64}

theorem slotOffset_zero : target.slotOffset t 0 = t.toInt := by
  unfold slotOffset
  rw [Nat.cast_zero, zero_mul, add_zero]

theorem slotOffset_succ (m : Nat) :
    target.slotOffset t (m + 1) = target.slotOffset t m + target.stride.toInt := by
  unfold slotOffset
  rw [Nat.cast_succ, add_one_mul, add_assoc]

namespace Slots

/-- **The slots are the strides whose block fits.** -/
theorem fits_iff_slot (slots : target.Slots t) (m : Nat) :
    target.slotOffset t m + target.blockSize.toNat ≤ target.maxSize.toInt ↔
      m < target.slotCount t := by
  have room : 0 ≤ target.maxSize.toInt - target.blockSize.toNat - t.toInt := by
    have fits := slots.fits
    omega
  have quotient := Int.ediv_nonneg room (zero_le_one.trans slots.stride)
  have below := Int.le_ediv_iff_mul_le (a := (m : Int))
    (b := target.maxSize.toInt - target.blockSize.toNat - t.toInt)
    (Int.lt_of_lt_of_le zero_lt_one slots.stride)
  unfold slotOffset slotCount
  omega

theorem slotOffset_nonneg (slots : target.Slots t) (m : Nat) : 0 ≤ target.slotOffset t m :=
  add_nonneg slots.base (mul_nonneg (Int.natCast_nonneg m) (zero_le_one.trans slots.stride))

theorem slotOffset_injective (slots : target.Slots t) {m n : Nat}
    (same : target.slotOffset t m = target.slotOffset t n) : m = n := by
  have nonzero : target.stride.toInt ≠ 0 := by
    have stride := slots.stride
    omega
  exact Nat.cast_injective (mul_right_cancel₀ nonzero (add_left_cancel same))

/-- The slot in the signed type of the offsets. -/
theorem toInt_slotOffset (slots : target.Slots t) {m : Nat} (below : m < target.slotCount t) :
    (Int64.ofInt (target.slotOffset t m)).toInt = target.slotOffset t m := by
  have fits := (slots.fits_iff_slot m).mpr below
  have nonneg := slots.slotOffset_nonneg m
  have bounds := toInt_bounds target.maxSize
  rw [toInt_ofInt_64]
  omega

theorem ofInt_slotOffset_zero : Int64.ofInt (target.slotOffset t 0) = t := by
  rw [slotOffset_zero, Int64.ofInt_toInt]

/-- **One step goes to the next slot**, and from the last slot to the first. -/
theorem correctOverflow_slot (slots : target.Slots t) {relThreadId : UInt32}
    (threadBase : target.getThreadBaseOffset relThreadId = t) {m : Nat}
    (below : m < target.slotCount t) :
    target.correctOverflow relThreadId (Int64.ofInt (target.slotOffset t m) + target.stride) =
      Int64.ofInt (target.slotOffset t ((m + 1) % target.slotCount t)) := by
  have here := slots.toInt_slotOffset below
  have nonneg := slots.slotOffset_nonneg m
  have inside := (slots.fits_iff_slot m).mpr below
  have stride : 0 ≤ target.stride.toInt := zero_le_one.trans slots.stride
  have next := slots.fits_iff_slot (m + 1)
  rw [slotOffset_succ, ← here] at next
  rw [← here] at nonneg inside
  have past := overflows_step nonneg stride inside
  unfold correctOverflow
  by_cases last : m + 1 < target.slotCount t
  · have fits := next.mpr last
    have sum := toInt_step nonneg stride fits
    rw [if_neg (by rw [past]; omega), Nat.mod_eq_of_lt last]
    refine Int64.toInt_inj.mp ?_
    rw [sum, slots.toInt_slotOffset last, slotOffset_succ, here]
  · have wraps : m + 1 = target.slotCount t := by omega
    rw [if_pos (by rw [past]; omega), wraps, Nat.mod_self, ofInt_slotOffset_zero, threadBase]

end Slots

/-! ### Calls in a row -/

section Calls

variable {Engine : Type} (dist : UniformInt Engine)

/-- `k` calls of `get_next_offset`, each on the offset of the one before. -/
def nextOffsets (target : Target) (relThreadId : UInt32) (state : OffsetState Engine)
    (curr : Int64) : Nat → Option (Int64 × OffsetState Engine)
  | 0 => some (curr, state)
  | k + 1 => (target.nextOffsets relThreadId state curr k).bind fun (offset, next) =>
      target.getNextOffset dist relThreadId next offset

variable {relThreadId : UInt32} {state : OffsetState Engine}

/-- The current offset of a sequence of calls: the shared one, when the target is interlocked. -/
def IsCurrent (target : Target) (state : OffsetState Engine) (curr : Int64) : Prop :=
  target.useInterlocked = true → state.interlockedOffset = curr

/-- Without `-r` a call steps to the next block. -/
theorem getNextOffset_nextBlock (sequential : target.useRandomAlignment = false) {curr : Int64}
    (current : target.IsCurrent state curr) :
    ∃ next, target.getNextOffset dist relThreadId state curr =
        some (target.nextBlock relThreadId curr, next) ∧
      target.IsCurrent next (target.nextBlock relThreadId curr) := by
  unfold getNextOffset
  rw [sequential, if_neg Bool.false_ne_true]
  unfold IsCurrent at current
  unfold IsCurrent nextBlock
  cases interlocked : target.useInterlocked with
  | true => exact ⟨_, by rw [if_pos rfl, current interlocked], fun _ => rfl⟩
  | false => exact ⟨state, rfl, fun no => by cases no⟩

/-- So the calls iterate the step. -/
theorem nextOffsets_iterate (sequential : target.useRandomAlignment = false) {curr : Int64}
    (current : target.IsCurrent state curr) (k : Nat) :
    ∃ next, target.nextOffsets dist relThreadId state curr k =
        some ((target.nextBlock relThreadId)^[k] curr, next) ∧
      target.IsCurrent next ((target.nextBlock relThreadId)^[k] curr) := by
  induction k with
  | zero => exact ⟨state, rfl, current⟩
  | succ k ih =>
    obtain ⟨middle, calls, current⟩ := ih
    obtain ⟨next, call, current⟩ := getNextOffset_nextBlock dist sequential current
    rw [Function.iterate_succ_apply']
    refine ⟨next, ?_, current⟩
    rw [nextOffsets, calls, Option.bind_some]
    exact call

/-- **`k` strided steps from a slot.** -/
theorem Slots.nextBlock_iterate (slots : target.Slots (target.getThreadBaseOffset relThreadId))
    {j : Nat} (below : j < target.slotCount (target.getThreadBaseOffset relThreadId)) (k : Nat) :
    ((target.nextBlock relThreadId)^[k] (Int64.ofInt
        (target.slotOffset (target.getThreadBaseOffset relThreadId) j))).toInt =
      target.slotOffset (target.getThreadBaseOffset relThreadId)
        ((j + k) % target.slotCount (target.getThreadBaseOffset relThreadId)) := by
  rw [iterate_cyclic (fun m => Int64.ofInt
      (target.slotOffset (target.getThreadBaseOffset relThreadId) m))
    (fun m inside => slots.correctOverflow_slot rfl inside) below k]
  exact slots.toInt_slotOffset (Nat.mod_lt _ (Nat.zero_lt_of_lt below))

end Calls

/-! ### Calls in lock order -/

/-- The pattern of an interlocked target is the step between its slots. -/
theorem Shared.patternNext_slot (shared : target.Shared) (slots : target.Slots target.baseOffset)
    {m : Nat} (below : m < target.slotCount target.baseOffset) :
    target.patternNext (Int64.ofInt (target.slotOffset target.baseOffset m)) =
      Int64.ofInt (target.slotOffset target.baseOffset
        ((m + 1) % target.slotCount target.baseOffset)) := by
  have inside : target.InRegion (Int64.ofInt (target.slotOffset target.baseOffset m)) := by
    unfold InRegion
    rw [slots.toInt_slotOffset below]
    refine ⟨?_, (slots.fits_iff_slot m).mpr below⟩
    exact le_add_of_nonneg_right
      (mul_nonneg (Int.natCast_nonneg m) (zero_le_one.trans slots.stride))
  rw [← correctOverflow_eq_patternNext shared inside 0]
  exact slots.correctOverflow_slot (shared.threadBase 0) below

/-- **The calls of an interlocked target in lock order**: the first one gets the second slot. -/
theorem Shared.ledger_slot (shared : target.Shared) (slots : target.Slots target.baseOffset)
    {offsets : List Int64}
    (orbit : IsOrbit target.patternNext (target.patternNext target.baseOffset) offsets)
    {i : Nat} {offset : Int64} (found : offsets[i]? = some offset) :
    offset.toInt = target.slotOffset target.baseOffset
      ((i + 1) % target.slotCount target.baseOffset) := by
  have positive : 0 < target.slotCount target.baseOffset := Nat.succ_pos _
  have around := iterate_cyclic
    (fun m => Int64.ofInt (target.slotOffset target.baseOffset m))
    (fun m below => shared.patternNext_slot slots below) positive (i + 1)
  rw [zero_add, Slots.ofInt_slotOffset_zero, Function.iterate_succ_apply] at around
  rw [orbit.getElem?_eq found, around, slots.toInt_slotOffset (Nat.mod_lt _ positive)]

/-! ### Both modes -/

/-- **Offsets that go around the slots**: place `k` holds slot `j + k`, modulo the number of slots,
and `L` places in a row visit each slot of the region once. -/
structure GoesAround (target : Target) (t : Int64) (j : Nat) (offsets : Nat → Option Int64) :
    Prop where
  slot : ∀ k offset, offsets k = some offset →
    offset.toInt = target.slotOffset t ((j + k) % target.slotCount t)
  turn : ∀ first, (∀ i, i < target.slotCount t → (offsets (first + i)).isSome) →
    ∀ m, target.slotOffset t m + target.blockSize.toNat ≤ target.maxSize.toInt →
      ∃! i, i < target.slotCount t ∧
        ∃ offset, offsets (first + i) = some offset ∧ offset.toInt = target.slotOffset t m

/-- The turns follow from the places. -/
theorem Slots.goesAround (slots : target.Slots t) {j : Nat} {offsets : Nat → Option Int64}
    (slot : ∀ k offset, offsets k = some offset →
      offset.toInt = target.slotOffset t ((j + k) % target.slotCount t)) :
    target.GoesAround t j offsets where
  slot := slot
  turn first there m fits := by
    have below := (slots.fits_iff_slot m).mp fits
    obtain ⟨i, ⟨inside, reaches⟩, once⟩ := existsUnique_turn below (j + first)
    rw [Nat.add_assoc] at reaches
    refine ⟨i, ⟨inside, ?_⟩, ?_⟩
    · obtain ⟨offset, found⟩ := Option.isSome_iff_exists.mp (there i inside)
      refine ⟨offset, found, ?_⟩
      rw [slot _ _ found, reaches]
    · rintro i' ⟨inside', offset, found, here⟩
      refine once i' ⟨inside', ?_⟩
      rw [Nat.add_assoc]
      exact slots.slotOffset_injective ((slot _ _ found).symm.trans here)

end Target

/-- **Cyclic stepping.** Without `-r`, from slot `j` of a region, `k` calls of `get_next_offset` give
slot `j + k` modulo the number of slots. With `-si`, in each run of the threads of a job, the `k`-th
call in the order of the lock gives slot `k` modulo the number of slots. -/
theorem getNextOffset_cyclic {target : Target} {relThreadId : UInt32}
    (sequential : target.useRandomAlignment = false)
    (slots : target.Slots (target.getThreadBaseOffset relThreadId)) {Engine : Type}
    (dist : UniformInt Engine) :
    (∀ (state : OffsetState Engine) (curr : Int64) (j : Nat), target.IsCurrent state curr →
      j < target.slotCount (target.getThreadBaseOffset relThreadId) →
      curr.toInt = target.slotOffset (target.getThreadBaseOffset relThreadId) j →
      (∀ k, (target.nextOffsets dist relThreadId state curr k).isSome) ∧
      target.GoesAround (target.getThreadBaseOffset relThreadId) j fun k =>
        (target.nextOffsets dist relThreadId state curr k).map (·.1)) ∧
    (target.useInterlocked = true → target.threadOffset = 0 →
      target.interlockedOffset = target.baseOffset →
      ∀ (Op : Type) [IAsyncIop Op] (targets : List Target) (params : List ThreadParams) (n : Nat),
      targets[n]? = some target →
      (∀ th ∈ params, ∀ tData ∈ th.targets, tData.targetIndex = n → tData.target = target) →
      ∀ (state : JobState Op Engine) (ledger : List Acquisition),
      Reachable (ledgerSystem dist targets params n) (state, ledger) →
      target.GoesAround target.baseOffset 1 fun i => ledger[i]?.map (·.offset)) := by
  refine ⟨fun state curr j current below atSlot => ?_, ?_⟩
  · have atStart : curr = Int64.ofInt
        (target.slotOffset (target.getThreadBaseOffset relThreadId) j) := by
      rw [← atSlot, Int64.ofInt_toInt]
    subst atStart
    refine ⟨fun k => ?_, slots.goesAround fun k offset found => ?_⟩
    · obtain ⟨next, calls, _⟩ := Target.nextOffsets_iterate dist sequential current k
      rw [calls]
      rfl
    · obtain ⟨next, calls, _⟩ := Target.nextOffsets_iterate dist sequential current k
      rw [calls, Option.map_some, Option.some.injEq] at found
      rw [← found]
      exact slots.nextBlock_iterate below k
  · intro interlocked noOffset start Op _ targets params n found serves state ledger reached
    have threadBase : target.getThreadBaseOffset relThreadId = target.baseOffset := by
      unfold Target.getThreadBaseOffset
      rw [noOffset, Int64.mul_zero, Int64.add_zero]
    rw [threadBase] at slots
    have shared : target.Shared := ⟨sequential, interlocked, noOffset, start, slots.base,
      zero_le_one.trans slots.stride, slots.fits⟩
    have inv := ledgerInv_reachable shared serves found reached
    refine slots.goesAround fun i offset isOffset => ?_
    rw [← List.getElem?_map] at isOffset
    rw [Nat.add_comm 1 i]
    exact shared.ledger_slot slots inv.orbit isOffset

/-- A target of two slots: the sum of the stride from the second one passes `2 ^ 63`. -/
def twoSlots : Target where
  path := "f".toList
  maxSize := 9223372036854775807
  stride := 6917529027641081856

/-- The same one, interlocked. -/
def twoShared : Target :=
  { twoSlots with useInterlocked := true }

/-- A thread that works on it. -/
def twoSharer (id : UInt32) : ThreadParams where
  threadId := id
  relThreadId := id
  targets := [
    { target := twoShared, targetIndex := 0, fd := 3, buffer := 65536, writeBuffer := 0 }]

def twoSharers : List ThreadParams :=
  [twoSharer 0, twoSharer 1]

/-- **Two slots**: one caller goes around them from the second, and two threads that start on the shared
target in turn get the second, the first, and the second again. -/
theorem twoSlots_goesAround :
    (twoSlots.GoesAround (twoSlots.getThreadBaseOffset 0) 1 fun k =>
      (twoSlots.nextOffsets (fun a _ engine => (a, engine)) 0
        ({ interlockedOffset := 0, rngEngine := () } : OffsetState Unit)
        6917529027641081856 k).map (·.1)) ∧
    ∃ (state : JobState KernelAsyncIop Unit) (ledger : List Acquisition),
      Reachable (ledgerSystem (fun a _ engine => (a, engine)) [twoShared] twoSharers 0) (state, ledger) ∧
        ledger.map (·.thread) = [0, 1, 1] ∧
        ledger.map (·.offset) = [6917529027641081856, 0, 6917529027641081856] ∧
        twoShared.GoesAround twoShared.baseOffset 1 fun i => ledger[i]?.map (·.offset) := by
  have slots : twoSlots.Slots (twoSlots.getThreadBaseOffset 0) :=
    ⟨by decide, by decide, by decide⟩
  have sharedSlots : twoShared.Slots (twoShared.getThreadBaseOffset 0) :=
    ⟨by decide, by decide, by decide⟩
  let dist : UniformInt Unit := fun a _ engine => (a, engine)
  have strided := (getNextOffset_cyclic rfl slots dist).1
    { interlockedOffset := 0, rngEngine := () } 6917529027641081856 1 (fun shared => by cases shared)
    (by decide) (by decide)
  refine ⟨strided.2, ?_⟩
  have serves : ∀ th ∈ twoSharers, ∀ tData ∈ th.targets, tData.targetIndex = 0 →
      tData.target = twoShared := by
    intro th isThread tData member _
    rcases List.mem_pair.mp isThread with rfl | rfl <;> rw [List.mem_singleton.mp member]
  let first : JobState KernelAsyncIop Unit :=
    { interlocked := fun k => ([twoShared][k]?.map (·.interlockedOffset)).getD 0
      threads := fun k => .initial (twoSharer (UInt32.ofNat k)) () }
  have start : Reachable (ledgerSystem dist [twoShared] twoSharers 0) (first, []) := by
    refine .of_init ⟨⟨fun k => rfl, fun k th isThread => ⟨(), ?_⟩⟩, rfl⟩
    rcases k with _ | _ | k
    · cases isThread
      rfl
    · cases isThread
      rfl
    · cases isThread
  have toSecond : ∀ id, twoShared.getStartOffset dist id { interlockedOffset := 0, rngEngine := () } =
      some (6917529027641081856, { interlockedOffset := 6917529027641081856, rngEngine := () }) :=
    fun _ => rfl
  have toFirst : ∀ id, twoShared.getStartOffset dist id
      { interlockedOffset := 6917529027641081856, rngEngine := () } =
      some (0, { interlockedOffset := 0, rngEngine := () }) := fun _ => rfl
  have begun := start.step
    (ledgerSystem_step (n := 0) (show twoSharers[0]? = some (twoSharer 0) from rfl)
      (.startOffset rfl rfl (toSecond 0)))
  have both := begun.step
    (ledgerSystem_step (n := 1) (show twoSharers[1]? = some (twoSharer 1) from rfl)
      (.startOffset rfl rfl (toFirst 1)))
  have constructed := both.step
    (ledgerSystem_step (n := 1) (show twoSharers[1]? = some (twoSharer 1) from rfl)
      (@Step.construct _ _ _ dist _ _ _ _ _ _ _ 1 0 0 rfl rfl (by decide) (by decide) (by decide)))
  have advanced := constructed.step
    (ledgerSystem_step (n := 1) (show twoSharers[1]? = some (twoSharer 1) from rfl)
      (.advance rfl rfl (toSecond 1)))
  exact ⟨_, _, advanced, rfl, rfl, (getNextOffset_cyclic rfl sharedSlots dist).2 rfl rfl rfl _
    [twoShared] twoSharers 0 rfl serves _ _ advanced⟩

end DiskSpd
