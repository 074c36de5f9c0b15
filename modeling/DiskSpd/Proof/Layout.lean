/-
**What a layout writes.**

* `fillSystem` — the loop as a transition system, a step for each round whose `write` works.
* `FilledTo` — the invariant: how much is written, remains, and where the file ends; `fillRound_keeps`
  is its step. A round starts at a multiple of the buffer, so the pattern goes on where it stopped.
* `fillRound_length` — each round makes what remains smaller, so a run has an end.
* `LayoutRight` — the bytes between the base offset and the maximum size are written once each, in
  the pattern, and none below.
* `layout_iff` — this holds unless the seek to the base offset fails and the layout goes on.
-/

import DiskSpd.Lib.Transition
import DiskSpd.Model.Layout

namespace DiskSpd

open MachineWord Transition

/-- The loop, a round a step. -/
def fillSystem (buf : Nat → UInt8) (start : Filling) : System Filling Bool where
  init state := state = start
  step state works next := state.remainingBytes ≠ 0 ∧ fillRound buf works state = (true, next)

/-! ### One round -/

theorem toNat_fillBufSize : fillBufSize.toNat = 2 ^ 26 := rfl

theorem toNat_chunkSize {remainingBytes : Int64} (nonneg : 0 ≤ remainingBytes.toInt) :
    ((chunkSize remainingBytes).toNat : Int) = min (2 ^ 26) remainingBytes.toInt := by
  have unsigned := toNat_toUInt64 remainingBytes
  have bound := (toInt_bounds remainingBytes).2
  have full := toNat_fillBufSize
  unfold chunkSize
  split_ifs with less
  · have less := UInt64.lt_iff_toNat_lt.mp less
    omega
  · have less := mt UInt64.lt_iff_toNat_lt.mpr less
    omega

theorem fillRound_fails (buf : Nat → UInt8) (state : Filling) :
    fillRound buf false state = (false, state) := by
  have minusOne : ((-1 : Int64).toUInt64 != chunkSize state.remainingBytes) = true := by
    rw [bne_iff_ne]
    intro same
    have small : (chunkSize state.remainingBytes).toNat ≤ fillBufSize.toNat := by
      unfold chunkSize
      split_ifs with less
      · exact le_rfl
      · exact Nat.not_lt.mp (mt UInt64.lt_iff_toNat_lt.mpr less)
    rw [← same] at small
    exact absurd small (by decide)
  simp only [fillRound, Descriptor.write, Bool.false_eq_true, if_false, minusOne, if_true]

theorem fillRound_works (buf : Nat → UInt8) (state : Filling) :
    fillRound buf true state = (true, {
      fd := (state.fd.write buf (chunkSize state.remainingBytes) true).2
      remainingBytes :=
        (state.remainingBytes.toUInt64 - chunkSize state.remainingBytes).toInt64 }) := by
  have same : ((chunkSize state.remainingBytes).toInt64.toUInt64 !=
      chunkSize state.remainingBytes) = false := bne_self_eq_false _
  simp only [fillRound, Descriptor.write, if_true, same, Bool.false_eq_true, if_false]

theorem works_of_taken {buf : Nat → UInt8} {works : Bool} {state next : Filling}
    (taken : fillRound buf works state = (true, next)) : works = true := by
  cases works with
  | true => rfl
  | false =>
    rw [fillRound_fails] at taken
    cases taken

/-! ### The invariant -/

/-- **So many bytes are written** from the start, of the total. -/
structure FilledTo (buf : Nat → UInt8) (start total : Int) (state : Filling) (done : Nat) :
    Prop where
  remaining : state.remainingBytes.toInt = total - done
  within : done ≤ total
  offset : state.fd.offset.toInt = start + done
  written : state.fd.file.written =
    (List.range done).map fun (i : Nat) => (start + i, buf (i % 2 ^ 26))
  size : state.fd.file.size.toInt = if done = 0 then 0 else start + done
  aligned : 2 ^ 26 ∣ done ∨ done = total

section Rounds

variable {buf : Nat → UInt8} {start total : Int} {state next : Filling} {done : Nat} {works : Bool}

theorem FilledTo.nonneg (filled : FilledTo buf start total state done) :
    0 ≤ state.remainingBytes.toInt := by
  have value := filled.remaining
  have most := filled.within
  omega

/-- What is written in a round goes on with the pattern. -/
theorem pattern_append {done chunk : Nat} (aligned : 2 ^ 26 ∣ done) (small : chunk ≤ 2 ^ 26) :
    ((List.range done).map fun (i : Nat) => (start + i, buf (i % 2 ^ 26))) ++
        ((List.range chunk).map fun (i : Nat) => (start + done + i, buf i)) =
      (List.range (done + chunk)).map fun (i : Nat) => (start + i, buf (i % 2 ^ 26)) := by
  rw [List.range_add, List.map_append, List.map_map]
  refine congrArg _ (List.map_congr_left fun i member => ?_)
  have inChunk := List.mem_range.mp member
  have again : (done + i) % 2 ^ 26 = i := by omega
  simp only [Function.comp_apply, again, Nat.cast_add, add_assoc]

/-- **A round writes the next chunk.** -/
theorem fillRound_keeps (inRange : 0 ≤ start) (fits : start + total < 2 ^ 63)
    (filled : FilledTo buf start total state done) (some : state.remainingBytes ≠ 0)
    (taken : fillRound buf true state = (true, next)) :
    ∃ chunk, 0 < chunk ∧ FilledTo buf start total next (done + chunk) := by
  have nonneg := filled.nonneg
  have value := filled.remaining
  have positive := chunkSize_pos some
  have chunk := toNat_chunkSize nonneg
  have unsigned := toNat_toUInt64 state.remainingBytes
  have aligned : 2 ^ 26 ∣ done := by
    rcases filled.aligned with aligned | complete
    · exact aligned
    · have zero : state.remainingBytes = 0 := Int64.toInt_inj.mp (by
        rw [value, complete, sub_self]
        rfl)
      exact absurd zero some
  rw [fillRound_works] at taken
  obtain ⟨_, rfl⟩ := Prod.mk.inj taken
  generalize chunkSize state.remainingBytes = nbytes at positive chunk ⊢
  have signed : nbytes.toInt64.toInt = nbytes.toNat := toInt_toInt64_of_lt (by omega)
  have offset : (state.fd.offset + nbytes.toInt64).toInt = start + (done + nbytes.toNat) := by
    rw [toInt_add, signed, filled.offset]
    omega
  refine ⟨nbytes.toNat, positive, ?_, ?_, ?_, ?_, ?_, ?_⟩
  · have left : (state.remainingBytes.toUInt64 - nbytes).toNat =
        state.remainingBytes.toUInt64.toNat - nbytes.toNat :=
      UInt64.toNat_sub_of_le _ _ (UInt64.le_iff_toNat_le.mpr (by omega))
    show (state.remainingBytes.toUInt64 - nbytes).toInt64.toInt = _
    rw [toInt_toInt64_of_lt (by omega), left]
    omega
  · omega
  · exact offset.trans (by omega)
  · show state.fd.file.written ++ _ = _
    rw [filled.written, filled.offset]
    exact pattern_append aligned (by omega)
  · have size := filled.size
    have grows : state.fd.file.size < state.fd.offset + nbytes.toInt64 := by
      rw [Int64.lt_iff_toInt_lt, offset]
      split_ifs at size <;> omega
    show (if state.fd.file.size < state.fd.offset + nbytes.toInt64 then
      state.fd.offset + nbytes.toInt64 else state.fd.file.size).toInt = _
    rw [if_pos grows, offset, if_neg (by omega), Nat.cast_add]
  · omega

end Rounds

/-! ### The loop -/

section Loop

variable {buf : Nat → UInt8} {start total : Int} {first state : Filling}

/-- **Each state of a run is filled to some point.** -/
theorem fillSystem_filled (inRange : 0 ≤ start) (fits : start + total < 2 ^ 63)
    {labels : List Bool} (filled : FilledTo buf start total first 0)
    (run : Run (fillSystem buf first) first labels state) :
    ∃ done, labels.length ≤ done ∧ FilledTo buf start total state done := by
  refine run.history (H := fun labels state =>
    ∃ done, labels.length ≤ done ∧ FilledTo buf start total state done)
    ⟨0, le_rfl, filled⟩ ?_
  rintro past before works next ⟨done, rounds, filled⟩ ⟨some, taken⟩
  rw [works_of_taken taken] at taken
  obtain ⟨chunk, positive, kept⟩ := fillRound_keeps inRange fits filled some taken
  refine ⟨done + chunk, ?_, kept⟩
  rw [List.length_append, List.length_singleton]
  omega

/-- **The loop is a run**, to a state where nothing remains if it succeeds. -/
theorem fillLoop_run (buf : Nat → UInt8) (first : Filling) (works : Nat → Bool) (n : Nat)
    (state : Filling) :
    ∃ labels, Run (fillSystem buf first) state labels (fillLoop buf works n state).2 ∧
      ((fillLoop buf works n state).1 = true →
        (fillLoop buf works n state).2.remainingBytes = 0) ∧
      (state.remainingBytes ≠ 0 → works n = true → labels ≠ []) := by
  fun_induction fillLoop buf works n state with
  | case1 n state none => exact ⟨[], .refl, fun _ => none, fun some => (some none).elim⟩
  | case2 n state some next taken =>
    cases outcome : works n with
    | true =>
      rw [outcome, fillRound_works] at taken
      cases taken
    | false =>
      rw [outcome, fillRound_fails] at taken
      obtain ⟨_, rfl⟩ := Prod.mk.inj taken
      exact ⟨[], .refl, nofun, nofun⟩
  | case3 n state some next taken ih =>
    obtain ⟨labels, run, ended, _⟩ := ih
    have step : (fillSystem buf first).step state (works n) next := ⟨some, taken⟩
    exact ⟨[works n] ++ labels, (Run.single step).trans run, ended, fun _ _ => by simp⟩

/-- A loop whose every `write` works succeeds. -/
theorem fillLoop_succeeds (buf : Nat → UInt8) {works : Nat → Bool} (all : ∀ n, works n = true)
    (n : Nat) (state : Filling) : (fillLoop buf works n state).1 = true := by
  fun_induction fillLoop buf works n state with
  | case1 n state none => rfl
  | case2 n state some next taken =>
    rw [all n, fillRound_works] at taken
    cases taken
  | case3 n state some next taken ih => exact ih

end Loop

/-! ### The layout of a target -/

section Target

variable {target : Target} {calls : SystemCalls}

/-- The byte at a distance from the base offset. -/
def Target.pattern (target : Target) (i : Nat) : UInt8 :=
  if target.zeroBuffers then 0 else UInt8.ofNat (i % 256)

/-- Where the first byte goes. -/
def Target.fillStart (target : Target) (calls : SystemCalls) : Int :=
  if calls.sought then target.baseOffset.toInt else 0

/-- The buffer repeats the pattern: its length is a multiple of the period. -/
theorem bufToUse_mod (target : Target) (i : Nat) :
    target.bufToUse (i % 2 ^ 26) = target.pattern i := by
  unfold Target.bufToUse Target.pattern
  cases target.zeroBuffers with
  | true => rfl
  | false =>
    show UInt8.ofNat (i % 2 ^ 26 &&& 2 ^ 8 - 1) = UInt8.ofNat (i % 2 ^ 8)
    rw [Nat.and_two_pow_sub_one_eq_mod, Nat.mod_mod_of_dvd i (by decide)]

/-- The bounds on a target that is laid out. -/
structure Target.Fillable (target : Target) : Prop where
  nonneg : 0 ≤ target.baseOffset.toInt
  below : target.baseOffset.toInt < target.maxSize.toInt

theorem Target.Fillable.remaining (fillable : target.Fillable) :
    (target.maxSize - target.baseOffset).toInt =
      target.maxSize.toInt - target.baseOffset.toInt := by
  have low := fillable.nonneg
  have less := fillable.below
  have high := (toInt_bounds target.maxSize).2
  rw [toInt_sub]
  omega

theorem startFilling_filled (fillable : target.Fillable) (calls : SystemCalls) :
    FilledTo target.bufToUse (target.fillStart calls)
      (target.maxSize.toInt - target.baseOffset.toInt) (target.startFilling calls) 0 := by
  have remaining := fillable.remaining
  have less := fillable.below
  unfold Target.startFilling Target.fillStart Descriptor.lseek
  cases calls.sought with
  | true =>
    exact ⟨by simpa using remaining, by omega, by simp, rfl, rfl, Or.inl ⟨0, rfl⟩⟩
  | false =>
    exact ⟨by simpa using remaining, by omega, by simp, rfl, rfl, Or.inl ⟨0, rfl⟩⟩

theorem fillStart_bounds (fillable : target.Fillable) (calls : SystemCalls) :
    0 ≤ target.fillStart calls ∧ target.fillStart calls + (target.maxSize.toInt - target.baseOffset.toInt) < 2 ^ 63 := by
  have low := fillable.nonneg
  have high := (toInt_bounds target.maxSize).2
  unfold Target.fillStart
  split_ifs <;> omega

theorem startFilling_some (fillable : target.Fillable) (calls : SystemCalls) :
    (target.startFilling calls).remainingBytes ≠ 0 := by
  intro none
  have nothing := (startFilling_filled fillable calls).remaining
  have less := fillable.below
  rw [none, Int64.toInt_zero] at nothing
  omega

/-- Where the first `write` fails, the layout does. -/
theorem layOut_fails (fillable : target.Fillable) (fails : calls.written 0 = false) :
    target.layOut calls = (false, target.startFilling calls) := by
  rw [Target.layOut, fillLoop, if_neg (startFilling_some fillable calls)]
  split
  · rename_i next taken
    rw [fails, fillRound_fails] at taken
    exact taken.symm
  · rename_i next taken
    rw [fails, fillRound_fails] at taken
    cases taken

theorem fillStart_eq (started : calls.sought = true ∨ target.baseOffset = 0) :
    target.fillStart calls = target.baseOffset.toInt := by
  unfold Target.fillStart
  rcases started with sought | zero
  · rw [if_pos sought]
  · rw [zero, Int64.toInt_zero, ite_self]

/-- **A layout ends filled to some point**, and to the end if it succeeds. -/
theorem layOut_filled (fillable : target.Fillable) (calls : SystemCalls) :
    ∃ last, FilledTo target.bufToUse (target.fillStart calls)
        (target.maxSize.toInt - target.baseOffset.toInt) (target.layOut calls).2 last ∧
      ((target.layOut calls).1 = true →
        (last : Int) = target.maxSize.toInt - target.baseOffset.toInt) ∧
      (calls.written 0 = true → 0 < last) := by
  obtain ⟨inRange, fits⟩ := fillStart_bounds fillable calls
  obtain ⟨labels, run, ended, moved⟩ := fillLoop_run target.bufToUse
    (target.startFilling calls) calls.written 0 (target.startFilling calls)
  have begun := startFilling_filled fillable calls
  obtain ⟨last, rounds, filled⟩ := fillSystem_filled inRange fits begun run
  refine ⟨last, filled, fun succeeds => ?_, fun works => ?_⟩
  · have nothing := filled.remaining
    rw [ended succeeds, Int64.toInt_zero] at nothing
    omega
  · have rounded : 0 < labels.length :=
      List.length_pos_iff.mpr (moved (startFilling_some fillable calls) works)
    omega

/-- **What a layout writes**: the pattern, from where it starts, and all of it if it succeeds. -/
theorem layOut_written (fillable : target.Fillable) (calls : SystemCalls) :
    ∃ last : Nat, (target.layOut calls).2.fd.file.written =
        (List.range last).map (fun (i : Nat) =>
          (target.fillStart calls + i, target.pattern i)) ∧
      ((target.layOut calls).1 = true →
        (last : Int) = target.maxSize.toInt - target.baseOffset.toInt) ∧
      (calls.written 0 = true → 0 < last) := by
  obtain ⟨last, filled, whole, moved⟩ := layOut_filled fillable calls
  refine ⟨last, ?_, whole, moved⟩
  rw [filled.written]
  exact List.map_congr_left fun i _ => by rw [bufToUse_mod]

/-- Without the seek the first `write` is at the start of the file. -/
theorem unsought_writes_start (fillable : target.Fillable) (unsought : calls.sought = false)
    (works : calls.written 0 = true) :
    (0, target.pattern 0) ∈ (target.layOut calls).2.fd.file.written := by
  obtain ⟨last, written, _, moved⟩ := layOut_written fillable calls
  have start : target.fillStart calls = 0 := by
    rw [Target.fillStart, unsought, if_neg Bool.false_ne_true]
  rw [written, start]
  exact List.mem_map.mpr ⟨0, List.mem_range.mpr (moved works), rfl⟩

end Target

/-- **What a layout should do**: what remains is never negative and the loop ends; if it succeeds, each
byte from the base offset to the maximum size is written once, in the pattern; and none below. -/
structure LayoutRight (target : Target) (calls : SystemCalls) : Prop where
  remaining : ∀ labels state,
    Run (fillSystem target.bufToUse (target.startFilling calls)) (target.startFilling calls)
      labels state → 0 ≤ state.remainingBytes.toInt
  terminates : ∀ labels state,
    Run (fillSystem target.bufToUse (target.startFilling calls)) (target.startFilling calls)
      labels state → (labels.length : Int) ≤ target.maxSize.toInt - target.baseOffset.toInt
  written : (target.layOut calls).1 = true → (target.layOut calls).2.fd.file.written =
    (List.range (target.maxSize.toInt - target.baseOffset.toInt).toNat).map fun (i : Nat) =>
      (target.baseOffset.toInt + i, target.pattern i)
  notBelow : ∀ entry ∈ (target.layOut calls).2.fd.file.written,
    target.baseOffset.toInt ≤ entry.1

/-- **A layout does what it should** unless the seek fails, away from the start of the file, and the
first `write` works. -/
theorem layout_iff {target : Target} (fillable : target.Fillable) (calls : SystemCalls) :
    LayoutRight target calls ↔
      (calls.sought = true ∨ target.baseOffset = 0 ∨ calls.written 0 = false) := by
  constructor
  · intro right
    by_contra wrong
    simp only [not_or, Bool.not_eq_true, Bool.not_eq_false] at wrong
    obtain ⟨unsought, notStart, works⟩ := wrong
    have base : target.baseOffset.toInt ≠ 0 := fun zero => notStart (Int64.toInt_inj.mp zero)
    have low := right.notBelow _ (unsought_writes_start fillable unsought works)
    have nonneg := fillable.nonneg
    dsimp only at low
    omega
  · intro condition
    obtain ⟨last, written, whole, _⟩ := layOut_written fillable calls
    obtain ⟨inRange, fits⟩ := fillStart_bounds fillable calls
    have begun := startFilling_filled fillable calls
    have least := fillable.below
    refine ⟨fun labels state run => ?_, fun labels state run => ?_, ?_, ?_⟩
    · obtain ⟨_, _, reached⟩ := fillSystem_filled inRange fits begun run
      exact reached.nonneg
    · obtain ⟨done, rounds, reached⟩ := fillSystem_filled inRange fits begun run
      have most := reached.within
      omega
    · intro succeeds
      have started : calls.sought = true ∨ target.baseOffset = 0 := by
        rcases condition with sought | zero | fails
        · exact Or.inl sought
        · exact Or.inr zero
        · rw [layOut_fails fillable fails] at succeeds
          cases succeeds
      rw [written, ← whole succeeds, Int.toNat_natCast, fillStart_eq started]
    · intro entry member
      rcases or_assoc.mpr condition with started | fails
      · rw [written, fillStart_eq started] at member
        obtain ⟨i, _, rfl⟩ := List.mem_map.mp member
        exact Int.le_add_of_nonneg_right (Int.natCast_nonneg i)
      · rw [layOut_fails fillable fails] at member
        have nothing := begun.written
        rw [nothing] at member
        cases member

/-- `-B64K -f128K` -/
def offsetTarget : Target where
  path := ['a']
  createFile := true
  baseOffset := 65536
  maxSize := 131072

/-- Every call works. -/
def allWork : SystemCalls := ⟨true, true, true, fun _ => true⟩

theorem offsetTarget_fillable : offsetTarget.Fillable := ⟨by decide, by decide⟩

theorem offsetTarget_right : LayoutRight offsetTarget allWork :=
  (layout_iff offsetTarget_fillable allWork).mpr (Or.inl rfl)

/-- **A failed seek**: the first byte is written at 0, below the base offset. -/
theorem offsetTarget_not_right : ¬ LayoutRight offsetTarget { allWork with sought := false } := by
  intro right
  have low := right.notBelow _ (unsought_writes_start offsetTarget_fillable rfl rfl)
  exact absurd low (by decide)

end DiskSpd
