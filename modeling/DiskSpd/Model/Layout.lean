/-
**The layout of the target files** (`Job::run_job` up to the threads).

* `File`, `Descriptor` — a file as it is written, and an open one with its offset. `lseek` and
  `write` do all that is asked of them or fail without effect.
* `fillRound`, `fillLoop` — the loop that writes the fill buffer until nothing remains, in the
  source's mixed signed and unsigned arithmetic.
* `Target.layOut` — the seek and the loop; `setUpFile` — the checks on a target, and its layout when
  its file is to be created; `setUpFiles` — all targets.

A file system is what `stat` says about each path. How the calls of a layout end is a parameter.
-/

import DiskSpd.Model.Profile

namespace DiskSpd

open MachineWord

/-! ### Files -/

/-- A file created empty: its size, and each byte written since with its offset, in order. -/
structure File where
  size : Int64 := 0
  written : List (Int × UInt8) := []

/-- An open file and its offset. -/
structure Descriptor where
  file : File := {}
  offset : Int64 := 0

/-- `lseek(fd, offset, SEEK_SET)` -/
def Descriptor.lseek (fd : Descriptor) (offset : Int64) (works : Bool) : Int64 × Descriptor :=
  if works then (offset, { fd with offset }) else (-1, fd)

/-- The first bytes of a buffer, written at an offset. -/
def File.put (file : File) (offset : Int64) (buf : Nat → UInt8) (nbytes : UInt64) : File where
  size := if file.size < offset + nbytes.toInt64 then offset + nbytes.toInt64 else file.size
  written := file.written ++ (List.range nbytes.toNat).map fun i => (offset.toInt + (i : Nat), buf i)

/-- `write(fd, buf, nbytes)` -/
def Descriptor.write (fd : Descriptor) (buf : Nat → UInt8) (nbytes : UInt64) (works : Bool) :
    Int64 × Descriptor :=
  if works then
    (nbytes.toInt64, { file := fd.file.put fd.offset buf nbytes
                       offset := fd.offset + nbytes.toInt64 })
  else (-1, fd)

/-! ### The fill loop -/

def fillBufSize : UInt64 := 64 * 1024 * 1024

/-- `fill_buf[i] = (char)(i&0xFF)` -/
def fillBuf (i : Nat) : UInt8 := UInt8.ofNat (i &&& 0xFF)

def zeroBuf (_ : Nat) : UInt8 := 0

/-- Ascending bytes or zeros. -/
def Target.bufToUse (target : Target) : Nat → UInt8 :=
  if target.zeroBuffers then zeroBuf else fillBuf

/-- The state of the loop at its head. -/
structure Filling where
  fd : Descriptor
  remainingBytes : Int64

/-- How much to write in a round. -/
def chunkSize (remainingBytes : Int64) : UInt64 :=
  if fillBufSize < remainingBytes.toUInt64 then fillBufSize else remainingBytes.toUInt64

/-- One round of the loop, and whether its `write` returned what was asked. -/
def fillRound (buf : Nat → UInt8) (works : Bool) (state : Filling) : Bool × Filling :=
  let nbytes := chunkSize state.remainingBytes
  let (wresult, fd) := state.fd.write buf nbytes works
  if wresult.toUInt64 != nbytes then (false, { state with fd })
  else (true, { fd, remainingBytes := (state.remainingBytes.toUInt64 - nbytes).toInt64 })

theorem chunkSize_le (remainingBytes : Int64) :
    (chunkSize remainingBytes).toNat ≤ remainingBytes.toUInt64.toNat := by
  unfold chunkSize
  split_ifs with less
  · exact Nat.le_of_lt (UInt64.lt_iff_toNat_lt.mp less)
  · exact le_rfl

theorem chunkSize_pos {remainingBytes : Int64} (some : remainingBytes ≠ 0) :
    0 < (chunkSize remainingBytes).toNat := by
  unfold chunkSize
  split_ifs
  · decide
  · rw [Nat.pos_iff_ne_zero]
    intro none
    have zero : remainingBytes.toUInt64 = 0 := UInt64.toNat_inj.mp none
    exact some ((toInt64_eq_zero remainingBytes.toUInt64).mpr zero)

/-- What remains, as an unsigned number, gets less with each round. -/
theorem fillRound_decreases {buf : Nat → UInt8} {works : Bool} {state next : Filling}
    (some : state.remainingBytes ≠ 0) (taken : fillRound buf works state = (true, next)) :
    next.remainingBytes.toUInt64.toNat < state.remainingBytes.toUInt64.toNat := by
  have left : next.remainingBytes =
      (state.remainingBytes.toUInt64 - chunkSize state.remainingBytes).toInt64 := by
    unfold fillRound at taken
    dsimp only at taken
    split at taken
    · cases taken
    · exact congrArg Filling.remainingBytes (Prod.mk.inj taken).2.symm
  have least := chunkSize_pos some
  have most := chunkSize_le state.remainingBytes
  have unsigned : next.remainingBytes.toUInt64 =
      state.remainingBytes.toUInt64 - chunkSize state.remainingBytes := by
    rw [left]
    rfl
  rw [unsigned, UInt64.toNat_sub_of_le _ _ (UInt64.le_iff_toNat_le.mpr most)]
  omega

/-- The loop; its `n`th `write` works if `works n`. -/
def fillLoop (buf : Nat → UInt8) (works : Nat → Bool) (n : Nat) (state : Filling) :
    Bool × Filling :=
  if state.remainingBytes = 0 then (true, state)
  else
    match _taken : fillRound buf (works n) state with
    | (false, next) => (false, next)
    | (true, next) => fillLoop buf works (n + 1) next
termination_by state.remainingBytes.toUInt64.toNat
decreasing_by exact fillRound_decreases ‹_› ‹_›

/-! ### One target -/

/-- How the calls for one target end. -/
structure SystemCalls where
  /-- `remove` succeeds, or finds no file. -/
  removed : Bool
  opened : Bool
  sought : Bool
  written : Nat → Bool

/-- The state before the loop. A failed `lseek` prints a message, and the layout goes on. -/
def Target.startFilling (target : Target) (calls : SystemCalls) : Filling :=
  let (_, fd) := Descriptor.lseek {} target.baseOffset calls.sought
  { fd, remainingBytes := target.maxSize - target.baseOffset }

/-- The layout of a file just created: whether it succeeds, and its last state. -/
def Target.layOut (target : Target) (calls : SystemCalls) : Bool × Filling :=
  fillLoop target.bufToUse calls.written 0 (target.startFilling calls)

/-- The file of a target is removed, created and laid out. -/
def createTarget (target : Target) (calls : SystemCalls) (stat : CString → Stat) :
    Except Failure (CString → Stat) := do
  rejectIf (!calls.removed) ("Failed to remove old file " ++ String.ofList target.path ++ "\n")
  rejectIf (!calls.opened) ("Failed to open file " ++ String.ofList target.path ++ "\n")
  rejectIf (!(target.layOut calls).1)
    ("Failed to setup file " ++ String.ofList target.path ++ "\n")
  .ok (Function.update stat target.path (.file (target.layOut calls).2.fd.file.size))

def setUpFile (job : JobOptions) (target : Target) (calls : SystemCalls) (stat : CString → Stat) :
    Except Failure (CString → Stat) := do
  target.checkSetUp (job.noThreads target)
  if target.createFile then createTarget target calls stat else .ok stat

/-- The set-up of the targets of a job, each with how its calls end. -/
def setUpFiles (job : JobOptions) :
    List (Target × SystemCalls) → (CString → Stat) → Except Failure (CString → Stat)
  | [], stat => .ok stat
  | (target, calls) :: rest, stat => do
    let next ← setUpFile job target calls stat
    setUpFiles job rest next

end DiskSpd
