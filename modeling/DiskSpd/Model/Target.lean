/-
**Targets and their offsets** (`target.h`, `rng_engine.h`).

* `Target` — the options of one file or device; the defaults are the source's.
* `getThreadBaseOffset`, `correctOverflow`, `randomOffset`, `getStartOffset`, `getNextOffset` —
  the offset functions of `TargetData`, in the source's 64-bit mixed signed and unsigned
  arithmetic. A sum of an `off_t` and a `size_t`, and its comparison with an `off_t`, are unsigned.
* `getRandOffset` — `RngEngine::get_rand_offset`, over any `std::uniform_int_distribution<int>`.

The functions that read or write shared state take it and return it: `OffsetState` holds the
target's `interlocked_offset` and the thread's random engine. `none` is a division by zero.
-/

import DiskSpd.Lib.MachineWord

namespace DiskSpd

/-- The flags of `open_flags` that are ever added to `O_RDWR`. -/
structure OpenFlags where
  direct : Bool := false  -- O_DIRECT
  sync : Bool := false    -- O_SYNC
  deriving DecidableEq, Repr

/-- A file or device to read or write. -/
structure Target where
  path : List Char
  size : Int64 := 0
  sectorSize : UInt64 := 512
  createFile : Bool := false              -- -c
  blockSize : UInt64 := 64 * 1024         -- -b
  baseOffset : Int64 := 0                 -- -B
  maxSize : Int64 := 0                    -- -f
  overlap : UInt32 := 2                   -- -o
  threadOffset : Int64 := 0               -- -T
  stride : Int64 := 64 * 1024             -- -s, also the random alignment
  openFlags : OpenFlags := {}             -- -S
  useRandomAlignment : Bool := false      -- -r
  useInterlocked : Bool := false          -- -si
  writePercentage : UInt32 := 0           -- -w
  threadsPerTarget : UInt32 := 1          -- -t
  zeroBuffers : Bool := false             -- -Zz
  randBuffers : Bool := false             -- -Zr
  separateBuffers : Bool := false         -- -Zs
  maxThroughput : Int64 := 0              -- -g
  interlockedOffset : Int64 := 0          -- the initial value of the shared offset
  deriving DecidableEq, Repr

/-! ### The random engine -/

/-- One draw of a `std::uniform_int_distribution<int>(a, b)` from an engine: the value and the
engine's next state. -/
abbrev UniformInt (Engine : Type) := Int32 → Int32 → Engine → Int32 × Engine

section Offsets

variable {Engine : Type} (dist : UniformInt Engine)

/-- `std::uniform_int_distribution<> dist(0, size-1); return dist(engine64);` -/
def getRandOffset (size : Int64) (engine : Engine) : Int64 × Engine :=
  let (value, next) := dist 0 (size - 1).toInt32 engine
  (value.toInt64, next)

/-- What the offset functions read and write besides the target's options. -/
structure OffsetState (Engine : Type) where
  interlockedOffset : Int64
  rngEngine : Engine

namespace Target

variable (target : Target) (relThreadId : UInt32)

def getThreadBaseOffset : Int64 :=
  target.baseOffset + relThreadId.toUInt64.toInt64 * target.threadOffset

/-- The test of `correct_overflow`: the operation at this offset would pass `max_size`. -/
def overflows (currOffset : Int64) : Bool :=
  target.maxSize.toUInt64 < currOffset.toUInt64 + target.blockSize

/-- If an iop would overflow `max_size`, correct it to the base offset of the thread. -/
def correctOverflow (currOffset : Int64) : Int64 :=
  if target.overflows currOffset then target.getThreadBaseOffset relThreadId else currOffset

/-- The number of slots `random_offset` draws from. -/
def randomRange : Int64 :=
  let interval := ((target.maxSize - target.baseOffset).toUInt64 - target.blockSize).toInt64
  let interval := interval - interval % target.stride
  interval / target.stride + 1

def randomOffset (engine : Engine) : Option (Int64 × Engine) :=
  if target.stride = 0 then none
  else
    let (rnd, next) := getRandOffset dist target.randomRange engine
    some (target.baseOffset + rnd * target.stride, next)

/-- The offset after `curr_offset` in the mode of the target: random, interlocked or strided. -/
def getNextOffset (state : OffsetState Engine) (currOffset : Int64) :
    Option (Int64 × OffsetState Engine) :=
  if target.useRandomAlignment then
    (target.randomOffset dist state.rngEngine).map fun (offset, next) =>
      (offset, { state with rngEngine := next })
  else if target.useInterlocked then
    -- ignore curr_offset; the section under interlocked_mutex
    let offset := target.correctOverflow relThreadId (state.interlockedOffset + target.stride)
    some (offset, { state with interlockedOffset := offset })
  else
    some (target.correctOverflow relThreadId (currOffset + target.stride), state)

def getStartOffset (state : OffsetState Engine) : Option (Int64 × OffsetState Engine) :=
  if target.useRandomAlignment then
    (target.randomOffset dist state.rngEngine).map fun (offset, next) =>
      (offset, { state with rngEngine := next })
  else if target.useInterlocked then
    target.getNextOffset dist relThreadId state 0
  else
    some (target.getThreadBaseOffset relThreadId, state)

end Target

end Offsets

end DiskSpd
