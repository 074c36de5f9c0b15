/-
**The buffers of a thread** (`TargetBuffer` of `target.h`, the set-up of `thread_func`).

* `TargetBuffer.calloc` — a buffer whose base is aligned up in the memory that `std::calloc` returns.
  `none` is a failed assertion.
* `Target.allocate` — the buffers of a thread for one target: one slot of a block for each overlap,
  and with `-Zs` one block for all writes.
* `ThreadParams.Allocates` — the thread's operations get the addresses of its buffers.
* `ThreadParams.totalOverlap` — the number of operations it makes its group for.
* `ThreadParams.setUpEngine` — the random engine after it has filled the buffers with `-Zr`.
* `JobOptions.withSectors` — the job on devices of any sector sizes.
-/

import DiskSpd.Model.Job

namespace DiskSpd

/-- A buffer and where it is; a null pointer is 0. -/
structure TargetBuffer where
  unaligned : UInt64 := 0  -- pointer to real base of buffer
  ptr : UInt64 := 0        -- pointer to aligned base of buffer
  sz : UInt64 := 0         -- size of aligned buffer
  align : UInt64 := 1
  deriving DecidableEq, Repr

namespace TargetBuffer

/-- The size it asks `std::calloc` for, enough to produce an aligned buffer. -/
def requested (buffer : TargetBuffer) : UInt64 :=
  buffer.sz + buffer.align - 1

/-- `new_buffer`, where `std::calloc` returns `memory`. -/
def newBuffer (memory : UInt64) (buffer : TargetBuffer) : Option TargetBuffer :=
  -- don't allocate a buffer if no size
  if buffer.sz = 0 then some buffer
  else if buffer.align = 0 || (buffer.align != 1 && buffer.align &&& (buffer.align - 1) != 0) then
    none
  else if memory = 0 then none
  else some { buffer with
    unaligned := memory
    ptr := (memory + buffer.align - 1) &&& ~~~(buffer.align - 1) }

def calloc (memory size align : UInt64) : Option TargetBuffer :=
  newBuffer memory { sz := size, align := align }

end TargetBuffer

/-- `open_flags & O_DIRECT ? sector_size : 1` -/
def Target.bufferAlign (target : Target) : UInt64 :=
  if target.openFlags.direct then target.sectorSize else 1

/-- What `std::calloc` returns for the two buffers of a target. -/
structure Memory where
  buffer : UInt64
  writeBuffer : UInt64

/-- The two buffers; without `-Zs` the second one stays empty. -/
structure TargetBuffers where
  buffer : TargetBuffer
  writeBuffer : TargetBuffer
  deriving DecidableEq, Repr

def Target.allocateWriteBuffer (target : Target) (memory : UInt64) : Option TargetBuffer :=
  if target.separateBuffers then
    TargetBuffer.calloc memory target.blockSize target.bufferAlign
  else some {}

def Target.allocate (target : Target) (memory : Memory) : Option TargetBuffers := do
  let buffer ← TargetBuffer.calloc memory.buffer (target.overlap.toUInt64 * target.blockSize)
    target.bufferAlign
  let writeBuffer ← target.allocateWriteBuffer memory.writeBuffer
  some { buffer, writeBuffer }

/-- The thread gets buffers for each of its targets, at the addresses in its data. -/
def ThreadParams.Allocates (th : ThreadParams) (memory : Nat → Memory)
    (buffers : Nat → TargetBuffers) : Prop :=
  ∀ (t : Nat) (tData : TargetData), th.targets[t]? = some tData →
    tData.target.allocate (memory t) = some (buffers t) ∧
      tData.buffer = (buffers t).buffer.ptr ∧ tData.writeBuffer = (buffers t).writeBuffer.ptr

/-- The `total_overlap` that `create_group` gets. -/
def ThreadParams.totalOverlap (th : ThreadParams) : UInt64 :=
  th.targets.foldl (fun totalOverlap tData => totalOverlap + tData.target.overlap.toUInt64) 0

/-! ### The random engine -/

section Engine

variable {Engine : Type} (dist : UniformInt Engine)

/-- `fill_rand`: one number for each byte of the buffer. -/
def fillRand (sz : UInt64) (rngEngine : Engine) : Engine :=
  Nat.iterate (fun rngEngine => (getRandOffset dist 256 rngEngine).2) sz.toNat rngEngine

/-- The filling of the buffers of a target. -/
def Target.fillBuffers (target : Target) (rngEngine : Engine) : Engine :=
  if target.randBuffers then
    let rngEngine := fillRand dist (target.overlap.toUInt64 * target.blockSize) rngEngine
    if target.separateBuffers then fillRand dist target.blockSize rngEngine else rngEngine
  else rngEngine

/-- The thread's random engine once all buffers are filled, from the one it made. -/
def ThreadParams.setUpEngine (th : ThreadParams) (rngEngine : Engine) : Engine :=
  th.targets.foldl (fun rngEngine tData => tData.target.fillBuffers dist rngEngine) rngEngine

/-- **A start of the job's threads** with the seed of the job: without a plain `-z` each thread makes
its engine from `rand_seed`. -/
def JobOptions.Starts (job : JobOptions) (seeded : UInt64 → Engine) (params : List ThreadParams)
    (state : JobState job.ioManager.Op Engine) : Prop :=
  (job.system dist params).init state ∧
    (job.useTimeSeed = false → ∀ (n : Nat) (th : ThreadParams), params[n]? = some th →
      (state.threads n).rngEngine = th.setUpEngine dist (seeded job.randSeed))

end Engine

/-- The job with other sector sizes for its targets. `run_job` would ask each device for its own,
but that call is commented out, and each target keeps the default. -/
def JobOptions.withSectors (job : JobOptions) (sectors : Nat → UInt64) : JobOptions :=
  { job with
    targets := job.targets.mapIdx fun k target => { target with sectorSize := sectors k } }

end DiskSpd
