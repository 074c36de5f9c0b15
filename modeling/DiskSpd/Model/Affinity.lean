/-
**The binding of the threads to CPUs** (`Job::run_job` where it starts them).

* `CpuMask` — a `cpu_set_t` from `CPU_ALLOC`, with the `_S` macros of the C library: `CPU_SET_S`
  does nothing for a CPU beyond the set's size.
* `startThread` — a round of the loop: the thread is created and bound to the CPU at the iterator,
  which goes round.
* `startThreads` — the loop, until a call fails. How the calls end is a parameter.
-/

import DiskSpd.Model.SysInfo

namespace DiskSpd

/-- A set of CPUs: its size in bytes, and the CPUs whose bits are set. -/
structure CpuMask where
  size : UInt64
  cpus : List UInt32 := []
  deriving DecidableEq, Repr

/-- `CPU_ALLOC_SIZE(count)`: whole words of 64 bits. -/
def cpuAllocSize (count : UInt32) : UInt64 := (count.toUInt64 + 64 - 1) / 64 * 8

namespace CpuMask

/-- `CPU_ZERO_S(setsize, cpusetp)` -/
def zero (mask : CpuMask) : CpuMask := { mask with cpus := [] }

/-- `CPU_SET_S(cpu, setsize, cpusetp)` -/
def set (cpu : UInt32) (mask : CpuMask) : CpuMask :=
  if cpu.toUInt64 / 8 < mask.size then { mask with cpus := cpu :: mask.cpus } else mask

end CpuMask

/-- How the calls for a thread end. -/
structure StartCalls where
  created : Bool
  affinitized : Bool

/-- A call of `pthread_setaffinity_np`: the CPU that was selected, and the set handed over. -/
structure Binding where
  cpu : UInt32
  mask : CpuMask
  deriving DecidableEq, Repr

structure Starting where
  cpuSet : CpuMask
  cpuit : Nat := 0    -- the place of the iterator in the set; its size is the end
  bindings : List Binding := []

namespace SysInfo

variable (info : SysInfo) (disableAffinity : Bool)

/-- The set, the iterator at the beginning, and no thread yet. -/
def starting : Starting where
  cpuSet := { size := cpuAllocSize (info.cpuhi + 1) }

/-- A round of the loop, and what ends it. -/
def startThread (calls : StartCalls) (state : Starting) : Option Stop × Starting :=
  if !calls.created then (some (.failure (.rejected "Couldn't create pthread")), state)
  else if disableAffinity then (none, state)
  else
    match info.affinityCpus.toList[state.cpuit]? with
    | none => (some (.undefined "*cpuit"), state)
    | some cpu =>
      -- set the bit corresponding to the next cpu to affinitize to
      let cpuSet := state.cpuSet.zero.set cpu
      let bindings := state.bindings ++ [{ cpu, mask := cpuSet }]
      if !calls.affinitized then
        (some (.failure (.rejected "Couldn't affinitize pthread")), { state with cpuSet, bindings })
      else
        -- affinitize round-robin by default; so loop back to the start
        let cpuit := state.cpuit + 1
        (none, { cpuSet, bindings, cpuit := if cpuit = info.affinityCpus.size then 0 else cpuit })

/-- The loop over the threads. -/
def startThreads : List StartCalls → Starting → Option Stop × Starting
  | [], state => (none, state)
  | calls :: rest, state =>
    match info.startThread disableAffinity calls state with
    | (some stop, state) => (some stop, state)
    | (none, state) => startThreads rest state

end SysInfo

end DiskSpd
