/-
**The CPU usage of a job** (`sys_info.cc`, `job.cc`, `result_formatter.cc`).

* `CpuMap` — a `std::map<unsigned int, T>`.
* `StatLine`, `getCpuStats` — one reading of `/proc/stat`: a line for each online CPU, in their order.
* `cpuUsagePercentages` — the shares of the time between two readings.
* `cpuTable` — the CPU table of the output, up to the formatting of its numbers.

A `double` is a rational number, neither rounded nor formatted, and `none` stands for values that are not
finite. What `sscanf` finds in a line is a parameter.
-/

import DiskSpd.Model.SysInfo
import Mathlib.Data.Rat.Defs
import Mathlib.Logic.Function.Basic

namespace DiskSpd

/-- The keys in their order, and the value of each. -/
structure CpuMap (T : Type) where
  cpus : CpuSet := .empty
  value : UInt32 → T

namespace CpuMap

variable {T : Type}

def empty [Inhabited T] : CpuMap T where
  value := fun _ => default

def set (map : CpuMap T) (cpu : UInt32) (value : T) : CpuMap T where
  cpus := map.cpus.insert cpu
  value := Function.update map.value cpu value

end CpuMap

/-! ### A reading -/

/-- The times of a CPU in its states, in the order of the line. -/
structure CpuTimes where
  user : ℚ := 0
  nice : ℚ := 0
  kernel : ℚ := 0
  idle : ℚ := 0
  iowait : ℚ := 0
  deriving DecidableEq, Inhabited

/-- What `sscanf` finds in a line: the number of fields, and their values. -/
structure StatLine where
  found : Int32
  actualCpu : UInt32
  temp : CpuTimes

structure CpuUsage where
  nonidle : ℚ
  user : ℚ
  kernel : ℚ
  iowait : ℚ
  idle : ℚ
  deriving DecidableEq

def CpuTimes.totalTime (init final : CpuTimes) : ℚ :=
  (final.user + final.nice + final.kernel + final.idle + final.iowait) -
    (init.user + init.nice + init.kernel + init.idle + init.iowait)

/-- The shares of a CPU. -/
def CpuTimes.usage (init final : CpuTimes) : Option CpuUsage :=
  let totalTime := init.totalTime final
  -- total usage not including iowait or idle time
  let nonidle := (final.user + final.nice + final.kernel) - (init.user + init.nice + init.kernel)
  let user := (final.user + final.nice) - (init.user + init.nice)
  let kernel := final.kernel - init.kernel
  let iowait := final.iowait - init.iowait
  let idle := final.idle - init.idle
  if totalTime = 0 then none
  else some {
    nonidle := nonidle / totalTime, user := user / totalTime, kernel := kernel / totalTime,
    iowait := iowait / totalTime, idle := idle / totalTime }

namespace CpuUsage

def zero : CpuUsage := ⟨0, 0, 0, 0, 0⟩

def map (f : ℚ → ℚ) (u : CpuUsage) : CpuUsage :=
  ⟨f u.nonidle, f u.user, f u.kernel, f u.iowait, f u.idle⟩

def add (u v : CpuUsage) : CpuUsage :=
  ⟨u.nonidle + v.nonidle, u.user + v.user, u.kernel + v.kernel, u.iowait + v.iowait, u.idle + v.idle⟩

/-- `cpu_usage_totals` after one row. -/
def addRow (totals row : Option CpuUsage) : Option CpuUsage := do
  return (← totals).add (← row)

end CpuUsage

structure CpuTable where
  rows : List (UInt32 × Option CpuUsage)
  avg : Option CpuUsage

end DiskSpd
