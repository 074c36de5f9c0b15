/-
**The CPUs that the threads are bound to.**

* `initSysInfo_ok` — the sets that the set-up leaves.
* `Usable` — a set of CPUs in the range of the online ones, and not empty; then
  `startThread_right` — a round binds its thread to the next CPU, and `startThreads_right` — all
  rounds.
* `AffinityRight` — what the program relies on: the CPUs are online ones, the loop over the threads
  never dereferences an iterator at the end, and the threads are bound to the CPUs in turn.
* `affinity_iff` — this holds exactly if the argument of `-a` names a CPU, and only online ones.
-/

import DiskSpd.Model.Affinity
import DiskSpd.Proof.Accepted
import DiskSpd.Proof.CpuList

namespace DiskSpd

open SortedSet

/-! ### The sets -/

/-- No CPU has the id that stands for an error. -/
theorem strToCpuSetLoop_ne {s ptr : CString} {ret set : CpuSet}
    (done : strToCpuSetLoop s ptr ret = .ok set) (valid : (0xFFFFFFFF : UInt32) ∉ ret) :
    (0xFFFFFFFF : UInt32) ∉ set := by
  -- a range ends below it
  have inserted_ne : ∀ {ptr endptr : CString} {curr next : UInt32} {ret set : CpuSet},
      readField s ptr = .ok (some (curr, next, endptr)) →
      insertRange next curr.toInt32 ret = .ok set → (0xFFFFFFFF : UInt32) ∉ ret →
      (0xFFFFFFFF : UInt32) ∉ set := by
    intro ptr endptr curr next ret set read inserted valid member
    rcases (insertRange_mem (next_ne read) inserted _).mp member with before | ⟨_, below⟩
    · exact valid before
    · have next_ne := next_ne read
      have bounded := next.toNat_lt
      rw [UInt32.le_iff_toNat_le] at below
      have largest : (0xFFFFFFFF : UInt32).toNat = 2 ^ 32 - 1 := rfl
      exact next_ne (UInt32.toNat_inj.mp (by omega))
  fun_induction strToCpuSetLoop s ptr ret with
  | case1 ptr ret stop read => cases done
  | case2 ptr ret read =>
    cases done
    exact valid
  | case3 ptr ret curr next endptr read stop failed => cases done
  | case4 ptr ret curr next endptr read ret' inserted noComma =>
    cases done
    exact inserted_ne read inserted valid
  | case5 ptr ret curr next endptr read ret' inserted comma ih =>
    exact ih done (inserted_ne read inserted valid)

/-- **The set-up**: the CPUs of the two strings, and the highest of the online ones. -/
theorem initSysInfo_ok {line s : CString} {info : SysInfo}
    (returns : initSysInfo (some line) (some s) = .ok info) :
    strToCpuSet (some line) = .ok info.onlineCpus ∧ strToCpuSet (some s) = .ok info.affinityCpus ∧
      info.onlineCpus.toList.getLast? = some info.cpuhi := by
  unfold initSysInfo at returns
  dsimp only at returns
  obtain ⟨onlineCpus, online, returns⟩ := bind_ok.mp returns
  split at returns
  · obtain ⟨affinityCpus, affinity, returns⟩ := bind_ok.mp returns
    cases returns
    exact ⟨online, affinity, ‹_›⟩
  · cases returns

/-- The set-up returns when both strings are parsed and a CPU is online. -/
theorem initSysInfo_returns {line s : CString} {onlineCpus affinityCpus : CpuSet} {cpu : UInt32}
    (online : strToCpuSet (some line) = .ok onlineCpus) (member : cpu ∈ onlineCpus)
    (affinity : strToCpuSet (some s) = .ok affinityCpus) :
    ∃ info, initSysInfo (some line) (some s) = .ok info ∧ info.affinityCpus = affinityCpus := by
  have nonempty : onlineCpus.toList ≠ [] := List.ne_nil_of_mem member
  refine ⟨⟨onlineCpus.toList.head nonempty, onlineCpus.toList.getLast nonempty, onlineCpus,
    affinityCpus⟩, bind_ok.mpr ⟨onlineCpus, online, ?_⟩, rfl⟩
  rw [List.head?_eq_some_head nonempty, List.getLast?_eq_some_getLast nonempty]
  exact bind_ok.mpr ⟨affinityCpus, affinity, rfl⟩

/-! ### The loop over the threads -/

/-- A binding of the `i`-th thread: to the CPU whose turn it is, inside the set of the system's
size, and to no other. -/
structure BoundTo (info : SysInfo) (i : Nat) (binding : Binding) : Prop where
  inside : binding.cpu.toNat < info.cpuhi.toNat + 1
  only : binding.mask.cpus = [binding.cpu]
  turn : info.affinityCpus.IsNth (i % info.affinityCpus.size) binding.cpu

def AllBound (info : SysInfo) (bindings : List Binding) : Prop :=
  ∀ i binding, bindings[i]? = some binding → BoundTo info i binding

/-- CPUs in the range of the online ones, and at least one. -/
structure Usable (info : SysInfo) : Prop where
  some : 0 < info.affinityCpus.size
  below : ∀ cpu ∈ info.affinityCpus, cpu ≤ info.cpuhi
  count : info.cpuhi ≠ 0xFFFFFFFF

/-- Between two rounds. -/
structure StartInv (info : SysInfo) (state : Starting) : Prop where
  size : state.cpuSet.size = cpuAllocSize (info.cpuhi + 1)
  cpuit : state.cpuit = state.bindings.length % info.affinityCpus.size
  bound : AllBound info state.bindings

section Start

variable {info : SysInfo}

/-- The set has room for each CPU up to the highest one. -/
theorem set_cpus {cpu cpuhi : UInt32} {mask : CpuMask} (below : cpu ≤ cpuhi)
    (count : cpuhi ≠ 0xFFFFFFFF) (size : mask.size = cpuAllocSize (cpuhi + 1)) :
    (mask.set cpu).cpus = cpu :: mask.cpus ∧ (mask.set cpu).size = mask.size := by
  have room : cpu.toUInt64 / 8 < mask.size := by
    have next : (cpuhi + 1).toNat = cpuhi.toNat + 1 := by
      have other : cpuhi.toNat ≠ 2 ^ 32 - 1 := fun same => count (UInt32.toNat_inj.mp same)
      have bounded := cpuhi.toNat_lt
      have one : (1 : UInt32).toNat = 1 := rfl
      rw [UInt32.toNat_add, one]
      omega
    rw [size, cpuAllocSize]
    rw [UInt32.le_iff_toNat_le] at below
    have bounded := cpuhi.toNat_lt
    rw [UInt64.lt_iff_toNat_lt]
    simp only [UInt64.toNat_mul, UInt64.toNat_div, UInt64.toNat_sub, UInt64.toNat_add,
      UInt32.toNat_toUInt64, next, UInt64.reduceToNat]
    omega
  unfold CpuMask.set
  rw [if_pos room]
  exact ⟨rfl, rfl⟩

theorem allBound_append {bindings : List Binding} {binding : Binding}
    (bound : AllBound info bindings) (last : BoundTo info bindings.length binding) :
    AllBound info (bindings ++ [binding]) := by
  intro i other at_i
  rcases Nat.lt_trichotomy i bindings.length with earlier | rfl | later
  · rw [List.getElem?_append_left earlier] at at_i
    exact bound i other at_i
  · rw [List.getElem?_concat_length] at at_i
    cases at_i
    exact last
  · rw [List.getElem?_eq_none (by rw [List.length_append, List.length_singleton]; omega)] at at_i
    cases at_i

/-- The iterator goes back to the start behind the last CPU. -/
theorem succ_mod {size : Nat} (some : 0 < size) (n : Nat) :
    (if n % size + 1 = size then 0 else n % size + 1) = (n + 1) % size := by
  have below := Nat.mod_lt n some
  rw [← Nat.mod_add_mod]
  split_ifs with last
  · rw [last, Nat.mod_self]
  · exact (Nat.mod_eq_of_lt (by omega)).symm

section Round

variable {state : Starting}

/-- There is a CPU at the iterator. -/
theorem StartInv.here (usable : Usable info) (inv : StartInv info state) :
    ∃ cpu, info.affinityCpus.toList[state.cpuit]? = some cpu := by
  have below : state.cpuit < info.affinityCpus.toList.length := by
    rw [inv.cpuit]
    exact Nat.mod_lt _ usable.some
  exact ⟨_, List.getElem?_eq_getElem below⟩

/-- The next thread is bound to it. -/
theorem StartInv.boundTo (usable : Usable info) (inv : StartInv info state) {cpu : UInt32}
    (here : info.affinityCpus.toList[state.cpuit]? = some cpu) :
    BoundTo info state.bindings.length ⟨cpu, state.cpuSet.zero.set cpu⟩ ∧
      (state.cpuSet.zero.set cpu).size = cpuAllocSize (info.cpuhi + 1) := by
  obtain ⟨below, rfl⟩ := List.getElem?_eq_some_iff.mp here
  have turn := info.affinityCpus.isNth_getElem below
  have online := usable.below _ turn.mem
  have zeroed : state.cpuSet.zero.size = cpuAllocSize (info.cpuhi + 1) := inv.size
  obtain ⟨cpus, size⟩ := set_cpus online usable.count zeroed
  refine ⟨⟨Nat.lt_succ_of_le (UInt32.le_iff_toNat_le.mp online), cpus, ?_⟩, size.trans zeroed⟩
  rw [← inv.cpuit]
  exact turn

/-- And the iterator moves on. -/
theorem StartInv.next (usable : Usable info) (inv : StartInv info state) {cpu : UInt32}
    (here : info.affinityCpus.toList[state.cpuit]? = some cpu) :
    StartInv info
      { cpuSet := state.cpuSet.zero.set cpu
        bindings := state.bindings ++ [⟨cpu, state.cpuSet.zero.set cpu⟩]
        cpuit := if state.cpuit + 1 = info.affinityCpus.size then 0 else state.cpuit + 1 } := by
  obtain ⟨last, size⟩ := inv.boundTo usable here
  refine ⟨size, ?_, allBound_append inv.bound last⟩
  rw [List.length_append, inv.cpuit]
  exact succ_mod usable.some _

/-- **A round** meets no end of the set, and binds its thread to the CPU whose turn it is. -/
theorem startThread_right (usable : Usable info) (disableAffinity : Bool) (calls : StartCalls)
    (inv : StartInv info state) {stop : Option Stop} {state' : Starting}
    (ran : info.startThread disableAffinity calls state = (stop, state')) :
    (∀ expression, stop ≠ some (.undefined expression)) ∧ AllBound info state'.bindings ∧
      (stop = none → StartInv info state' ∧
        (disableAffinity = false → state'.bindings.length = state.bindings.length + 1)) := by
  obtain ⟨cpu, here⟩ := inv.here usable
  have next := inv.next usable here
  unfold SysInfo.startThread at ran
  rw [here] at ran
  by_cases created : calls.created = true
  · cases disableAffinity with
    | true =>
      rw [created] at ran
      cases ran
      exact ⟨fun _ same => (by cases same), inv.bound, fun _ => ⟨inv, fun no => by cases no⟩⟩
    | false =>
      by_cases affinitized : calls.affinitized = true
      · rw [created, affinitized] at ran
        cases ran
        exact ⟨fun _ same => (by cases same), next.bound, fun _ =>
          ⟨next, fun _ => List.length_append⟩⟩
      · rw [created, eq_false_of_ne_true affinitized] at ran
        cases ran
        exact ⟨fun _ same => (by cases same), next.bound, fun same => by cases same⟩
  · rw [eq_false_of_ne_true created] at ran
    cases ran
    exact ⟨fun _ same => (by cases same), inv.bound, fun same => by cases same⟩

end Round

/-- **The loop over the threads**: none but the calls end it, and each thread is bound to the CPU
whose turn it is. -/
theorem startThreads_right (usable : Usable info) (disableAffinity : Bool) (calls : List StartCalls)
    {state : Starting} (inv : StartInv info state) :
    (∀ expression, (info.startThreads disableAffinity calls state).1 ≠
      some (.undefined expression)) ∧
    AllBound info (info.startThreads disableAffinity calls state).2.bindings ∧
    ((info.startThreads disableAffinity calls state).1 = none → disableAffinity = false →
      (info.startThreads disableAffinity calls state).2.bindings.length =
        state.bindings.length + calls.length) := by
  induction calls generalizing state with
  | nil => exact ⟨fun _ same => (by cases same), inv.bound, fun _ _ => rfl⟩
  | cons calls rest ih =>
    rcases ran : info.startThread disableAffinity calls state with ⟨_ | stop, state'⟩
    · obtain ⟨_, _, next⟩ := startThread_right usable disableAffinity calls inv ran
      obtain ⟨inv', length⟩ := next rfl
      unfold SysInfo.startThreads
      rw [ran]
      obtain ⟨defined, bound, all⟩ := ih inv'
      refine ⟨defined, bound, fun done enabled => (all done enabled).trans ?_⟩
      rw [length enabled, List.length_cons]
      omega
    · obtain ⟨defined, bound, _⟩ := startThread_right usable disableAffinity calls inv ran
      unfold SysInfo.startThreads
      rw [ran]
      exact ⟨defined, bound, fun same => by cases same⟩

end Start

/-! ### The argument of `-a` -/

/-- **The CPUs of the threads are the right ones.** -/
structure AffinityRight (info : SysInfo) : Prop where
  nonempty : ∃ cpu, cpu ∈ info.affinityCpus
  online : ∀ cpu ∈ info.affinityCpus, cpu ∈ info.onlineCpus
  defined : ∀ disableAffinity calls expression,
    (info.startThreads disableAffinity calls info.starting).1 ≠ some (.undefined expression)
  bound : ∀ disableAffinity calls,
    AllBound info (info.startThreads disableAffinity calls info.starting).2.bindings
  all : ∀ calls, (info.startThreads false calls info.starting).1 = none →
    (info.startThreads false calls info.starting).2.bindings.length = calls.length

/-- **The affinity of the threads.** What is given to `-a` is right exactly if the fields at its
front name a CPU, and only CPUs that the line of the online ones names. -/
theorem affinity_iff {line s : CString} {info : SysInfo}
    (returns : initSysInfo (some line) (some s) = .ok info) :
    AffinityRight info ↔ (∃ c, Named s c) ∧ ∀ c, Named s c → Named line c := by
  obtain ⟨online, affinity, last⟩ := initSysInfo_ok returns
  have mem := strToCpuSet_mem affinity
  have mem' := strToCpuSet_mem online
  have valid : (0xFFFFFFFF : UInt32) ∉ info.onlineCpus :=
    strToCpuSetLoop_ne online (not_mem_empty _)
  have value : ∀ {c : Nat}, Named s c → ∃ cpu : UInt32, cpu.toNat = c := fun {c} named =>
    ⟨UInt32.ofNat c, UInt32.toNat_ofNat'.trans (Nat.mod_eq_of_lt named.lt)⟩
  constructor
  · rintro ⟨⟨cpu, member⟩, online, _, _, _⟩
    refine ⟨⟨cpu.toNat, (mem cpu).mp member⟩, fun c named => ?_⟩
    obtain ⟨cpu, rfl⟩ := value named
    exact (mem' cpu).mp (online cpu ((mem cpu).mpr named))
  · rintro ⟨⟨c, named⟩, only⟩
    obtain ⟨cpu, rfl⟩ := value named
    have member := (mem cpu).mpr named
    have online : ∀ cpu ∈ info.affinityCpus, cpu ∈ info.onlineCpus :=
      fun cpu member => (mem' cpu).mpr (only _ ((mem cpu).mp member))
    have usable : Usable info := by
      refine ⟨List.length_pos_of_mem member, fun cpu member => le_getLast? last (online cpu member),
        fun largest => ?_⟩
      rw [largest] at last
      exact valid (List.mem_of_getLast? last)
    have inv : StartInv info info.starting :=
      ⟨rfl, (Nat.zero_mod _).symm, fun i binding none => by cases none⟩
    refine ⟨⟨cpu, member⟩, online, fun disableAffinity calls => ?_, fun disableAffinity calls => ?_,
      fun calls done => ?_⟩
    · exact (startThreads_right usable disableAffinity calls inv).1
    · exact (startThreads_right usable disableAffinity calls inv).2.1
    · have length := (startThreads_right usable false calls inv).2.2 done rfl
      exact length.trans (Nat.zero_add _)

/-- The CPUs `0-3`. -/
def fourCpus : List CpuField := [.range (.ofNat 0) (.ofNat 3)]

/-- The CPUs `2,1`. -/
def twoCpus : List CpuField := [.one (.ofNat 2), .one (.ofNat 1)]

theorem small_fourCpus : ∀ field ∈ fourCpus, field.Small := by
  simp only [fourCpus, List.forall_mem_cons, CpuField.Small]
  decide

theorem small_twoCpus : ∀ field ∈ twoCpus, field.Small := by
  simp only [twoCpus, List.forall_mem_cons, CpuField.Small]
  decide

theorem fourCpus_online :
    ∃ online, strToCpuSet (some "0-3".toList) = .ok online ∧ (0 : UInt32) ∈ online := by
  have line : "0-3".toList = cpuListText fourCpus := by decide
  rw [line]
  obtain ⟨online, parsed, mem⟩ :=
    strToCpuSetLoop_fields (cpuListText fourCpus) small_fourCpus .empty
  have inside : 0 ∈ (CpuField.range (.ofNat 0) (.ofNat 3)).cpus :=
    CpuField.mem_cpus.mpr (by decide)
  exact ⟨online, parsed, (mem 0).mpr (Or.inr ⟨_, List.mem_cons_self, inside⟩)⟩

theorem affinity_iff_inside :
    ∃ info, initSysInfo (some "0-3".toList) (some "2,1".toList) = .ok info ∧
      AffinityRight info := by
  have text : "2,1".toList = cpuListText twoCpus := by decide
  have line : "0-3".toList = cpuListText fourCpus := by decide
  obtain ⟨online, parsed, zero⟩ := fourCpus_online
  obtain ⟨affinity, parsed', _⟩ :=
    strToCpuSetLoop_fields (cpuListText twoCpus) small_twoCpus .empty
  rw [text]
  obtain ⟨info, returns, _⟩ := initSysInfo_returns parsed zero parsed'
  have named : ∀ c, Named (cpuListText twoCpus) c ↔ c = 2 ∨ c = 1 := by
    intro c
    rw [named_cpuListText small_twoCpus]
    simp [twoCpus, CpuField.cpus, Numeral.value_ofNat]
  have named' : ∀ c, Named "0-3".toList c ↔ c ≤ 3 := by
    intro c
    rw [line, named_cpuListText small_fourCpus]
    simp [fourCpus, CpuField.cpus, Numeral.value_ofNat]
  refine ⟨info, returns, (affinity_iff returns).mpr
    ⟨⟨2, (named 2).mpr (Or.inl rfl)⟩, fun c is => ?_⟩⟩
  have either := (named c).mp is
  exact (named' c).mpr (by omega)

/-- The argument `x` names no CPU, and the first thread meets the end of the set. -/
theorem affinity_of_no_cpu :
    ∃ info, initSysInfo (some "0-3".toList) (some "x".toList) = .ok info ∧
      (info.startThreads false [⟨true, true⟩] info.starting).1 = some (.undefined "*cpuit") ∧
      ¬ AffinityRight info := by
  obtain ⟨online, parsed, zero⟩ := fourCpus_online
  have none : strToCpuSet (some "x".toList) = .ok .empty := by
    unfold strToCpuSet strToCpuSetLoop
    rfl
  obtain ⟨info, returns, empty⟩ := initSysInfo_returns parsed zero none
  have undefined : (info.startThreads false [⟨true, true⟩] info.starting).1 =
      some (.undefined "*cpuit") := by
    unfold SysInfo.startThreads SysInfo.startThread
    rw [empty]
    rfl
  exact ⟨info, returns, undefined, fun right => right.defined _ _ _ undefined⟩

end DiskSpd
