/-
**Divisors that are not zero.**

* `DivisorsNonzero` — no division of the job is by 0, and no assertion about a divisor fails.
* `Bucketed` — the invariant of a thread: its bucketizers keep the duration they were set up with.
* `divisorOptions_iff` — which arguments make an option 0 that is divided by.
* `divisors_iff` — **of the options of an accepted command line only two can be 0**: the interval of
  `-D`, and the alignment of `-r` when the block size is read as 0.
-/

import DiskSpd.Model.Divisions
import DiskSpd.Proof.Assignment
import DiskSpd.Proof.Startup

namespace DiskSpd

open IAsyncIop MachineWord Transition

/-- **No division by zero**, and no failed assertion about a divisor. -/
structure DivisorsNonzero (job : JobOptions) (opened : UInt32 → Nat → JobOptions.Opened) : Prop where
  divisions : ∀ (Engine : Type) (dist : UniformInt Engine) (d : ℚ),
    DividesBy dist job opened d → d ≠ 0
  initializeBuckets : ∀ (assigned : AssignState) (th : ThreadSetUp),
    job.assignThreads opened = some assigned → th ∈ assigned.threads → job.bucketizer ≠ none
  add : ∀ (Engine : Type) (dist : UniformInt Engine) (params : List ThreadParams)
    (th : ThreadParams) (s : ThreadState job.ioManager.Op Engine) (results : TargetResults)
    (type : IopType) (time : UInt64), ThreadReached dist job opened params th s →
    results ∈ s.results → th.measure.iopsStdDev = true → (results.bucketizer type).add time ≠ none

variable {job : JobOptions} {opened : UInt32 → Nat → JobOptions.Opened}

/-! ### The bucketizers of a thread -/

section Bucketed

variable {Op Engine : Type} {th : ThreadParams}

/-- The bucketizers of a thread keep their duration. -/
def Bucketed (th : ThreadParams) (s : ThreadState Op Engine) : Prop :=
  ∀ results ∈ s.results, ∀ type,
    (results.bucketizer type).bucketDuration = th.bucketizer.bucketDuration

theorem add_bucketDuration {bucketizer next : IoBucketizer} {time : UInt64}
    (added : bucketizer.add time = some next) :
    next.bucketDuration = bucketizer.bucketDuration := by
  unfold IoBucketizer.add at added
  split at added
  · cases added
  · cases added
    rfl

theorem recordBucket_bucketDuration {measure : Measure} {completion : Completion}
    {bucketizer next : IoBucketizer}
    (added : TargetResults.recordBucket measure completion bucketizer = some next) :
    next.bucketDuration = bucketizer.bucketDuration := by
  unfold TargetResults.recordBucket at added
  split at added
  · exact add_bucketDuration added
  · cases added
    rfl

theorem record_bucketDuration {results updated : TargetResults} {measure : Measure}
    {completion : Completion} (done : results.record measure completion = some updated)
    (type : IopType) :
    (updated.bucketizer type).bucketDuration = (results.bucketizer type).bucketDuration := by
  unfold TargetResults.record at done
  dsimp only at done
  split at done
  · obtain ⟨bucketizer, added, done⟩ := Option.bind_eq_some_iff.mp done
    cases done
    cases type with
    | read => exact recordBucket_bucketDuration added
    | write => rfl
  · obtain ⟨bucketizer, added, done⟩ := Option.bind_eq_some_iff.mp done
    cases done
    cases type with
    | read => rfl
    | write => exact recordBucket_bucketDuration added

theorem bucketed_step [IAsyncIop Op] {dist : UniformInt Engine}
    {interlocked interlocked' : Interlocked} {s s' : ThreadState Op Engine}
    (before : Bucketed th s) (step : Step dist th interlocked s interlocked' s') :
    Bucketed th s' := by
  cases step with
  | submit =>
    unfold Bucketed
    rwa [ThreadState.afterSubmit_results]
  | complete _ _ _ _ _ _ _ _ _ done _ =>
    unfold Bucketed
    rw [ThreadState.afterSubmit_results]
    rcases ThreadState.record_cases done with ⟨_, rfl⟩ | ⟨_, results, updated, found, counted, rfl⟩
    · exact before
    · intro other member type
      rcases List.mem_or_eq_of_mem_set member with old | new
      · exact before other old type
      · rw [new, record_bucketDuration counted]
        exact before results (List.mem_of_getElem? found) type
  | _ => exact before

theorem bucketed_initial (rngEngine : Engine) :
    Bucketed th (.initial th rngEngine : ThreadState Op Engine) := by
  intro results member type
  obtain ⟨_, _, rfl⟩ := List.mem_map.mp member
  cases type <;> rfl

end Bucketed

/-! ### The threads -/

section Threads

variable {Engine : Type} {dist : UniformInt Engine} {params : List ThreadParams}
  {th : ThreadParams} {s : ThreadState job.ioManager.Op Engine}

theorem ThreadReached.isThread (reached : ThreadReached dist job opened params th s) :
    th ∈ params := by
  obtain ⟨_, _, n, found, _⟩ := reached.reached
  exact List.mem_of_getElem? found

theorem ThreadReached.bucketed (reached : ThreadReached dist job opened params th s) :
    Bucketed th s := by
  obtain ⟨state, run, n, found, rfl⟩ := reached.reached
  exact jobSystem_thread (Bucketed th) found bucketed_initial
    (fun _ _ _ _ before step => bucketed_step before step) run

/-- The interval that a job's threads count in. -/
theorem bucketizer_duration {bucketizer : IoBucketizer} (measured : job.measureIopsStdDev = true)
    (setUp : job.bucketizer = some bucketizer) :
    bucketizer.bucketDuration = job.ioBucketDurationMs.toUInt64 ∧
      bucketizer.bucketDuration ≠ 0 := by
  unfold JobOptions.bucketizer at setUp
  rw [measured, if_pos rfl] at setUp
  unfold IoBucketizer.initializeBuckets at setUp
  split at setUp
  · rename_i fresh
    cases setUp
    exact ⟨rfl, fresh.2⟩
  · cases setUp

/-- The set-up of the bucketizers succeeds unless the interval is 0. -/
theorem bucketizer_some_iff :
    (∃ bucketizer, job.bucketizer = some bucketizer) ↔
      ¬ (job.measureIopsStdDev = true ∧ job.ioBucketDurationMs = 0) := by
  unfold JobOptions.bucketizer IoBucketizer.initializeBuckets
  cases job.measureIopsStdDev with
  | false => simp
  | true =>
    have widened : job.ioBucketDurationMs.toUInt64 = 0 ↔ job.ioBucketDurationMs = 0 := by
      rw [← UInt64.toNat_inj, ← UInt32.toNat_inj, UInt32.toNat_toUInt64]
      exact Iff.rfl
    by_cases zero : job.ioBucketDurationMs = 0 <;> simp [widened, zero]

/-- In a state of a measured thread every bucketizer has an interval. -/
theorem ThreadReached.bucketDuration (reached : ThreadReached dist job opened params th s)
    (measured : th.measure.iopsStdDev = true) {results : TargetResults}
    (member : results ∈ s.results) (type : IopType) :
    (results.bucketizer type).bucketDuration ≠ 0 := by
  obtain ⟨measure, setUp⟩ := (createThreads_frame reached.created).2.2 th reached.isThread
  rw [measure] at measured
  rw [reached.bucketed results member type]
  exact (bucketizer_duration measured setUp).2

end Threads

/-! ### Accepted jobs -/

/-- The options that are divided by are not 0: the interval of a measured job, and the alignment of a
random target that a thread works on. -/
structure JobOptions.DivisorOptions (job : JobOptions) : Prop where
  interval : ¬ (job.measureIopsStdDev = true ∧ job.ioBucketDurationMs = 0)
  alignment : job.totalThreads ≠ 0 → ∀ target ∈ job.targets,
    target.useRandomAlignment = true → target.stride ≠ 0

section Accepted

variable {calls : List (Key × Option CString)} {stat : CString → Stat}

/-- The thread count has not wrapped. -/
def JobOptions.CountFits (job : JobOptions) : Prop :=
  job.useTotalThreads = true ∨
    (job.targets.map fun target => target.threadsPerTarget.toNat).sum < 2 ^ 32

theorem createThreads_fits {params : List ThreadParams}
    (created : job.createThreads opened = some params) : job.CountFits := by
  have bound := job.totalThreads.toNat_lt
  cases mode : job.useTotalThreads with
  | true => exact Or.inl mode
  | false =>
    have fits := (createThreads_frame created).2.1 mode
    rw [length_rounds_perTarget mode] at fits
    exact Or.inr (by omega)

/-- A thread's random target is aligned to something. -/
theorem reached_stride {Engine : Type} {dist : UniformInt Engine} {params : List ThreadParams}
    {th : ThreadParams} {s : ThreadState job.ioManager.Op Engine} (options : job.DivisorOptions)
    (reached : ThreadReached dist job opened params th s) {t : Nat} {tData : TargetData}
    (found : th.targets[t]? = some tData) (random : tData.target.useRandomAlignment = true) :
    (tData.target.stride.toInt : ℚ) ≠ 0 := by
  have isThread := reached.isThread
  have serves := createThreads_serves reached.created th isThread tData (List.mem_of_getElem? found)
  have count := (createThreads_frame reached.created).1
  have some : job.totalThreads ≠ 0 := by
    intro none
    rw [none] at count
    have := List.length_pos_of_mem isThread
    exact absurd count (Nat.pos_iff_ne_zero.mp this)
  have nonzero := options.alignment some _ (List.mem_of_getElem? serves.1) random
  exact_mod_cast fun zero => nonzero (Int64.toInt_inj.mp zero)

/-- **Options that are not 0 are enough.** -/
theorem divisorsNonzero_of_options (ok : parseCommandLine calls stat = .ok job)
    (options : job.CountFits → job.DivisorOptions) : DivisorsNonzero job opened := by
  have interval : job.CountFits → job.measureIopsStdDev = true →
      job.ioBucketDurationMs.toNat ≠ 0 := fun fits measured zero =>
    (options fits).interval ⟨measured, UInt32.toNat_inj.mp zero⟩
  have assignedFits : ∀ {assigned}, job.assignThreads opened = some assigned → job.CountFits := by
    intro assigned done
    cases mode : job.useTotalThreads with
    | true => exact Or.inl mode
    | false => exact Or.inr (threadCount_fits done mode)
  refine ⟨fun Engine dist d divides => ?_, fun assigned th done _ none => ?_,
    fun Engine dist params th s results type time reached member measured => ?_⟩
  · cases divides with
    | bucketDuration done _ measured => exact_mod_cast interval (assignedFits done) measured
    | startOffset reached _ found random =>
      exact reached_stride (options (createThreads_fits reached.created)) reached found random
    | nextOffset reached _ found random =>
      exact reached_stride (options (createThreads_fits reached.created)) reached found random
    | reissue reached _ _ _ found random =>
      exact reached_stride (options (createThreads_fits reached.created)) reached found random
    | addBucket reached _ _ _ found measured =>
      have nonzero := reached.bucketDuration measured (List.mem_of_getElem? found)
      exact_mod_cast fun zero => nonzero _ (UInt64.toNat_inj.mp zero)
    | throttle _ _ divides =>
      unfold ThreadParams.throttleDivides at divides
      rw [Bool.and_eq_true, bne_iff_ne] at divides
      exact_mod_cast fun zero => divides.2 (UInt64.toNat_inj.mp zero)
    | bucketTime created measured =>
      have nonzero := interval (createThreads_fits created) measured
      unfold JobOptions.bucketTimeSeconds
      exact div_ne_zero (by exact_mod_cast nonzero) (by norm_num)
    | duration _ =>
      have positive := (parseCommandLine_job ok).1
      exact_mod_cast Nat.pos_iff_ne_zero.mp positive
  · obtain ⟨bucketizer, some⟩ := bucketizer_some_iff.mpr (options (assignedFits done)).interval
    rw [some] at none
    cases none
  · unfold IoBucketizer.add
    rw [if_neg (reached.bucketDuration measured member type)]
    exact Option.some_ne_none _

/-- The threads of a job whose interval is not 0 can start. -/
theorem createThreads_total (interval : ¬ (job.measureIopsStdDev = true ∧
    job.ioBucketDurationMs = 0)) {assigned : AssignState}
    (done : job.assignThreads opened = some assigned) :
    ∃ params, job.createThreads opened = some params := by
  rw [assignThreads_created done]
  obtain ⟨bucketizer, setUp⟩ := bucketizer_some_iff.mpr interval
  refine Loop.mapM_exists fun th _ => ⟨{ th with bucketizer }, ?_⟩
  unfold JobOptions.setUpThread
  rw [setUp]
  rfl

/-- **An interval of 0 is divided by**, in a thread or, without any thread, in the printed results. -/
theorem interval_of_divisorsNonzero {assigned : AssignState}
    (done : job.assignThreads opened = some assigned) (safe : DivisorsNonzero job opened) :
    ¬ (job.measureIopsStdDev = true ∧ job.ioBucketDurationMs = 0) := by
  rintro ⟨measured, zero⟩
  cases threads : assigned.threads with
  | nil =>
    have created : job.createThreads opened = some [] := by
      rw [assignThreads_created done, threads]
      rfl
    refine safe.divisions Unit (fun a _ engine => (a, engine)) _ (.bucketTime created measured) ?_
    unfold JobOptions.bucketTimeSeconds
    rw [zero]
    norm_num
  | cons th rest =>
    have member : th ∈ assigned.threads := threads ▸ List.mem_cons_self
    refine safe.divisions Unit (fun a _ engine => (a, engine)) _
      (.bucketDuration done member measured) ?_
    rw [zero]
    norm_num

/-- A job with threads has a round. -/
theorem rounds_nonempty (ok : parseCommandLine calls stat = .ok job) (fits : job.CountFits)
    (threads : job.totalThreads ≠ 0) : ∃ round, round ∈ job.rounds := by
  obtain ⟨_, nonempty, count⟩ := parseCommandLine_job ok
  have positive : 0 < job.totalThreads.toNat :=
    Nat.pos_iff_ne_zero.mpr fun none => threads (UInt32.toNat_inj.mp none)
  cases mode : job.useTotalThreads with
  | true =>
    obtain ⟨target, member⟩ := List.exists_mem_of_ne_nil _ nonempty
    obtain ⟨k, isTarget⟩ := List.getElem?_of_mem member
    refine ⟨((target, k), 0), mem_rounds.mpr ⟨isTarget, ?_⟩⟩
    unfold JobOptions.noThreads
    rwa [mode, if_pos rfl]
  | false =>
    refine List.exists_mem_of_length_pos ?_
    rw [length_rounds_perTarget mode]
    rcases fits with total | small
    · rw [mode] at total
      cases total
    · rwa [count mode, Nat.mod_eq_of_lt small] at positive

/-- **An alignment of 0 is divided by** in the first call of a thread. -/
theorem alignment_of_divisorsNonzero (ok : parseCommandLine calls stat = .ok job)
    (fits : job.CountFits) {params : List ThreadParams}
    (created : job.createThreads opened = some params) (safe : DivisorsNonzero job opened)
    (threads : job.totalThreads ≠ 0) {target : Target} (member : target ∈ job.targets)
    (random : target.useRandomAlignment = true) : target.stride ≠ 0 := by
  intro zero
  obtain ⟨round, isRound⟩ := rounds_nonempty ok fits threads
  obtain ⟨isTarget, below⟩ := mem_rounds.mp isRound
  obtain ⟨n, th, t, _, isThread, _, inTargets, _⟩ := createThreads_covers created isTarget
    (show (UInt32.ofNat round.2).toNat < _ by rwa [round_id isRound])
  have some : 0 < th.targets.length := by
    have := (List.getElem?_eq_some_iff.mp inTargets).1
    omega
  have found := List.getElem?_eq_getElem some
  have serves := createThreads_serves created th (List.mem_of_getElem? isThread) th.targets[0]
    (List.mem_of_getElem? found)
  obtain ⟨dummy, same⟩ := parseCommandLine_targets ok
  have here := (same target member).2
  have there := (same th.targets[0].target (List.mem_of_getElem? serves.1)).2
  let dist : UniformInt Unit := fun a _ engine => (a, engine)
  obtain ⟨state, isInit, initial⟩ := exists_initial job.ioManager.Op dist job.targets params ()
  have reached : ThreadReached dist job opened params th (state.threads n) :=
    ⟨created, state, Reachable.of_init isInit, n, isThread, rfl⟩
  refine safe.divisions Unit dist _ (.startOffset reached (t := 0) ?_ found ?_) ?_
  · rw [initial n th isThread]
    rfl
  · rw [there.useRandomAlignment, ← here.useRandomAlignment, random]
  · rw [there.stride, ← here.stride, zero]
    exact Rat.intCast_zero

theorem assignThreads_of_fits (ok : parseCommandLine calls stat = .ok job) (fits : job.CountFits) :
    ∃ assigned, job.assignThreads opened = some assigned := by
  refine assignThreads_total fun mode => ?_
  rcases fits with total | small
  · rw [mode] at total
    cases total
  · rw [length_rounds_perTarget mode, (parseCommandLine_job ok).2.2 mode, Nat.mod_eq_of_lt small]

/-- **Options that are 0 are divided by.** -/
theorem options_of_divisorsNonzero (ok : parseCommandLine calls stat = .ok job)
    (safe : DivisorsNonzero job opened) (fits : job.CountFits) : job.DivisorOptions := by
  obtain ⟨assigned, done⟩ : ∃ assigned, job.assignThreads opened = some assigned :=
    assignThreads_of_fits ok fits
  have interval := interval_of_divisorsNonzero done safe
  obtain ⟨params, created⟩ := createThreads_total interval done
  exact ⟨interval, fun threads target member =>
    alignment_of_divisorsNonzero ok fits created safe threads member⟩

/-! ### The arguments that are read as 0 -/

/-- A size option with an argument that is read as 0. -/
def Options.ReadsZero (options : Options) (opt : OptionType) (blockSize : UInt64) : Prop :=
  ∃ arg, options.getArg opt = some arg ∧ arg ≠ [] ∧ byteSizeFromArg arg blockSize = .ok 0

/-- The block size is read as 0, and with it the alignment of `-r`. -/
def Options.ZeroAlignment (options : Options) : Prop :=
  options.ReadsZero .blockSize 1 ∧ options.ReadsZero .randomAlign 0

/-- A numeral is 0 only when it is the digit 0. -/
theorem eq_zero_of_isZero {arg : CString} (numeric : isNumeric arg = true)
    (zero : isZero arg = true) : arg = ['0'] := by
  cases arg with
  | nil => cases zero
  | cons c rest =>
    by_cases first : c = '0'
    · subst first
      cases rest with
      | nil => rfl
      | cons => cases numeric
    · unfold isZero at zero
      split at zero
      · rename_i same
        exact absurd (List.cons.inj same).1 first
      · rename_i same
        exact absurd (List.cons.inj same).1 first
      · cases zero

theorem optMap_diops {key : Char} {option : DiskspdOption} (entry : optMap key = some option)
    (type : option.type = .diops) : option = ⟨.diops, optNumeric⟩ := by
  unfold optMap at entry
  split at entry <;> cases entry <;> first | rfl | cases type

theorem optMap_randomAlign {key : Char} {option : DiskspdOption} (entry : optMap key = some option)
    (type : option.type = .randomAlign) : option = ⟨.randomAlign, optByteSize ||| optNonZero⟩ := by
  unfold optMap at entry
  split at entry <;> cases entry <;> first | rfl | cases type

/-- A numeral that is read as a 32-bit 0 is the digit 0. -/
theorem numeral_read_zero {arg : CString} (numeric : isNumeric arg = true) (nonempty : arg ≠ [])
    (large : ¬ NumericLimits.max UInt32 < (strtoull arg).1)
    (zero : (NumericLimits.ofUInt64 (strtoull arg).1 : UInt32) = 0) : arg = ['0'] := by
  by_contra other
  have notZero : isZero arg = false := by
    by_contra isZero
    exact other (eq_zero_of_isZero numeric (by simpa using isZero))
  have positive := digitsValue_pos numeric nonempty notZero
  have value := congrArg UInt32.toNat zero
  simp only [NumericLimits.max, UInt64.not_lt, UInt64.le_iff_toNat_le, strtoull] at large
  simp only [NumericLimits.ofUInt64, strtoull, UInt64.toNat_toUInt32] at value
  have limit : (0xFFFFFFFF : UInt64).toNat = 2 ^ 32 - 1 := rfl
  have none : (0 : UInt32).toNat = 0 := rfl
  rw [UInt64.toNat_ofNat'] at large value
  omega

/-- **The interval of `-D` is 0 exactly for the argument 0.** -/
theorem interval_zero_iff {options : Options} {measured : Bool} {interval : UInt32}
    (formed : options.WellFormed)
    (read : options.argToNumber .diops 0 (1000 : UInt32) = .ok (measured, interval)) :
    measured = true ∧ interval = 0 ↔ options.getArg .diops = some ['0'] := by
  unfold Options.argToNumber at read
  unfold Options.getArg
  split at read
  · rename_i absent
    cases read
    rw [absent]
    exact ⟨fun no => (Bool.false_ne_true no.1).elim, fun no => (nomatch no)⟩
  · rename_i key seen
    obtain ⟨option, entry, type⟩ := formed.recorded _ _ seen
    rw [seen, Option.map_some, Option.some.injEq]
    rw [entry, Option.getD_some, optMap_diops entry type] at read
    split_ifs at read with empty
    · cases read
      rw [List.isEmpty_iff.mp empty]
      exact ⟨fun no => absurd no.2 (by decide), fun no => (nomatch no)⟩
    · obtain ⟨number, isNumber, read⟩ := bind_ok.mp read
      split_ifs at read with large
      cases read
      cases isNumber
      have nonempty : options.arg key ≠ [] := by simpa using empty
      constructor
      · rintro ⟨_, zero⟩
        rcases formed.valid key with absent | ⟨found, entryFound, valid⟩
        · exact absurd absent nonempty
        · rw [entry, Option.some.injEq] at entryFound
          rw [← entryFound, optMap_diops entry type] at valid
          exact numeral_read_zero (valid.1 rfl) nonempty large zero
      · intro digit
        rw [digit]
        exact ⟨rfl, by decide⟩

/-- **A size that is not 0 by default is 0 exactly when its argument is read as 0.** -/
theorem size_zero_iff {T : Type} [NumericLimits T] {zero : T}
    (cast : ∀ x, (NumericLimits.ofUInt64 x : T) = zero ↔ x = 0) {options : Options}
    {opt : OptionType} {blockSize : UInt64} {ret value : T} {given : Bool}
    (formed : options.WellFormed)
    (table : ∀ {key : Char} {option : DiskspdOption}, optMap key = some option →
      option.type = opt → option = ⟨opt, optByteSize ||| optNonZero⟩)
    (before : ret ≠ zero) (read : options.argToNumber opt blockSize ret = .ok (given, value)) :
    value = zero ↔ options.ReadsZero opt blockSize := by
  unfold Options.argToNumber at read
  unfold Options.ReadsZero Options.getArg
  split at read
  · rename_i absent
    cases read
    rw [absent]
    exact ⟨fun no => absurd no before, fun ⟨_, no, _⟩ => (nomatch no)⟩
  · rename_i key seen
    obtain ⟨option, entry, type⟩ := formed.recorded _ _ seen
    rw [seen, Option.map_some]
    rw [entry, Option.getD_some, table entry type] at read
    split_ifs at read with empty
    · cases read
      refine ⟨fun no => absurd no before, ?_⟩
      rintro ⟨arg, same, nonempty, _⟩
      cases same
      exact absurd (List.isEmpty_iff.mp empty) nonempty
    · obtain ⟨number, isNumber, read⟩ := bind_ok.mp read
      split_ifs at read with large
      cases read
      have nonempty : options.arg key ≠ [] := by simpa using empty
      have size : byteSizeFromArg (options.arg key) blockSize = .ok number := by
        rw [← isNumber]
        cases opt <;> rfl
      rw [cast]
      constructor
      · rintro rfl
        exact ⟨_, rfl, nonempty, size⟩
      · rintro ⟨arg, same, _, zero⟩
        cases same
        rw [size] at zero
        cases zero
        rfl

/-- Without `-r` the offsets are not random. -/
theorem parseSequential_sequential {options : Options} {blockSize : UInt64} {access : Access}
    (read : parseSequential options blockSize = .ok access) : access.useRandomAlignment = false := by
  unfold parseSequential at read
  split at read
  · unfold parseStride at read
    split at read <;>
    · obtain ⟨size, _, read⟩ := bind_ok.mp read
      cases read
      rfl
  · cases read
    rfl

/-- The alignment of a random target is 0 exactly for these arguments. -/
theorem alignment_zero_iff {options : Options} {blockSize : UInt64} {access : Access}
    (formed : options.WellFormed) (read : parseAccess options blockSize = .ok access)
    (readBlock : ∃ given,
      options.argToNumber .blockSize 1 (64 * 1024 : UInt64) = .ok (given, blockSize)) :
    access.useRandomAlignment = true ∧ access.stride = 0 ↔ options.ZeroAlignment := by
  obtain ⟨_, readBlock⟩ := readBlock
  have small : blockSize.toNat < 2 ^ 63 := argToNumber_blockSize_lt formed (by decide) readBlock
  have block : blockSize = 0 ↔ options.ReadsZero .blockSize 1 :=
    size_zero_iff (fun _ => Iff.rfl) formed optMap_blockSize (by decide) readBlock
  have signed : blockSize.toInt64 = 0 ↔ blockSize = 0 := toInt64_eq_zero _
  unfold Options.ZeroAlignment
  obtain ⟨⟨random, stride⟩, readStride, read⟩ := bind_ok.mp read
  have align : stride = 0 ↔ options.ReadsZero .randomAlign blockSize :=
    size_zero_iff toInt64_eq_zero formed optMap_randomAlign (by decide) readStride
  have given : options.ReadsZero .randomAlign blockSize → random = true := by
    intro zero
    cases random with
    | true => rfl
    | false =>
      have default := argToNumber_not_given readStride
      rw [align.mpr zero] at default
      exact absurd default (by decide)
  cases random with
  | false =>
    have none := parseSequential_sequential read
    refine ⟨fun zero => ?_, fun zero => ?_⟩
    · rw [none] at zero
      cases zero.1
    · rw [block.mpr zero.1] at given
      cases given zero.2
  | true =>
    cases read
    dsimp only
    constructor
    · rintro ⟨_, zero⟩
      split_ifs at zero with default
      · have isZero := signed.mp zero
        have alignZero := align.mp default
        rw [isZero] at alignZero
        exact ⟨block.mp isZero, alignZero⟩
      · exact absurd zero default
    · rintro ⟨blockZero, alignZero⟩
      have isZero := block.mpr blockZero
      rw [← isZero] at alignZero
      refine ⟨rfl, ?_⟩
      rw [if_pos (align.mpr alignZero)]
      exact signed.mpr isZero

/-- **Which arguments make an option 0 that is divided by.** -/
theorem divisorOptions_iff {options : Options} (parsed : Options.parseArgs calls {} = .ok options)
    (ok : parseCommandLine calls stat = .ok job) :
    job.DivisorOptions ↔ ¬ (options.getArg .diops = some ['0'] ∨
      job.totalThreads ≠ 0 ∧ options.ZeroAlignment) := by
  obtain ⟨options', dummy, given, parsed', reads, nonempty, targets, _⟩ := parseCommandLine_reads ok
  rw [parsed, Except.ok.injEq] at parsed'
  subst parsed'
  have formed := parseArgs_wellFormed fresh_wellFormed parsed
  have interval := interval_zero_iff formed reads.diops
  have alignment := alignment_zero_iff formed reads.access reads.blockSize
  dsimp only at interval alignment
  rw [not_or, not_and, ← interval, ← alignment]
  constructor
  · rintro ⟨notZero, aligned⟩
    refine ⟨notZero, fun threads zero => ?_⟩
    obtain ⟨target, member⟩ := List.exists_mem_of_ne_nil _ nonempty
    have same := (targets target member).2
    exact aligned threads target member (same.useRandomAlignment.trans zero.1)
      (same.stride.trans zero.2)
  · rintro ⟨notZero, aligned⟩
    refine ⟨notZero, fun threads target member random zero => ?_⟩
    have same := (targets target member).2
    exact aligned threads ⟨same.useRandomAlignment.symm.trans random, same.stride.symm.trans zero⟩

/-- **Of the options of an accepted command line only the interval of `-D` and the alignment of `-r`
can be 0 where they are divided by**: no divisor is 0 exactly when these are not. A job that fails
the checks of `run_job`, or whose thread count wraps, never gets to a division. -/
theorem divisors_iff {options : Options} (parsed : Options.parseArgs calls {} = .ok options)
    (ok : parseCommandLine calls stat = .ok job) :
    (job.SetUpPasses → DivisorsNonzero job opened) ↔
      ¬ (job.SetUpPasses ∧ job.CountFits ∧ (options.getArg .diops = some ['0'] ∨
        job.totalThreads ≠ 0 ∧ options.ZeroAlignment)) := by
  rw [not_and, not_and, ← divisorOptions_iff parsed ok]
  refine imp_congr_right fun _ => ⟨options_of_divisorsNonzero ok, divisorsNonzero_of_options ok⟩

end Accepted

/-! ### Two command lines -/

/-- `-D<interval> f` -/
def intervalCalls (interval : CString) : List (Key × Option CString) :=
  [(.option 'D', some interval), (.keyArg, some "f".toList)]

def intervalJob (interval : UInt32) : JobOptions where
  totalThreads := 1
  measureIopsStdDev := true
  ioBucketDurationMs := interval
  targets := [{ path := "f".toList, size := 1048576, maxSize := 1048576 }]

/-- `-D0 f` passes every check, and its thread divides by 0 and fails an assertion. -/
theorem intervalJob_divides_by_zero :
    parseCommandLine (intervalCalls "0".toList) (fun _ => .file 1048576) = .ok (intervalJob 0) ∧
    (intervalJob 0).SetUpPasses ∧
    DividesBy (fun a _ engine => (a, engine) : UniformInt Unit) (intervalJob 0)
      (fun _ _ => ⟨3, 0, 0⟩) 0 ∧
    (intervalJob 0).bucketizer = none ∧
    ¬ ((intervalJob 0).SetUpPasses → DivisorsNonzero (intervalJob 0) fun _ _ => ⟨3, 0, 0⟩) := by
  have passes : (intervalJob 0).SetUpPasses := by
    intro target member
    rw [List.mem_singleton.mp member]
    rfl
  have divides : DividesBy (fun a _ engine => (a, engine) : UniformInt Unit) (intervalJob 0)
      (fun _ _ => ⟨3, 0, 0⟩) 0 :=
    @DividesBy.bucketDuration _ _ _ _ _ _ rfl List.mem_cons_self rfl
  exact ⟨rfl, passes, divides, rfl, fun safe => (safe passes).divisions _ _ _ divides rfl⟩

theorem intervalJob_divisors :
    parseCommandLine (intervalCalls "500".toList) (fun _ => .file 1048576) =
      .ok (intervalJob 500) ∧
    ((intervalJob 500).SetUpPasses →
      DivisorsNonzero (intervalJob 500) fun _ _ => ⟨3, 0, 0⟩) := by
  have ok : parseCommandLine (intervalCalls "500".toList) (fun _ => .file 1048576) =
      .ok (intervalJob 500) := rfl
  refine ⟨ok, (@divisors_iff _ _ _ _ _ rfl ok).mpr ?_⟩
  rintro ⟨_, _, zero | ⟨_, ⟨_, given, _⟩, _⟩⟩
  · cases zero
  · cases given

end DiskSpd
