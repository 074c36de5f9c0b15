/-
**What an accepted command line says about its targets.**

* `parseArg_option_ok` — what a call of the parser with an option records, and when.
* `Options.WellFormed` — every option recorded carries its own key, and an argument that passed the
  checks of its table entry; `parseArgs_wellFormed` — it holds after any calls of the parser.
* `ArgumentsRead` — what each option of a job is read from.
* `Target.Accepted` — the bounds on a target's numbers that the rest of the program relies on.
* `parseCommandLine_reads` — the options and targets of an accepted command line: its targets have
  these bounds, and share the options of one dummy.
-/

import DiskSpd.Model.Profile

namespace DiskSpd

open MachineWord

/-! ### Fallible steps -/

theorem bind_ok {ε α β : Type} {x : Except ε α} {f : α → Except ε β} {r : β} :
    x >>= f = .ok r ↔ ∃ a, x = .ok a ∧ f a = .ok r := by
  constructor
  · intro done
    cases x with
    | error e => cases done
    | ok a => exact ⟨a, rfl, done⟩
  · rintro ⟨a, rfl, done⟩
    exact done

theorem rejectIf_ok {condition : Bool} {message : String} {u : Unit} :
    rejectIf condition message = .ok u ↔ condition = false := by
  cases condition <;> simp [rejectIf]

/-! ### Recorded arguments -/

/-- An argument the table entry of its key lets through. -/
def ValidArg (option : DiskspdOption) (arg : CString) : Prop :=
  (option.has optNumeric = true → isNumeric arg = true) ∧
  (option.has optByteSize = true → validByteSize arg = true) ∧
  (option.has optNonZero = true → isZero arg = false)

theorem validateArg_ok {key : Char} {option : DiskspdOption} {arg : CString} {u : Unit} :
    validateArg key option arg = .ok u ↔ ValidArg option arg := by
  constructor
  · intro ok
    unfold validateArg at ok
    split_ifs at ok with numeric size zero
    simp only [Bool.and_eq_true, Bool.not_eq_true', not_and, Bool.not_eq_false] at numeric size zero
    exact ⟨numeric, size, fun flag => by simpa using zero flag⟩
  · rintro ⟨numeric, size, nonZero⟩
    unfold validateArg
    rw [if_neg, if_neg, if_neg]
    · rw [Bool.and_eq_true]
      exact fun both => Bool.false_ne_true ((nonZero both.1).symm.trans both.2)
    · rw [Bool.and_eq_true, Bool.not_eq_true']
      exact fun both => Bool.false_ne_true (both.2.symm.trans (size both.1))
    · rw [Bool.and_eq_true, Bool.not_eq_true']
      exact fun both => Bool.false_ne_true (both.2.symm.trans (numeric both.1))

/-- The options after a call with a key of the table. -/
def Options.record (options : Options) (key : Char) (option : DiskspdOption)
    (arg : Option CString) : Options where
  opts := Function.update options.opts option.type (some key)
  arg := arg.elim options.arg (Function.update options.arg key)
  nonOpts := options.nonOpts

section Record

variable {options : Options} {key : Char} {option : DiskspdOption} {type : OptionType}

theorem record_opts_self {arg : Option CString} :
    (options.record key option arg).opts option.type = some key :=
  Function.update_self _ _ _

theorem record_opts_of_ne {arg : Option CString} (different : type ≠ option.type) :
    (options.record key option arg).opts type = options.opts type :=
  Function.update_of_ne different _ _

theorem record_arg_self {arg : CString} : (options.record key option (some arg)).arg key = arg :=
  Function.update_self _ _ _

theorem record_arg_of_ne {other : Char} {arg : CString} (different : other ≠ key) :
    (options.record key option (some arg)).arg other = options.arg other :=
  Function.update_of_ne different _ _

end Record

theorem parseArg_unseen {options : Options} {key : Char} {option : DiskspdOption}
    {arg : Option CString} (entry : optMap key = some option)
    (unseen : options.opts option.type = none) :
    options.parseArg (.option key) arg =
      (arg.elim (.ok ()) (validateArg key option)).bind fun _ =>
        .ok (options.record key option arg) := by
  simp only [Options.parseArg, entry, unseen]
  cases arg <;> rfl

theorem validateGiven_ok {key : Char} {option : DiskspdOption} {arg : Option CString} {u : Unit} :
    arg.elim (.ok ()) (validateArg key option) = .ok u ↔ ∀ given ∈ arg, ValidArg option given := by
  cases arg with
  | none => exact ⟨nofun, fun _ => rfl⟩
  | some arg =>
    constructor
    · rintro checked given ⟨⟩
      exact validateArg_ok.mp checked
    · intro valid
      exact validateArg_ok.mpr (valid arg rfl)

/-- **What a call with an option records**, and when it succeeds. -/
theorem parseArg_option_ok {options next : Options} {key : Char} {arg : Option CString} :
    options.parseArg (.option key) arg = .ok next ↔
      ∃ option, optMap key = some option ∧ options.opts option.type = none ∧
        (∀ given ∈ arg, ValidArg option given) ∧ next = options.record key option arg := by
  constructor
  · intro done
    cases entry : optMap key with
    | none =>
      simp only [Options.parseArg, entry] at done
      cases done
    | some option =>
      cases seen : options.opts option.type with
      | some other =>
        simp only [Options.parseArg, entry, seen] at done
        cases done
      | none =>
        rw [parseArg_unseen entry seen] at done
        obtain ⟨_, checked, done⟩ := bind_ok.mp done
        cases done
        exact ⟨option, rfl, seen, validateGiven_ok.mp checked, rfl⟩
  · rintro ⟨option, entry, unseen, valid, rfl⟩
    rw [parseArg_unseen entry unseen]
    exact bind_ok.mpr ⟨(), validateGiven_ok.mpr valid, rfl⟩

/-- Every option recorded carries its own key, and every argument is absent or valid. -/
structure Options.WellFormed (options : Options) : Prop where
  recorded : ∀ type key, options.opts type = some key →
    ∃ option, optMap key = some option ∧ option.type = type
  valid : ∀ key, options.arg key = [] ∨
    ∃ option, optMap key = some option ∧ ValidArg option (options.arg key)

theorem parseArg_wellFormed {options next : Options} {key : Key} {arg : Option CString}
    (formed : options.WellFormed) (ok : options.parseArg key arg = .ok next) :
    next.WellFormed := by
  cases key with
  | special => cases ok
  | keyArg =>
    cases ok
    exact ⟨formed.recorded, formed.valid⟩
  | option key =>
    obtain ⟨option, entry, _, valid, rfl⟩ := parseArg_option_ok.mp ok
    refine ⟨fun type other seen => ?_, fun other => ?_⟩
    · by_cases same : type = option.type
      · subst same
        rw [record_opts_self] at seen
        exact ⟨option, Option.some.inj seen ▸ entry, rfl⟩
      · rw [record_opts_of_ne same] at seen
        exact formed.recorded type other seen
    · cases arg with
      | none => exact formed.valid other
      | some arg =>
        by_cases same : other = key
        · subst same
          rw [record_arg_self]
          exact Or.inr ⟨option, entry, valid arg rfl⟩
        · rw [record_arg_of_ne same]
          exact formed.valid other

theorem parseArgs_wellFormed {calls : List (Key × Option CString)} {options final : Options}
    (formed : options.WellFormed) (ok : Options.parseArgs calls options = .ok final) :
    final.WellFormed := by
  induction calls generalizing options with
  | nil =>
    cases ok
    exact formed
  | cons call calls ih =>
    obtain ⟨next, parsed, rest⟩ := bind_ok.mp ok
    exact ih (parseArg_wellFormed formed parsed) rest

theorem fresh_wellFormed : ({} : Options).WellFormed where
  recorded _ _ seen := nomatch seen
  valid _ := Or.inl rfl

/-! ### Numbers -/

/-- A size that is returned is not negative as an `off_t`. -/
theorem byteSizeFromArg_lt {arg : CString} {blockSize size : UInt64}
    (ok : byteSizeFromArg arg blockSize = .ok size) : size.toNat < 2 ^ 63 := by
  simp only [byteSizeFromArg] at ok
  obtain ⟨multiplier, _, ok⟩ := bind_ok.mp ok
  split_ifs at ok with sign
  cases ok
  rw [Int64.le_iff_toInt_le, Int64.toInt_zero] at sign
  have value := toNat_toUInt64 ((strtoull arg).1 * multiplier).toInt64
  have bounds := toInt_bounds ((strtoull arg).1 * multiplier).toInt64
  omega

/-- A number read for an `off_t` is not negative, unless it was before. -/
theorem argToNumber_off_nonneg {options : Options} {opt : OptionType} {blockSize : UInt64}
    {ret value : Int64} {given : Bool} (before : 0 ≤ ret.toInt)
    (ok : options.argToNumber opt blockSize ret = .ok (given, value)) : 0 ≤ value.toInt := by
  unfold Options.argToNumber at ok
  split at ok
  · cases ok
    exact before
  · split_ifs at ok
    · cases ok
      exact before
    · obtain ⟨result, _, ok⟩ := bind_ok.mp ok
      split_ifs at ok with large
      cases ok
      have small : result.toNat < 2 ^ 63 := by
        simp only [NumericLimits.max, UInt64.not_lt, UInt64.le_iff_toNat_le] at large
        have : (0x7FFFFFFFFFFFFFFF : UInt64).toNat = 2 ^ 63 - 1 := rfl
        omega
      show 0 ≤ result.toInt64.toInt
      rw [toInt_toInt64_of_lt small]
      exact Int.natCast_nonneg _

/-- An option that is not given leaves the number as it was. -/
theorem argToNumber_not_given {T : Type} [NumericLimits T] {options : Options} {opt : OptionType}
    {blockSize : UInt64} {ret value : T}
    (ok : options.argToNumber opt blockSize ret = .ok (false, value)) : value = ret := by
  unfold Options.argToNumber at ok
  split at ok
  · cases ok
    rfl
  · split_ifs at ok
    · cases ok
    · obtain ⟨_, _, ok⟩ := bind_ok.mp ok
      split_ifs at ok
      cases ok

/-- The table has one entry for each of these types. -/
theorem optMap_blockSize {key : Char} {option : DiskspdOption} (entry : optMap key = some option)
    (type : option.type = .blockSize) : option = ⟨.blockSize, optByteSize ||| optNonZero⟩ := by
  unfold optMap at entry
  split at entry <;> cases entry <;> first | rfl | cases type

theorem optMap_overlap {key : Char} {option : DiskspdOption} (entry : optMap key = some option)
    (type : option.type = .overlap) : option = ⟨.overlap, optNumeric ||| optNonZero⟩ := by
  unfold optMap at entry
  split at entry <;> cases entry <;> first | rfl | cases type

theorem optMap_duration {key : Char} {option : DiskspdOption} (entry : optMap key = some option)
    (type : option.type = .duration) : option = ⟨.duration, optNumeric ||| optNonZero⟩ := by
  unfold optMap at entry
  split at entry <;> cases entry <;> first | rfl | cases type

theorem argToNumber_blockSize_lt {options : Options} {blockSize ret value : UInt64} {given : Bool}
    (formed : options.WellFormed) (before : ret.toNat < 2 ^ 63)
    (ok : options.argToNumber .blockSize blockSize ret = .ok (given, value)) :
    value.toNat < 2 ^ 63 := by
  unfold Options.argToNumber at ok
  split at ok
  · cases ok
    exact before
  · rename_i key seen
    obtain ⟨option, entry, type⟩ := formed.recorded _ _ seen
    rw [entry, Option.getD_some, optMap_blockSize entry type] at ok
    split_ifs at ok
    · cases ok
      exact before
    · obtain ⟨size, read, ok⟩ := bind_ok.mp ok
      split_ifs at ok
      cases ok
      exact byteSizeFromArg_lt read

/-! ### Decimal numerals -/

theorem digitsValue_foldl_le (digits : CString) (value : Nat) :
    value ≤ digits.foldl (fun value c => 10 * value + (c.toNat - '0'.toNat)) value := by
  induction digits generalizing value with
  | nil => exact le_rfl
  | cons c digits ih => exact le_trans (by omega) (ih (10 * value + (c.toNat - '0'.toNat)))

theorem isDigit_bounds {c : Char} (digit : isDigit c = true) : 48 ≤ c.toNat ∧ c.toNat ≤ 57 := by
  simp only [isDigit, Bool.not_eq_true', Bool.or_eq_false_iff, decide_eq_false_iff_not,
    Char.not_lt] at digit
  obtain ⟨low, high⟩ := digit
  exact ⟨low, high⟩

/-- A numeral that is neither empty nor zero is positive. -/
theorem digitsValue_pos {arg : CString} (numeric : isNumeric arg = true) (nonempty : arg ≠ [])
    (nonzero : isZero arg = false) : 0 < digitsValue (arg.takeWhile isDigit) := by
  cases arg with
  | nil => exact absurd rfl nonempty
  | cons c rest =>
    by_cases zero : c = '0'
    · subst zero
      cases rest with
      | nil => cases nonzero
      | cons => cases numeric
    · have all : (c :: rest).all isDigit = true := by
        unfold isNumeric at numeric
        split at numeric
        · cases numeric
        · exact numeric
      rw [List.all_cons, Bool.and_eq_true] at all
      have bounds := isDigit_bounds all.1
      have different : c.toNat ≠ 48 := fun same => zero (Char.ext (UInt32.toNat_inj.mp same))
      rw [List.takeWhile_cons_of_pos all.1, digitsValue, List.foldl_cons]
      have grows := digitsValue_foldl_le (rest.takeWhile isDigit) (10 * 0 + (c.toNat - '0'.toNat))
      have offset : '0'.toNat = 48 := rfl
      omega

theorem positiveEntry_has (opt : OptionType) :
    (⟨opt, optNumeric ||| optNonZero⟩ : DiskspdOption).has optNumeric = true ∧
    (⟨opt, optNumeric ||| optNonZero⟩ : DiskspdOption).has optNonZero = true := by
  cases opt <;> exact ⟨rfl, rfl⟩

/-- A number whose option does not allow 0 is positive, unless it was 0 before. -/
theorem argToNumber_positive {options : Options} {opt : OptionType} {blockSize : UInt64}
    {ret value : UInt32} {given : Bool} (formed : options.WellFormed)
    (table : ∀ {key : Char} {option : DiskspdOption}, optMap key = some option →
      option.type = opt → option = ⟨opt, optNumeric ||| optNonZero⟩)
    (before : 0 < ret.toNat)
    (ok : options.argToNumber opt blockSize ret = .ok (given, value)) : 0 < value.toNat := by
  unfold Options.argToNumber at ok
  split at ok
  · cases ok
    exact before
  · rename_i key seen
    obtain ⟨option, entry, type⟩ := formed.recorded _ _ seen
    rw [entry, Option.getD_some, table entry type] at ok
    split_ifs at ok with empty
    · cases ok
      exact before
    · obtain ⟨number, read, ok⟩ := bind_ok.mp ok
      split_ifs at ok with large
      cases ok
      rw [DiskspdOption.number, if_pos (positiveEntry_has opt).1] at read
      cases read
      have nonempty : options.arg key ≠ [] := by simpa using empty
      rcases formed.valid key with absent | ⟨found, entryFound, valid⟩
      · exact absurd absent nonempty
      · rw [entry, Option.some.injEq] at entryFound
        rw [← entryFound, table entry type] at valid
        have positive := digitsValue_pos (valid.1 (positiveEntry_has opt).1) nonempty
          (valid.2.2 (positiveEntry_has opt).2)
        show 0 < (strtoull (options.arg key)).1.toUInt32.toNat
        simp only [NumericLimits.max, UInt64.not_lt, UInt64.le_iff_toNat_le, strtoull] at large
        simp only [strtoull, UInt64.toNat_toUInt32]
        have limit : (0xFFFFFFFF : UInt64).toNat = 2 ^ 32 - 1 := rfl
        rw [UInt64.toNat_ofNat'] at large ⊢
        omega

/-! ### The options of the targets -/

/-- The bounds on the options that every target of a command line shares. -/
structure Target.Bounded (target : Target) : Prop where
  blockSize : target.blockSize.toNat < 2 ^ 63
  baseOffset : 0 ≤ target.baseOffset.toInt
  stride : 0 ≤ target.stride.toInt
  threadOffset : 0 ≤ target.threadOffset.toInt
  overlap : 0 < target.overlap.toNat
  writePercentage : target.writePercentage.toNat ≤ 100
  interlocked : target.useInterlocked = true → target.threadOffset = 0
  exclusive : target.useRandomAlignment = true → target.useInterlocked = false

theorem toInt_toInt64_nonneg {x : UInt64} (small : x.toNat < 2 ^ 63) : 0 ≤ x.toInt64.toInt := by
  rw [toInt_toInt64_of_lt small]
  exact Int.natCast_nonneg _

theorem strideSize_nonneg {arg : CString} {blockSize : UInt64} {stride : Int64}
    (small : blockSize.toNat < 2 ^ 63) (ok : strideSize arg blockSize = .ok stride) :
    0 ≤ stride.toInt := by
  unfold strideSize at ok
  split_ifs at ok
  · cases ok
    exact toInt_toInt64_nonneg small
  · obtain ⟨_, _, ok⟩ := bind_ok.mp ok
    obtain ⟨size, read, ok⟩ := bind_ok.mp ok
    cases ok
    exact toInt_toInt64_nonneg (byteSizeFromArg_lt read)

theorem parseAccess_bounded {options : Options} {blockSize : UInt64} {access : Access}
    (small : blockSize.toNat < 2 ^ 63) (ok : parseAccess options blockSize = .ok access) :
    0 ≤ access.stride.toInt ∧
      (access.useRandomAlignment = true → access.useInterlocked = false) := by
  obtain ⟨⟨random, stride⟩, read, ok⟩ := bind_ok.mp ok
  cases random with
  | true =>
    cases ok
    refine ⟨?_, fun _ => rfl⟩
    dsimp only
    split_ifs
    · exact toInt_toInt64_nonneg small
    · exact argToNumber_off_nonneg (by decide) read
  | false =>
    simp only [Bool.false_eq_true, if_false, parseSequential] at ok
    split at ok
    · unfold parseStride at ok
      split at ok <;>
      · obtain ⟨size, read, ok⟩ := bind_ok.mp ok
        cases ok
        exact ⟨strideSize_nonneg small read, fun random => by cases random⟩
    · cases ok
      exact ⟨toInt_toInt64_nonneg small, fun random => by cases random⟩

/-- **What each option is read from**, in the job and the dummy target. -/
structure ArgumentsRead (options : Options) (job : JobOptions) (dummy : Target) : Prop where
  blockSize : ∃ given,
    options.argToNumber .blockSize 1 (64 * 1024 : UInt64) = .ok (given, dummy.blockSize)
  baseOffset : ∃ given,
    options.argToNumber .baseOffset dummy.blockSize (0 : Int64) = .ok (given, dummy.baseOffset)
  createFiles : options.argToNumber .createFiles dummy.blockSize (0 : Int64) =
    .ok (dummy.createFile, dummy.size)
  maxSize : ∃ given,
    options.argToNumber .maxSize dummy.blockSize (0 : Int64) = .ok (given, dummy.maxSize)
  duration : ∃ given, options.argToNumber .duration 0 (10 : UInt32) = .ok (given, job.duration)
  diops : options.argToNumber .diops 0 (1000 : UInt32) =
    .ok (job.measureIopsStdDev, job.ioBucketDurationMs)
  totalThreads : options.argToNumber .totalThreads 0 (0 : UInt32) =
    .ok (job.useTotalThreads, job.totalThreads)
  overlap : ∃ given, options.argToNumber .overlap 0 (2 : UInt32) = .ok (given, dummy.overlap)
  access : parseAccess options dummy.blockSize = .ok {
    stride := dummy.stride
    useRandomAlignment := dummy.useRandomAlignment
    useInterlocked := dummy.useInterlocked }
  threadOffset : ∃ strided, options.argToNumber .threadStride dummy.blockSize (0 : Int64) =
    .ok (strided, dummy.threadOffset) ∧ (strided && dummy.useInterlocked) = false
  writePercentage : ¬ 100 < dummy.writePercentage

theorem parseArguments_reads {options : Options} {job : JobOptions} {dummy : Target}
    (ok : parseArguments options = .ok (job, dummy)) : ArgumentsRead options job dummy := by
  unfold parseArguments at ok
  obtain ⟨⟨_, blockSize⟩, readBlock, ok⟩ := bind_ok.mp ok
  obtain ⟨⟨_, baseOffset⟩, readBase, ok⟩ := bind_ok.mp ok
  obtain ⟨⟨createFile, size⟩, readCreate, ok⟩ := bind_ok.mp ok
  obtain ⟨⟨_, duration⟩, readDuration, ok⟩ := bind_ok.mp ok
  obtain ⟨⟨measure, bucket⟩, readBucket, ok⟩ := bind_ok.mp ok
  obtain ⟨⟨_, maxSize⟩, readMax, ok⟩ := bind_ok.mp ok
  obtain ⟨⟨useTotal, total⟩, readTotal, ok⟩ := bind_ok.mp ok
  obtain ⟨_, _, ok⟩ := bind_ok.mp ok
  obtain ⟨⟨_, maxThroughput⟩, _, ok⟩ := bind_ok.mp ok
  obtain ⟨⟨_, overlap⟩, readOverlap, ok⟩ := bind_ok.mp ok
  obtain ⟨access, readAccess, ok⟩ := bind_ok.mp ok
  obtain ⟨openFlags, _, ok⟩ := bind_ok.mp ok
  obtain ⟨⟨_, threadsPerTarget⟩, _, ok⟩ := bind_ok.mp ok
  obtain ⟨⟨strided, threadOffset⟩, readThread, ok⟩ := bind_ok.mp ok
  obtain ⟨_, exclusive, ok⟩ := bind_ok.mp ok
  obtain ⟨⟨_, write⟩, _, ok⟩ := bind_ok.mp ok
  obtain ⟨_, percentage, ok⟩ := bind_ok.mp ok
  obtain ⟨⟨_, warmup⟩, _, ok⟩ := bind_ok.mp ok
  obtain ⟨engine, _, ok⟩ := bind_ok.mp ok
  obtain ⟨⟨_, seed⟩, _, ok⟩ := bind_ok.mp ok
  obtain ⟨buffers, _, ok⟩ := bind_ok.mp ok
  obtain ⟨_, _, ok⟩ := bind_ok.mp ok
  cases ok
  rw [rejectIf_ok] at exclusive percentage
  exact {
    blockSize := ⟨_, readBlock⟩
    baseOffset := ⟨_, readBase⟩
    createFiles := readCreate
    maxSize := ⟨_, readMax⟩
    duration := ⟨_, readDuration⟩
    diops := readBucket
    totalThreads := readTotal
    overlap := ⟨_, readOverlap⟩
    access := readAccess
    threadOffset := ⟨strided, readThread, exclusive⟩
    writePercentage := of_decide_eq_false percentage }

theorem ArgumentsRead.bounded {options : Options} {job : JobOptions} {dummy : Target}
    (reads : ArgumentsRead options job dummy) (formed : options.WellFormed) : dummy.Bounded := by
  obtain ⟨_, readBlock⟩ := reads.blockSize
  obtain ⟨_, readBase⟩ := reads.baseOffset
  obtain ⟨_, readOverlap⟩ := reads.overlap
  obtain ⟨strided, readThread, exclusive⟩ := reads.threadOffset
  have small : dummy.blockSize.toNat < 2 ^ 63 :=
    argToNumber_blockSize_lt formed (by decide) readBlock
  obtain ⟨strideBound, accessExclusive⟩ := parseAccess_bounded small reads.access
  exact {
    blockSize := small
    baseOffset := argToNumber_off_nonneg (by decide) readBase
    stride := strideBound
    threadOffset := argToNumber_off_nonneg (by decide) readThread
    overlap := argToNumber_positive formed optMap_overlap (by decide) readOverlap
    writePercentage := by
      have percentage := reads.writePercentage
      simp only [UInt32.not_lt, UInt32.le_iff_toNat_le] at percentage
      exact percentage
    interlocked := fun interlocked => by
      have notStrided : strided = false := by
        rwa [interlocked, Bool.and_true] at exclusive
      subst notStrided
      exact argToNumber_not_given readThread
    exclusive := accessExclusive }

/-! ### Accepted targets -/

/-- **An accepted target.** The bounds of the options, and a region that holds one block. -/
structure Target.Accepted (target : Target) : Prop extends target.Bounded where
  fits : target.baseOffset.toInt + target.blockSize.toNat ≤ target.maxSize.toInt
  nonempty : target.baseOffset.toInt < target.maxSize.toInt
  interlockedOffset : target.useInterlocked = true → target.interlockedOffset = target.baseOffset

/-- The target takes the options of every target from the dummy. -/
structure Target.SameOptions (target dummy : Target) : Prop where
  blockSize : target.blockSize = dummy.blockSize
  baseOffset : target.baseOffset = dummy.baseOffset
  stride : target.stride = dummy.stride
  useRandomAlignment : target.useRandomAlignment = dummy.useRandomAlignment
  useInterlocked : target.useInterlocked = dummy.useInterlocked
  overlap : target.overlap = dummy.overlap

/-- The unsigned size check leaves room for one block over the integers. -/
theorem room_of_check {base max : Int64} {block : UInt64} (nonneg : 0 ≤ base.toInt)
    (room : ¬ (max - base).toUInt64 < block) (above : ¬ max ≤ base) :
    base.toInt + block.toNat ≤ max.toInt ∧ base.toInt < max.toInt := by
  rw [UInt64.lt_iff_toNat_lt] at room
  rw [Int64.le_iff_toInt_le] at above
  have difference := toNat_toUInt64 (max - base)
  have bounds := toInt_bounds max
  rw [toInt_sub] at difference
  omega

theorem setUpTarget_accepted {dummy target : Target} {path : CString} {stat : Stat}
    (bounded : dummy.Bounded) (ok : setUpTarget dummy path stat = .ok target) :
    target.Accepted ∧ target.SameOptions dummy := by
  obtain ⟨⟨size, createFile⟩, _, ok⟩ := bind_ok.mp ok
  obtain ⟨_, _, ok⟩ := bind_ok.mp ok
  obtain ⟨_, checked, ok⟩ := bind_ok.mp ok
  cases ok
  simp only [rejectIf_ok, Bool.or_eq_false_iff, decide_eq_false_iff_not] at checked
  obtain ⟨fits, nonempty⟩ := room_of_check bounded.baseOffset checked.1 checked.2
  refine ⟨{
    blockSize := bounded.blockSize
    baseOffset := bounded.baseOffset
    stride := bounded.stride
    threadOffset := bounded.threadOffset
    overlap := bounded.overlap
    writePercentage := bounded.writePercentage
    interlocked := bounded.interlocked
    exclusive := bounded.exclusive
    fits := fits
    nonempty := nonempty
    interlockedOffset := fun interlocked => if_pos interlocked }, ⟨rfl, rfl, rfl, rfl, rfl, rfl⟩⟩

theorem setUpTargets_accepted {dummy : Target} {stat : CString → Stat} {paths : List CString}
    {targets : List Target} (bounded : dummy.Bounded)
    (ok : setUpTargets dummy stat paths = .ok targets) :
    ∀ target ∈ targets, target.Accepted ∧ target.SameOptions dummy := by
  induction paths generalizing targets with
  | nil =>
    cases ok
    exact fun _ member => by cases member
  | cons path paths ih =>
    obtain ⟨first, here, ok⟩ := bind_ok.mp ok
    obtain ⟨others, rest, ok⟩ := bind_ok.mp ok
    cases ok
    intro target member
    rcases List.mem_cons.mp member with rfl | member
    · exact setUpTarget_accepted bounded here
    · exact ih rest target member

theorem setUpTargets_length {dummy : Target} {stat : CString → Stat} {paths : List CString}
    {targets : List Target} (ok : setUpTargets dummy stat paths = .ok targets) :
    targets.length = paths.length := by
  induction paths generalizing targets with
  | nil =>
    cases ok
    rfl
  | cons path paths ih =>
    obtain ⟨target, _, ok⟩ := bind_ok.mp ok
    obtain ⟨rest, there, ok⟩ := bind_ok.mp ok
    cases ok
    exact congrArg Nat.succ (ih there)

/-- **The options and targets of an accepted command line**: what argp recorded, one dummy that every
target takes its options from, and the thread count. -/
theorem parseCommandLine_reads {calls : List (Key × Option CString)} {stat : CString → Stat}
    {job : JobOptions} (ok : parseCommandLine calls stat = .ok job) :
    ∃ options dummy given, Options.parseArgs calls {} = .ok options ∧
      ArgumentsRead options { job with totalThreads := given } dummy ∧ job.targets ≠ [] ∧
      (∀ target ∈ job.targets, target.Accepted ∧ target.SameOptions dummy) ∧
      job.totalThreads = countThreads { job with totalThreads := given } job.targets := by
  unfold parseCommandLine at ok
  split at ok
  · cases ok
  · rename_i options parsed
    obtain ⟨_, some, ok⟩ := bind_ok.mp ok
    obtain ⟨⟨jobOptions, dummy⟩, read, ok⟩ := bind_ok.mp ok
    obtain ⟨targets, set, ok⟩ := bind_ok.mp ok
    cases ok
    have reads := parseArguments_reads read
    have formed := parseArgs_wellFormed fresh_wellFormed parsed
    refine ⟨options, dummy, jobOptions.totalThreads, parsed, { reads with }, fun none => ?_,
      setUpTargets_accepted (reads.bounded formed) set, rfl⟩
    have length := setUpTargets_length set
    dsimp only at none
    rw [none, List.length_nil] at length
    rw [rejectIf_ok, List.length_eq_zero_iff.mp length.symm] at some
    cases some

/-- **The options of an accepted job**: a duration, at least one target, and the thread count. -/
theorem parseCommandLine_job {calls : List (Key × Option CString)} {stat : CString → Stat}
    {job : JobOptions} (ok : parseCommandLine calls stat = .ok job) :
    0 < job.duration.toNat ∧ job.targets ≠ [] ∧ (job.useTotalThreads = false →
      job.totalThreads.toNat =
        (job.targets.map fun target => target.threadsPerTarget.toNat).sum % 2 ^ 32) := by
  obtain ⟨options, dummy, given, parsed, reads, nonempty, _, count⟩ := parseCommandLine_reads ok
  obtain ⟨_, readDuration⟩ := reads.duration
  refine ⟨argToNumber_positive (parseArgs_wellFormed fresh_wellFormed parsed) optMap_duration
    (by decide) readDuration, nonempty, fun mode => ?_⟩
  have readTotal := reads.totalThreads
  dsimp only at readTotal
  rw [mode] at readTotal
  unfold countThreads at count
  dsimp only at count
  rw [mode, if_neg Bool.false_ne_true, argToNumber_not_given readTotal] at count
  rw [count, toNat_foldl_add]
  exact congrArg (· % 2 ^ 32) (Nat.zero_add _)

/-- **The targets of an accepted command line** are accepted, and share one dummy's options. -/
theorem parseCommandLine_targets {calls : List (Key × Option CString)} {stat : CString → Stat}
    {job : JobOptions} (ok : parseCommandLine calls stat = .ok job) :
    ∃ dummy, ∀ target ∈ job.targets, target.Accepted ∧ target.SameOptions dummy := by
  obtain ⟨_, dummy, _, _, _, _, targets, _⟩ := parseCommandLine_reads ok
  exact ⟨dummy, targets⟩

theorem parseCommandLine_accepted {calls : List (Key × Option CString)} {stat : CString → Stat}
    {job : JobOptions} (ok : parseCommandLine calls stat = .ok job) :
    ∀ target ∈ job.targets, target.Accepted := by
  obtain ⟨dummy, all⟩ := parseCommandLine_targets ok
  exact fun target member => (all target member).1

end DiskSpd
