/-
**The size of the files that are created.**

* `SizesRead` — the sizes that `-c`, `-f` and `-B` denote; `FromSizes` — what they make of a target.
* `setUpFiles_frame`, `setUpFiles_last` — a file is as the last target of its path leaves it.
* `toInt_size_layOut` — a layout that succeeds leaves a file as long as the maximum size, or shorter
  by the base offset where the seek failed.
* `FilesRight` — each file has at least the size recorded for its target, so the same options
  reuse it.
* `createdFiles_iff` — this holds unless a file is laid out with an `-f` below `-c`, or after a seek
  that failed.
-/

import DiskSpd.Proof.Accepted
import DiskSpd.Proof.Layout
import Mathlib.Data.List.Induction

namespace DiskSpd

open MachineWord

/-- The last entry of a list with a property. -/
theorem exists_last {α : Type*} {P : α → Prop} {xs : List α} (some : ∃ x ∈ xs, P x) :
    ∃ before x later, xs = before ++ x :: later ∧ P x ∧ ∀ y ∈ later, ¬ P y := by
  induction xs using List.reverseRecOn with
  | nil =>
    obtain ⟨_, member, _⟩ := some
    cases member
  | append_singleton xs x ih =>
    by_cases here : P x
    · exact ⟨xs, x, [], rfl, here, List.forall_mem_nil _⟩
    · obtain ⟨y, member, holds⟩ := some
      have earlier : y ∈ xs := by
        rcases List.mem_append.mp member with earlier | last
        · exact earlier
        · exact absurd (List.mem_singleton.mp last ▸ holds) here
      obtain ⟨before, z, later, rfl, found, none⟩ := ih ⟨y, earlier, holds⟩
      refine ⟨before, z, later ++ [x], by rw [List.append_assoc, List.cons_append], found, ?_⟩
      exact List.forall_mem_append.mpr ⟨none, List.forall_mem_singleton.mpr here⟩

/-! ### The options -/

/-- **The sizes of `-c`, `-f` and `-B`**, blocks counted with the size of `-b`. Without `-f` or `-B`
they are 0. -/
structure SizesRead (options : Options) (create max base : Int64) : Prop where
  read : ∃ blockSize givenBlock,
    options.argToNumber .blockSize 1 (64 * 1024 : UInt64) = .ok (givenBlock, blockSize) ∧
    options.argToNumber .createFiles blockSize (0 : Int64) = .ok (true, create) ∧
    (∃ givenMax, options.argToNumber .maxSize blockSize (0 : Int64) = .ok (givenMax, max)) ∧
    ∃ givenBase, options.argToNumber .baseOffset blockSize (0 : Int64) = .ok (givenBase, base)

/-- The dummy target has the sizes of the options. -/
structure Target.HasSizes (dummy : Target) (create max base : Int64) : Prop where
  createFile : dummy.createFile = true
  size : dummy.size = create
  maxSize : dummy.maxSize = max
  baseOffset : dummy.baseOffset = base

theorem parseArguments_sizes {options : Options} {job : JobOptions} {dummy : Target}
    {create max base : Int64} (sizes : SizesRead options create max base)
    (ok : parseArguments options = .ok (job, dummy)) : dummy.HasSizes create max base := by
  have reads := parseArguments_reads ok
  obtain ⟨blockSize, _, block, created, ⟨_, maximum⟩, ⟨_, based⟩⟩ := sizes.read
  obtain ⟨_, readBlock⟩ := reads.blockSize
  obtain ⟨_, readBase⟩ := reads.baseOffset
  obtain ⟨_, readMax⟩ := reads.maxSize
  have readCreate := reads.createFiles
  rw [block, Except.ok.injEq, Prod.mk.injEq] at readBlock
  rw [← readBlock.2] at readBase readMax readCreate
  rw [based, Except.ok.injEq, Prod.mk.injEq] at readBase
  rw [maximum, Except.ok.injEq, Prod.mk.injEq] at readMax
  rw [created, Except.ok.injEq, Prod.mk.injEq] at readCreate
  exact ⟨readCreate.1.symm, readCreate.2.symm, readMax.2.symm, readBase.2.symm⟩

/-- The file of a path exists and is large enough. -/
def Reusable (create : Int64) (stat : CString → Stat) (path : CString) : Prop :=
  ∃ size, stat path = .file size ∧ create ≤ size

/-- **A target of a job with `-c`.** -/
structure Target.FromSizes (target : Target) (create max base : Int64) (stat : CString → Stat) :
    Prop where
  size : target.size = create
  maxSize : target.maxSize = if max = 0 then create else max
  baseOffset : target.baseOffset = base
  createFile : target.createFile = true ↔ ¬ Reusable create stat target.path
  within : target.maxSize ≤ create

section Targets

variable {dummy target : Target} {create max base : Int64} {stat stat' : CString → Stat}
  {path : CString}

/-- What a path's state says about a target with `-c`. -/
theorem targetSize_create (sizes : dummy.HasSizes create max base) {size : Int64}
    {createFile : Bool} (ok : targetSize dummy path (stat path) = .ok (size, createFile)) :
    size = create ∧ (createFile = true ↔ ¬ Reusable create stat path) := by
  unfold targetSize at ok
  unfold Reusable
  rw [sizes.createFile, sizes.size] at ok
  cases state : stat path with
  | failed _ =>
    rw [state] at ok
    cases ok
  | noEntry =>
    rw [state] at ok
    cases ok
    exact ⟨rfl, fun _ => nofun, fun _ => rfl⟩
  | device _ =>
    rw [state] at ok
    cases ok
  | file stSize =>
    rw [state] at ok
    cases ok
    refine ⟨rfl, ?_⟩
    simp only [Bool.not_eq_true', decide_eq_false_iff_not, Stat.file.injEq, exists_eq_left']

theorem setUpTarget_fromSizes (sizes : dummy.HasSizes create max base)
    (ok : setUpTarget dummy path (stat path) = .ok target) :
    target.path = path ∧ target.FromSizes create max base stat := by
  obtain ⟨⟨size, createFile⟩, sized, ok⟩ := bind_ok.mp ok
  obtain ⟨_, within, ok⟩ := bind_ok.mp ok
  obtain ⟨_, _, ok⟩ := bind_ok.mp ok
  cases ok
  obtain ⟨rfl, created⟩ := targetSize_create sizes sized
  rw [rejectIf_ok, decide_eq_false_iff_not] at within
  refine ⟨rfl, rfl, ?_, sizes.baseOffset, created, Int64.not_lt.mp within⟩
  show (if dummy.maxSize = 0 then size else dummy.maxSize) = _
  rw [sizes.maxSize]

/-- Where the file is large enough the same options set the target up again, without `create_file`. -/
theorem setUpTarget_again (sizes : dummy.HasSizes create max base)
    (ok : setUpTarget dummy path (stat path) = .ok target)
    (reusable : Reusable create stat' path) :
    setUpTarget dummy path (stat' path) = .ok { target with createFile := false } := by
  obtain ⟨⟨size, createFile⟩, sized, ok⟩ := bind_ok.mp ok
  obtain ⟨_, within, ok⟩ := bind_ok.mp ok
  obtain ⟨_, room, ok⟩ := bind_ok.mp ok
  cases ok
  obtain ⟨rfl, _⟩ := targetSize_create sizes sized
  obtain ⟨stSize, state, large⟩ := reusable
  have again : targetSize dummy path (stat' path) = .ok (size, false) := by
    unfold targetSize
    rw [state, sizes.createFile, sizes.size]
    simp only [if_true, decide_eq_true large, Bool.not_true]
  unfold setUpTarget
  exact bind_ok.mpr ⟨_, again, bind_ok.mpr ⟨(), within, bind_ok.mpr ⟨(), room, rfl⟩⟩⟩

theorem setUpTargets_again (sizes : dummy.HasSizes create max base) {paths : List CString}
    {targets : List Target} (ok : setUpTargets dummy stat paths = .ok targets)
    (reusable : ∀ path ∈ paths, Reusable create stat' path) :
    ∃ again, setUpTargets dummy stat' paths = .ok again ∧
      ∀ target ∈ again, target.createFile = false := by
  induction paths generalizing targets with
  | nil => exact ⟨[], rfl, List.forall_mem_nil _⟩
  | cons path paths ih =>
    obtain ⟨first, here, ok⟩ := bind_ok.mp ok
    obtain ⟨others, there, ok⟩ := bind_ok.mp ok
    obtain ⟨now, later⟩ := List.forall_mem_cons.mp reusable
    obtain ⟨again, more, kept⟩ := ih there later
    exact ⟨_ :: again, bind_ok.mpr ⟨_, setUpTarget_again sizes here now, bind_ok.mpr ⟨_, more, rfl⟩⟩,
      List.forall_mem_cons.mpr ⟨rfl, kept⟩⟩

theorem setUpTargets_fromSizes (sizes : dummy.HasSizes create max base) {paths : List CString}
    {targets : List Target} (ok : setUpTargets dummy stat paths = .ok targets) :
    targets.map Target.path = paths ∧
      ∀ target ∈ targets, target.FromSizes create max base stat := by
  induction paths generalizing targets with
  | nil =>
    cases ok
    exact ⟨rfl, List.forall_mem_nil _⟩
  | cons path paths ih =>
    obtain ⟨first, here, ok⟩ := bind_ok.mp ok
    obtain ⟨others, there, ok⟩ := bind_ok.mp ok
    cases ok
    obtain ⟨isPath, from'⟩ := setUpTarget_fromSizes sizes here
    obtain ⟨paths', others'⟩ := ih there
    refine ⟨?_, List.forall_mem_cons.mpr ⟨from', others'⟩⟩
    rw [List.map_cons, isPath, paths']

end Targets

/-! ### The set-up of the files -/

section SetUp

variable {job : JobOptions} {target : Target} {calls : SystemCalls}
  {laid : List (Target × SystemCalls)} {stat next after : CString → Stat} {path : CString}

/-- A set-up that succeeds leaves every other file as it is, and its own too unless it lays it out. -/
theorem setUpFile_ok (ok : setUpFile job target calls stat = .ok next) :
    (target.createFile = false ∧ next = stat) ∨
      (target.createFile = true ∧ (target.layOut calls).1 = true ∧ next =
        Function.update stat target.path (.file (target.layOut calls).2.fd.file.size)) := by
  obtain ⟨_, _, ok⟩ := bind_ok.mp ok
  cases create : target.createFile with
  | false =>
    rw [create, if_neg Bool.false_ne_true] at ok
    cases ok
    exact Or.inl ⟨rfl, rfl⟩
  | true =>
    rw [create, if_pos rfl] at ok
    obtain ⟨_, _, ok⟩ := bind_ok.mp ok
    obtain ⟨_, _, ok⟩ := bind_ok.mp ok
    obtain ⟨_, succeeds, ok⟩ := bind_ok.mp ok
    cases ok
    rw [rejectIf_ok, Bool.not_eq_false'] at succeeds
    exact Or.inr ⟨rfl, succeeds, rfl⟩

/-- **Frame.** A path none of whose targets is laid out keeps its file. -/
theorem setUpFiles_frame (ok : setUpFiles job laid stat = .ok after)
    (others : ∀ pair ∈ laid, pair.1.path = path → pair.1.createFile = false) :
    after path = stat path := by
  induction laid generalizing stat with
  | nil =>
    cases ok
    rfl
  | cons pair rest ih =>
    obtain ⟨here, later⟩ := List.forall_mem_cons.mp others
    obtain ⟨next, done, ok⟩ := bind_ok.mp ok
    rw [ih ok later]
    rcases setUpFile_ok done with ⟨_, rfl⟩ | ⟨created, _, rfl⟩
    · rfl
    · refine Function.update_of_ne (fun same => ?_) _ _
      rw [here same.symm] at created
      cases created

theorem setUpFiles_append {before later : List (Target × SystemCalls)}
    (ok : setUpFiles job (before ++ later) stat = .ok after) :
    ∃ next, setUpFiles job before stat = .ok next ∧ setUpFiles job later next = .ok after := by
  induction before generalizing stat with
  | nil => exact ⟨stat, rfl, ok⟩
  | cons pair before ih =>
    obtain ⟨next, done, ok⟩ := bind_ok.mp ok
    obtain ⟨middle, more, rest⟩ := ih ok
    exact ⟨middle, bind_ok.mpr ⟨next, done, more⟩, rest⟩

/-- **A file is as the last target of its path leaves it.** -/
theorem setUpFiles_last {before later : List (Target × SystemCalls)}
    (ok : setUpFiles job (before ++ (target, calls) :: later) stat = .ok after)
    (last : ∀ other ∈ later, other.1.path ≠ target.path) (created : target.createFile = true) :
    (target.layOut calls).1 = true ∧
      after target.path = .file (target.layOut calls).2.fd.file.size := by
  obtain ⟨middle, _, ok⟩ := setUpFiles_append ok
  obtain ⟨next, here, ok⟩ := bind_ok.mp ok
  have kept : after target.path = next target.path :=
    setUpFiles_frame ok fun other member same => absurd same (last other member)
  rcases setUpFile_ok here with ⟨notCreated, _⟩ | ⟨_, succeeds, rfl⟩
  · rw [created] at notCreated
    cases notCreated
  · exact ⟨succeeds, kept.trans (Function.update_self _ _ _)⟩

end SetUp

/-- **The size of a file just laid out.** -/
theorem toInt_size_layOut {target : Target} {calls : SystemCalls} (fillable : target.Fillable)
    (succeeds : (target.layOut calls).1 = true) :
    (target.layOut calls).2.fd.file.size.toInt =
      target.fillStart calls + (target.maxSize.toInt - target.baseOffset.toInt) := by
  obtain ⟨last, filled, whole, _⟩ := layOut_filled fillable calls
  have complete := whole succeeds
  have below := fillable.below
  rw [filled.size, complete, if_neg (by omega)]

/-! ### After the set-up -/

/-- **The files have their sizes**: each has at least the size recorded for its target, and the same
options are accepted again and create no file. -/
structure FilesRight (options : Options) (job : JobOptions) (after : CString → Stat) : Prop where
  size : ∀ target ∈ job.targets, ∃ size, after target.path = .file size ∧ target.size ≤ size
  reused : ∃ again, parseOptions options after = .ok again ∧
    ∀ target ∈ again.targets, target.createFile = false

/-- **The files are laid out to their sizes**: where a file has to be laid out, `-f` is absent or the
size of `-c`, and the last seek to the base offset works, or is to 0. -/
def LaidOutWhole (create max base : Int64) (stat : CString → Stat)
    (laid : List (Target × SystemCalls)) : Prop :=
  ∀ before target calls later, laid = before ++ (target, calls) :: later →
    (∀ other ∈ later, other.1.path ≠ target.path) → ¬ Reusable create stat target.path →
    (max = 0 ∨ max = create) ∧ (calls.sought = true ∨ base = 0)

/-- When a file just laid out is large enough. -/
theorem le_size_layOut_iff {target : Target} {calls : SystemCalls} {create max base : Int64}
    {stat : CString → Stat} (sizes : target.FromSizes create max base stat)
    (fillable : target.Fillable) (succeeds : (target.layOut calls).1 = true) :
    create ≤ (target.layOut calls).2.fd.file.size ↔
      (max = 0 ∨ max = create) ∧ (calls.sought = true ∨ base = 0) := by
  have size := toInt_size_layOut fillable succeeds
  have within := Int64.le_iff_toInt_le.mp sizes.within
  have whole : target.maxSize.toInt = create.toInt ↔ max = 0 ∨ max = create := by
    rw [Int64.toInt_inj, sizes.maxSize]
    split_ifs with none
    · exact ⟨fun _ => Or.inl none, fun _ => rfl⟩
    · exact (or_iff_right none).symm
  have started : target.fillStart calls = target.baseOffset.toInt ↔
      calls.sought = true ∨ base = 0 := by
    unfold Target.fillStart
    split_ifs with sought
    · exact ⟨fun _ => Or.inl sought, fun _ => rfl⟩
    · rw [or_iff_right sought, ← sizes.baseOffset, ← Int64.toInt_inj, Int64.toInt_zero, eq_comm]
  have low := fillable.nonneg
  have most : target.fillStart calls ≤ target.baseOffset.toInt := by
    unfold Target.fillStart
    split_ifs
    · exact le_rfl
    · exact low
  rw [Int64.le_iff_toInt_le, size, ← whole, ← started]
  omega

/-- What an accepted command line with `-c` says about its targets. -/
theorem parseCommandLine_fromSizes {calls : List (Key × Option CString)} {options : Options}
    {stat : CString → Stat} {job : JobOptions} {create max base : Int64}
    (parsed : Options.parseArgs calls {} = .ok options) (sizes : SizesRead options create max base)
    (ok : parseCommandLine calls stat = .ok job) :
    job.targets.map Target.path = options.nonOpts ∧
      ∀ target ∈ job.targets, target.FromSizes create max base stat ∧ target.Fillable := by
  have accepted := parseCommandLine_accepted ok
  unfold parseCommandLine at ok
  rw [parsed] at ok
  obtain ⟨_, _, ok⟩ := bind_ok.mp ok
  obtain ⟨⟨jobOptions, dummy⟩, read, ok⟩ := bind_ok.mp ok
  obtain ⟨targets, set, ok⟩ := bind_ok.mp ok
  cases ok
  obtain ⟨paths, from'⟩ := setUpTargets_fromSizes (parseArguments_sizes sizes read) set
  exact ⟨paths, fun target member =>
    ⟨from' target member, (accepted target member).baseOffset, (accepted target member).nonempty⟩⟩

/-- The same options are accepted again where every file is large enough, and create none. -/
theorem parseOptions_again {calls : List (Key × Option CString)} {options : Options}
    {stat after : CString → Stat} {job : JobOptions} {create max base : Int64}
    (parsed : Options.parseArgs calls {} = .ok options) (sizes : SizesRead options create max base)
    (ok : parseCommandLine calls stat = .ok job)
    (reusable : ∀ path ∈ options.nonOpts, Reusable create after path) :
    ∃ again, parseOptions options after = .ok again ∧
      ∀ target ∈ again.targets, target.createFile = false := by
  unfold parseCommandLine at ok
  rw [parsed] at ok
  obtain ⟨_, some, ok⟩ := bind_ok.mp ok
  obtain ⟨⟨jobOptions, dummy⟩, read, ok⟩ := bind_ok.mp ok
  obtain ⟨targets, set, ok⟩ := bind_ok.mp ok
  obtain ⟨again, more, kept⟩ := setUpTargets_again (parseArguments_sizes sizes read) set reusable
  exact ⟨_, bind_ok.mpr ⟨_, some, bind_ok.mpr ⟨_, read, bind_ok.mpr ⟨_, more, rfl⟩⟩⟩, kept⟩

section Files

variable {create max base : Int64} {stat after : CString → Stat} {job : JobOptions}
  {laid : List (Target × SystemCalls)}

/-- Where the files are laid out to their sizes each is large enough afterwards. -/
theorem reusable_of_laidOutWhole (done : setUpFiles job laid stat = .ok after)
    (ofPair : ∀ pair ∈ laid, pair.1.FromSizes create max base stat ∧ pair.1.Fillable)
    (whole : LaidOutWhole create max base stat laid) :
    ∀ pair ∈ laid, Reusable create after pair.1.path := by
  intro pair inLaid
  by_cases prior : Reusable create stat pair.1.path
  · -- no target of this path is laid out
    obtain ⟨size, state, enough⟩ := prior
    refine ⟨size, (setUpFiles_frame done fun other inLaid' same => ?_).trans state, enough⟩
    rw [← Bool.not_eq_true, (ofPair other inLaid').1.createFile, not_not, same]
    exact ⟨size, state, enough⟩
  · obtain ⟨before, ⟨other, calls⟩, later, rfl, same, last⟩ := exists_last
      (P := fun other : Target × SystemCalls => other.1.path = pair.1.path) ⟨pair, inLaid, rfl⟩
    obtain ⟨fromSizes, fillable⟩ := ofPair (other, calls)
      (List.mem_append_right _ List.mem_cons_self)
    rw [← same] at prior last ⊢
    obtain ⟨succeeds, state⟩ := setUpFiles_last done last (fromSizes.createFile.mpr prior)
    exact ⟨_, state, (le_size_layOut_iff fromSizes fillable succeeds).mpr
      (whole before other calls later rfl last prior)⟩

/-- Where each file has the size of its target, the last target of a path laid it out whole. -/
theorem laidOutWhole_of_size (done : setUpFiles job laid stat = .ok after)
    (ofPair : ∀ pair ∈ laid, pair.1.FromSizes create max base stat ∧ pair.1.Fillable)
    (large : ∀ pair ∈ laid, ∃ size, after pair.1.path = .file size ∧ pair.1.size ≤ size) :
    LaidOutWhole create max base stat laid := by
  rintro before target calls later rfl last toCreate
  have member : (target, calls) ∈ before ++ (target, calls) :: later :=
    List.mem_append_right _ List.mem_cons_self
  obtain ⟨fromSizes, fillable⟩ := ofPair _ member
  obtain ⟨succeeds, state⟩ := setUpFiles_last done last (fromSizes.createFile.mpr toCreate)
  obtain ⟨size, state', enough⟩ := large _ member
  rw [state, Stat.file.injEq] at state'
  rw [fromSizes.size, ← state'] at enough
  exact (le_size_layOut_iff fromSizes fillable succeeds).mp enough

end Files

/-- **Created files have their sizes**, unless a file is laid out with an `-f` below `-c`, or the last
seek in it fails. -/
theorem createdFiles_iff {calls : List (Key × Option CString)} {options : Options}
    {stat after : CString → Stat} {job : JobOptions} {create max base : Int64}
    {laid : List (Target × SystemCalls)}
    (parsed : Options.parseArgs calls {} = .ok options) (sizes : SizesRead options create max base)
    (ok : parseCommandLine calls stat = .ok job) (targets : laid.map Prod.fst = job.targets)
    (done : setUpFiles job laid stat = .ok after) :
    FilesRight options job after ↔ LaidOutWhole create max base stat laid := by
  obtain ⟨paths, fromOptions⟩ := parseCommandLine_fromSizes parsed sizes ok
  have ofPair : ∀ pair ∈ laid, pair.1.FromSizes create max base stat ∧ pair.1.Fillable :=
    fun pair member => fromOptions pair.1 (targets ▸ List.mem_map_of_mem member)
  constructor
  · intro right
    exact laidOutWhole_of_size done ofPair fun pair member =>
      right.size pair.1 (targets ▸ List.mem_map_of_mem member)
  · intro whole
    have reusable : ∀ target ∈ job.targets, Reusable create after target.path := by
      intro target member
      obtain ⟨pair, inLaid, rfl⟩ := List.mem_map.mp (targets ▸ member)
      exact reusable_of_laidOutWhole done ofPair whole pair inLaid
    refine ⟨fun target member => ?_, parseOptions_again parsed sizes ok fun path member => ?_⟩
    · obtain ⟨size, state, enough⟩ := reusable target member
      exact ⟨size, state, (fromOptions target member).1.size ▸ enough⟩
    · obtain ⟨target, inTargets, rfl⟩ := List.mem_map.mp (paths ▸ member)
      exact reusable target inTargets

/-- `-c1M -f76K -B12K a` -/
def smallerCalls : List (Key × Option CString) :=
  [(.option 'c', some "1M".toList), (.option 'f', some "76K".toList),
    (.option 'B', some "12K".toList), (.keyArg, some ['a'])]

/-- `-c1M -B12K a` -/
def wholeCalls : List (Key × Option CString) :=
  [(.option 'c', some "1M".toList), (.option 'B', some "12K".toList), (.keyArg, some ['a'])]

/-- The target of these calls, without a file. -/
def createdTarget (maxSize : Int64) : Target where
  path := ['a']
  size := 1048576
  createFile := true
  baseOffset := 12288
  maxSize := maxSize

def createdJob (maxSize : Int64) : JobOptions where
  totalThreads := 1
  targets := [createdTarget maxSize]

/-- The set-up where every call works. -/
theorem createdJob_setUp (maxSize : Int64)
    (checked : (createdTarget maxSize).checkSetUp 1 = .ok ()) :
    setUpFiles (createdJob maxSize) [(createdTarget maxSize, allWork)] (fun _ => .noEntry) =
      .ok (Function.update (fun _ => .noEntry) ['a']
        (.file ((createdTarget maxSize).layOut allWork).2.fd.file.size)) := by
  have succeeds : ((createdTarget maxSize).layOut allWork).1 = true :=
    fillLoop_succeeds _ (fun _ => rfl) 0 _
  refine bind_ok.mpr ⟨_, bind_ok.mpr ⟨(), checked, ?_⟩, rfl⟩
  show createTarget (createdTarget maxSize) allWork (fun _ => .noEntry) = _
  rw [createTarget, succeeds]
  rfl

/-- `-c1M -B12K` lays out a file of 1 MiB. -/
theorem wholeCalls_right : ∃ options job after,
    parseCommandLine wholeCalls (fun _ => .noEntry) = .ok job ∧
      setUpFiles job [(createdTarget 1048576, allWork)] (fun _ => .noEntry) = .ok after ∧
      FilesRight options job after := by
  obtain ⟨options, parsed⟩ : ∃ options, Options.parseArgs wholeCalls {} = .ok options := ⟨_, rfl⟩
  have sizes : SizesRead options 1048576 0 12288 := by
    cases parsed
    exact ⟨65536, false, rfl, rfl, ⟨false, rfl⟩, ⟨true, rfl⟩⟩
  have accepted : parseCommandLine wholeCalls (fun _ => .noEntry) = .ok (createdJob 1048576) := rfl
  have done := createdJob_setUp 1048576 rfl
  refine ⟨options, _, _, accepted, done, (createdFiles_iff parsed sizes accepted rfl done).mpr ?_⟩
  intro before target calls later split _ _
  have only : (target, calls) ∈ [(createdTarget 1048576, allWork)] :=
    split ▸ List.mem_append_right _ List.mem_cons_self
  cases List.mem_singleton.mp only
  exact ⟨Or.inl rfl, Or.inl rfl⟩

/-- **`-c1M -f76K -B12K`** lays out a file of 76 KiB, and the same options do not reuse it. -/
theorem smallerCalls_not_right : ∃ options after,
    Options.parseArgs smallerCalls {} = .ok options ∧
      parseCommandLine smallerCalls (fun _ => .noEntry) = .ok (createdJob 77824) ∧
      setUpFiles (createdJob 77824) [(createdTarget 77824, allWork)] (fun _ => .noEntry) =
        .ok after ∧
      after ['a'] = .file 77824 ∧ ¬ FilesRight options (createdJob 77824) after := by
  have fillable : (createdTarget 77824).Fillable := ⟨by decide, by decide⟩
  have succeeds : ((createdTarget 77824).layOut allWork).1 = true :=
    fillLoop_succeeds _ (fun _ => rfl) 0 _
  have size : ((createdTarget 77824).layOut allWork).2.fd.file.size = 77824 :=
    Int64.toInt_inj.mp (toInt_size_layOut fillable succeeds)
  have done := createdJob_setUp 77824 rfl
  rw [size] at done
  refine ⟨_, _, rfl, rfl, done, rfl, fun right => ?_⟩
  obtain ⟨found, state, large⟩ := right.size (createdTarget 77824) (List.mem_singleton.mpr rfl)
  cases state
  exact absurd large (by decide)

end DiskSpd
