/-
**The measurement window.**

* `WindowInv` — the invariant of the job and its workers: a worker that read the clock after the job
  did has a clock value past the start of the main duration.
* `InWindow` — what the recording of a completion relies on.
* `windowRight_iff` — an order of the accesses keeps every completion in the window, whatever the clock
  shows, exactly when no worker enters the recording block with a clock value from before the job read
  its own. When one does, and the clock moves on in between, the time since the start wraps.
-/

import DiskSpd.Model.Window
import Mathlib.Data.List.Induction

namespace DiskSpd

open Transition

/-- How far the job is. -/
def JobPc.rank : JobPc → Nat
  | .readClock => 0
  | .writeStartTimeNs => 1
  | .writeStartTimeUs => 2
  | .writeStartTimeMs => 3
  | .startRecording => 4
  | .stopRecording => 5
  | .stopped => 6

/-- The times of a recorded completion are in the window: it was read after the start, the time since
the start does not wrap, and its bucket is not past the time elapsed when it is recorded. -/
structure InWindow (e : WindowEntry) : Prop where
  fresh : e.stale = false
  after : e.startTimeUs ≤ e.absTimeUs
  since : ∀ (completion : Completion) (measure : Measure),
    (measure.iopsStdDev || measure.latency) = true → completion.absTimeUs = e.absTimeUs →
    completion.startTimeUs = e.startTimeUs →
    (completion.sinceStartUs measure).toNat = e.absTimeUs.toNat - e.startTimeUs.toNat ∧
      ∀ bucketizer : IoBucketizer,
        bucketizer.bucketNumber (completion.sinceStartUs measure / 1000) ≤
          (e.clock.toNat / 1000 - e.startTimeUs.toNat) / 1000 / bucketizer.bucketDuration.toNat

/-- Everyone in the recording block, and everything recorded, is in the window. -/
structure WindowRight (w : Window) : Prop where
  entered : ∀ n, w.control.workerPc n = .record →
    w.control.stale n = false ∧ w.startTimeUs ≤ w.absTimeUs n
  recorded : ∀ e ∈ w.recorded, InWindow e

theorem us_le {a b : UInt64} (le : a ≤ b) : a / 1000 ≤ b / 1000 := by
  rw [UInt64.le_iff_toNat_le, UInt64.toNat_div, UInt64.toNat_div]
  exact Nat.div_le_div_right (UInt64.le_iff_toNat_le.mp le)

/-- A clock value after the start of the main duration is in the window. -/
theorem inWindow_of_le {e : WindowEntry} (fresh : e.stale = false)
    (after : e.startTimeUs ≤ e.absTimeUs) (before : e.absTimeUs ≤ e.clock / 1000) : InWindow e := by
  refine ⟨fresh, after, fun completion measure measured abs start => ?_⟩
  have since : (completion.sinceStartUs measure).toNat =
      e.absTimeUs.toNat - e.startTimeUs.toNat := by
    unfold Completion.sinceStartUs
    rw [if_pos measured, abs, start, UInt64.toNat_sub_of_le _ _ after]
  refine ⟨since, fun bucketizer => ?_⟩
  unfold IoBucketizer.bucketNumber
  rw [UInt64.toNat_div, UInt64.toNat_div, since]
  rw [UInt64.le_iff_toNat_le, UInt64.toNat_div] at before
  exact Nat.div_le_div_right (Nat.div_le_div_right (Nat.sub_le_sub_right before _))

/-! ### The invariant -/

structure WindowInv (w : Window) : Prop where
  flag : w.control.recordResults = true → w.control.jobPc.rank = 5
  startNs : 2 ≤ w.control.jobPc.rank → w.startTimeNs = w.jobClock
  startUs : 3 ≤ w.control.jobPc.rank → w.startTimeUs = w.jobClock / 1000
  clock : 1 ≤ w.control.jobPc.rank → w.jobClock ≤ w.clock
  stamped : ∀ n, w.control.workerPc n ≠ .readClock → w.absTimeUs n ≤ w.clock / 1000
  fresh : ∀ n, w.control.workerPc n ≠ .readClock → w.control.stale n = false →
    1 ≤ w.control.jobPc.rank ∧ w.jobClock / 1000 ≤ w.absTimeUs n
  entered : ∀ n, w.control.workerPc n = .record →
    3 ≤ w.control.jobPc.rank ∧ (w.control.straddled = false → w.control.stale n = false)
  recorded : w.control.straddled = false → ∀ e ∈ w.recorded, InWindow e

theorem windowInv_initial : WindowInv {} := by
  constructor <;> simp [JobPc.rank]

/-! ### Steps of the job -/

section Job

variable {w : Window} {now : UInt64}

theorem stepJob_rank (control : Control) :
    control.stepJob.jobPc.rank = min (control.jobPc.rank + 1) 6 := by
  unfold Control.stepJob
  cases pc : control.jobPc <;> simp [pc, JobPc.rank]

theorem stepJob_recordResults (control : Control) :
    control.stepJob.recordResults = if control.jobPc.rank = 4 then true
      else if control.jobPc.rank = 5 then false else control.recordResults := by
  unfold Control.stepJob
  cases pc : control.jobPc <;> simp [JobPc.rank]

/-- The job leaves the workers where they are. -/
theorem stepJob_frame (control : Control) : control.stepJob.workerPc = control.workerPc ∧
    control.stepJob.stale = control.stale ∧ control.stepJob.straddled = control.straddled := by
  unfold Control.stepJob
  cases control.jobPc <;> exact ⟨rfl, rfl, rfl⟩

/-- What the job writes where. -/
theorem jobData_eq (w : Window) (now : UInt64) :
    (w.jobData now).jobClock = (if w.control.jobPc.rank = 0 then now else w.jobClock) ∧
      (w.jobData now).startTimeNs =
        (if w.control.jobPc.rank = 1 then w.jobClock else w.startTimeNs) ∧
      (w.jobData now).startTimeUs =
        (if w.control.jobPc.rank = 2 then w.startTimeNs / 1000 else w.startTimeUs) ∧
      (w.jobData now).absTimeUs = w.absTimeUs ∧ (w.jobData now).recorded = w.recorded := by
  unfold Window.jobData
  cases pc : w.control.jobPc <;> simp [JobPc.rank]

/-- **A step of the job.** -/
theorem windowInv_job (inv : WindowInv w) (later : w.clock ≤ now) :
    WindowInv (w.step now .job) := by
  obtain ⟨flag, startNs, startUs, clock, stamped, fresh, entered, recorded⟩ := inv
  obtain ⟨jobClock', startNs', startUs', abs', recorded'⟩ := jobData_eq w now
  obtain ⟨workerPc', stale', straddled'⟩ := stepJob_frame w.control
  have rank' := stepJob_rank w.control
  have flag' := stepJob_recordResults w.control
  have kept : 1 ≤ w.control.jobPc.rank → (w.jobData now).jobClock = w.jobClock := fun past => by
    rw [jobClock', if_neg (by omega)]
  constructor <;> dsimp only [Window.step, Control.step]
  · intro isSet
    rw [flag'] at isSet
    split_ifs at isSet with starts
    · omega
    · have := flag isSet
      omega
  · intro past
    rw [startNs', kept (by omega)]
    split_ifs with writes
    · rfl
    · exact startNs (by omega)
  · intro past
    rw [startUs', kept (by omega)]
    split_ifs with writes
    · rw [startNs (by omega)]
    · exact startUs (by omega)
  · intro past
    rw [jobClock']
    split_ifs with reads
    · exact UInt64.le_refl now
    · exact UInt64.le_trans (clock (by omega)) later
  · rw [workerPc', abs']
    exact fun n busy => UInt64.le_trans (stamped n busy) (us_le later)
  · rw [workerPc', stale', abs']
    intro n busy isFresh
    obtain ⟨past, after⟩ := fresh n busy isFresh
    exact ⟨by omega, by rwa [kept past]⟩
  · rw [workerPc', stale', straddled']
    intro n inside
    obtain ⟨past, isFresh⟩ := entered n inside
    exact ⟨by omega, isFresh⟩
  · rw [straddled', recorded']
    exact recorded

end Job

/-! ### Steps of a worker -/

section Worker

variable {w : Window} {now : UInt64} {n : Nat}

theorem step_worker (w : Window) (now : UInt64) (n : Nat) :
    w.step now (.worker n) =
      { w.workerData now n with control := w.control.stepWorker n, clock := now } :=
  rfl

theorem workerData_read (pc : w.control.workerPc n = .readClock) : w.workerData now n =
    { w with absTimeUs := Function.update w.absTimeUs n (now / 1000) } := by
  unfold Window.workerData
  rw [pc]

theorem workerData_test (pc : w.control.workerPc n = .test) : w.workerData now n = w := by
  unfold Window.workerData
  rw [pc]

theorem workerData_record (pc : w.control.workerPc n = .record) : w.workerData now n =
    { w with recorded := w.recorded ++ [
        { absTimeUs := w.absTimeUs n, startTimeUs := w.startTimeUs, clock := now,
          stale := w.control.stale n }] } := by
  unfold Window.workerData
  rw [pc]

theorem stepWorker_read {control : Control} (pc : control.workerPc n = .readClock) :
    control.stepWorker n = { control.moveWorker n .test with
      stale := Function.update control.stale n (control.jobPc = .readClock) } := by
  unfold Control.stepWorker
  rw [pc]

theorem stepWorker_enter {control : Control} (pc : control.workerPc n = .test)
    (isSet : control.recordResults = true) : control.stepWorker n =
      { control.moveWorker n .record with straddled := control.straddled || control.stale n } := by
  unfold Control.stepWorker
  rw [pc]
  exact if_pos isSet

theorem stepWorker_skip {control : Control} (pc : control.workerPc n = .test)
    (notSet : ¬ control.recordResults = true) :
    control.stepWorker n = control.moveWorker n .readClock := by
  unfold Control.stepWorker
  rw [pc]
  exact if_neg notSet

theorem stepWorker_record {control : Control} (pc : control.workerPc n = .record) :
    control.stepWorker n = control.moveWorker n .readClock := by
  unfold Control.stepWorker
  rw [pc]

/-- **A worker reads the clock.** -/
theorem windowInv_read (inv : WindowInv w) (later : w.clock ≤ now)
    (pc : w.control.workerPc n = .readClock) : WindowInv (w.step now (.worker n)) := by
  obtain ⟨flag, startNs, startUs, clock, stamped, fresh, entered, recorded⟩ := inv
  rw [step_worker, workerData_read pc, stepWorker_read pc]
  refine ⟨flag, startNs, startUs, fun past => UInt64.le_trans (clock past) later, ?_, ?_, ?_,
    recorded⟩ <;> intro m <;> dsimp only [Control.moveWorker] <;> by_cases here : m = n
  · subst here
    rw [Function.update_self, Function.update_self]
    exact fun _ => UInt64.le_refl _
  · rw [Function.update_of_ne here, Function.update_of_ne here]
    exact fun busy => UInt64.le_trans (stamped m busy) (us_le later)
  · subst here
    rw [Function.update_self, Function.update_self, Function.update_self, decide_eq_false_iff_not]
    intro _ notFirst
    have past : 1 ≤ w.control.jobPc.rank := by
      cases job : w.control.jobPc <;> simp [JobPc.rank]
      exact notFirst job
    exact ⟨past, us_le (UInt64.le_trans (clock past) later)⟩
  · rw [Function.update_of_ne here, Function.update_of_ne here, Function.update_of_ne here]
    exact fresh m
  · subst here
    rw [Function.update_self]
    exact fun inside => by cases inside
  · rw [Function.update_of_ne here, Function.update_of_ne here]
    exact entered m

/-- A worker that goes on with its clock value, or is done with it. -/
theorem windowInv_move (inv : WindowInv w) (later : w.clock ≤ now) {pc : WorkerPc} {straddled : Bool}
    {recorded : List WindowEntry} (busy : pc ≠ .readClock → w.control.workerPc n ≠ .readClock)
    (enters : pc = .record → w.control.recordResults = true ∧
      (straddled = false → w.control.stale n = false))
    (sticky : straddled = false → w.control.straddled = false)
    (right : straddled = false → ∀ e ∈ recorded, InWindow e) :
    WindowInv { w with
      control := { w.control.moveWorker n pc with straddled := straddled }
      clock := now
      recorded := recorded } := by
  obtain ⟨flag, startNs, startUs, clock, stamped, fresh, entered, _⟩ := inv
  refine ⟨flag, startNs, startUs, fun past => UInt64.le_trans (clock past) later, ?_, ?_, ?_,
    right⟩ <;> intro m <;> dsimp only [Control.moveWorker] <;> by_cases here : m = n
  · subst here
    rw [Function.update_self]
    exact fun some => UInt64.le_trans (stamped m (busy some)) (us_le later)
  · rw [Function.update_of_ne here]
    exact fun some => UInt64.le_trans (stamped m some) (us_le later)
  · subst here
    rw [Function.update_self]
    exact fun some => fresh m (busy some)
  · rw [Function.update_of_ne here]
    exact fresh m
  · subst here
    rw [Function.update_self]
    intro inside
    obtain ⟨isSet, isFresh⟩ := enters inside
    exact ⟨by rw [flag isSet]; decide, isFresh⟩
  · rw [Function.update_of_ne here]
    intro inside
    obtain ⟨past, isFresh⟩ := entered m inside
    exact ⟨past, fun none => isFresh (sticky none)⟩

/-- **A step of a worker.** -/
theorem windowInv_worker (inv : WindowInv w) (later : w.clock ≤ now) :
    WindowInv (w.step now (.worker n)) := by
  cases pc : w.control.workerPc n with
  | readClock => exact windowInv_read inv later pc
  | test =>
    rw [step_worker, workerData_test pc]
    by_cases isSet : w.control.recordResults = true
    · rw [stepWorker_enter pc isSet]
      refine windowInv_move inv later (fun _ => by rw [pc]; decide) (fun _ => ⟨isSet, ?_⟩) ?_ ?_
      · exact fun none => (Bool.or_eq_false_iff.mp none).2
      · exact fun none => (Bool.or_eq_false_iff.mp none).1
      · exact fun none => inv.recorded (Bool.or_eq_false_iff.mp none).1
    · rw [stepWorker_skip pc isSet]
      exact windowInv_move inv later (fun no => absurd rfl no) (fun no => by cases no) id
        inv.recorded
  | record =>
    rw [step_worker, workerData_record pc, stepWorker_record pc]
    refine windowInv_move inv later (fun no => absurd rfl no) (fun no => by cases no) id ?_
    intro none e member
    rcases List.mem_append.mp member with old | new
    · exact inv.recorded none e old
    · rw [List.mem_singleton.mp new]
      obtain ⟨past, isFresh⟩ := inv.entered n pc
      have busy : w.control.workerPc n ≠ .readClock := by rw [pc]; decide
      refine inWindow_of_le (isFresh none) ?_ ?_
      · rw [inv.startUs past]
        exact (inv.fresh n busy (isFresh none)).2
      · exact UInt64.le_trans (inv.stamped n busy) (us_le later)

end Worker

theorem windowInv_step {w next : Window} {label : Actor × UInt64} (inv : WindowInv w)
    (step : windowSystem.step w label next) : WindowInv next := by
  obtain ⟨later, rfl⟩ := step
  cases label.1 with
  | job => exact windowInv_job inv later
  | worker n => exact windowInv_worker inv later

/-- **Who has entered is in the window**, when no one has straddled its start. -/
theorem WindowInv.right {w : Window} (inv : WindowInv w) (none : w.control.straddled = false) :
    WindowRight w where
  entered n inside := by
    obtain ⟨past, isFresh⟩ := inv.entered n inside
    refine ⟨isFresh none, ?_⟩
    rw [inv.startUs past]
    exact (inv.fresh n (by rw [inside]; decide) (isFresh none)).2
  recorded := inv.recorded none

/-! ### A clock that moves on as the job reads it -/

/-- The clock shows 0 until the job reads it, and 1 µs from then on. -/
def lateClock (w : Window) (actor : Actor) : UInt64 :=
  if w.control.jobPc = .readClock ∧ actor ≠ .job then 0 else 1000

/-- With this clock, a worker that has straddled the start is before it. -/
structure LateInv (w : Window) : Prop extends WindowInv w where
  early : w.control.jobPc = .readClock → w.clock = 0
  bound : w.clock ≤ 1000
  atStart : w.control.jobPc ≠ .readClock → w.jobClock = 1000
  stale : ∀ n, w.control.workerPc n ≠ .readClock → w.control.stale n = true → w.absTimeUs n = 0
  straddled : w.control.straddled = true →
    (∃ n, w.control.workerPc n = .record ∧ w.control.stale n = true) ∨
      ∃ e ∈ w.recorded, e.absTimeUs = 0 ∧ e.startTimeUs = 1

theorem lateInv_initial : LateInv {} := by
  refine ⟨windowInv_initial, fun _ => rfl, by decide, fun no => absurd rfl no, ?_, ?_⟩
  · exact fun _ no => absurd rfl no
  · exact fun no => by cases no

theorem LateInv.later {w : Window} (inv : LateInv w) (actor : Actor) :
    w.clock ≤ lateClock w actor := by
  unfold lateClock
  split_ifs with first
  · rw [inv.early first.1]
    exact UInt64.le_refl 0
  · exact inv.bound

theorem LateInv.startedUs {w : Window} (inv : LateInv w) (past : 3 ≤ w.control.jobPc.rank) :
    w.startTimeUs = 1 := by
  have started : w.control.jobPc ≠ .readClock := fun no => by
    rw [no] at past
    exact absurd past (by decide)
  rw [inv.startUs past, inv.atStart started]
  rfl

theorem lateInv_job {w : Window} (inv : LateInv w) : LateInv (w.step (lateClock w .job) .job) := by
  have now : lateClock w .job = 1000 := if_neg fun both => both.2 rfl
  obtain ⟨jobClock', _, _, abs', recorded'⟩ := jobData_eq w (lateClock w .job)
  obtain ⟨workerPc', stale', straddled'⟩ := stepJob_frame w.control
  refine ⟨windowInv_job inv.toWindowInv (inv.later .job), ?_, ?_, ?_, ?_, ?_⟩ <;>
    dsimp only [Window.step, Control.step]
  · intro first
    have rank' := stepJob_rank w.control
    rw [first] at rank'
    have zero : JobPc.readClock.rank = 0 := rfl
    omega
  · rw [now]
    exact UInt64.le_refl _
  · intro _
    rw [jobClock']
    split_ifs with reads
    · exact now
    · exact inv.atStart fun first => reads (by rw [first]; rfl)
  · rw [workerPc', stale', abs']
    exact inv.stale
  · rw [workerPc', stale', straddled', recorded']
    exact inv.straddled

/-- A worker that has read its clock goes on. -/
theorem LateInv.stale_moved {w : Window} (inv : LateInv w) {n : Nat} {target : WorkerPc}
    (busy : w.control.workerPc n ≠ .readClock) (m : Nat)
    (moved : Function.update w.control.workerPc n target m ≠ .readClock) :
    w.control.stale m = true → w.absTimeUs m = 0 := by
  refine inv.stale m ?_
  by_cases here : m = n
  · rwa [here]
  · rwa [Function.update_of_ne here] at moved

theorem lateInv_worker {w : Window} (inv : LateInv w) (n : Nat) :
    LateInv (w.step (lateClock w (.worker n)) (.worker n)) := by
  have next := windowInv_worker (n := n) inv.toWindowInv (inv.later (.worker n))
  have first : w.control.jobPc = .readClock → lateClock w (.worker n) = 0 := fun first =>
    if_pos ⟨first, fun no => by cases no⟩
  have bound : lateClock w (.worker n) ≤ 1000 := by
    unfold lateClock
    split_ifs <;> decide
  cases pc : w.control.workerPc n with
  | readClock =>
    rw [step_worker, workerData_read pc, stepWorker_read pc] at next ⊢
    refine ⟨next, first, bound, inv.atStart, ?_, ?_⟩ <;> dsimp only [Control.moveWorker]
    · intro m
      by_cases here : m = n
      · subst here
        rw [Function.update_self, Function.update_self, Function.update_self, decide_eq_true_iff]
        intro _ isFirst
        rw [first isFirst]
        decide
      · rw [Function.update_of_ne here, Function.update_of_ne here, Function.update_of_ne here]
        exact inv.stale m
    · intro straddled
      refine (inv.straddled straddled).imp_left ?_
      rintro ⟨m, inside, isStale⟩
      have other : m ≠ n := fun same => by
        rw [same, pc] at inside
        cases inside
      exact ⟨m, by rw [Function.update_of_ne other]; exact inside,
        by rw [Function.update_of_ne other]; exact isStale⟩
  | test =>
    have other : ∀ m, w.control.workerPc m = .record → m ≠ n := fun m inside same => by
      rw [same, pc] at inside
      cases inside
    by_cases isSet : w.control.recordResults = true
    · rw [step_worker, workerData_test pc, stepWorker_enter pc isSet] at next ⊢
      refine ⟨next, first, bound, inv.atStart, ?_, ?_⟩ <;> dsimp only [Control.moveWorker]
      · exact inv.stale_moved (by rw [pc]; decide)
      · intro straddled
        rcases Bool.or_eq_true_iff.mp straddled with before | isStale
        · refine (inv.straddled before).imp_left ?_
          rintro ⟨m, inside, isStale⟩
          exact ⟨m, by rw [Function.update_of_ne (other m inside)]; exact inside, isStale⟩
        · exact Or.inl ⟨n, Function.update_self .., isStale⟩
    · rw [step_worker, workerData_test pc, stepWorker_skip pc isSet] at next ⊢
      refine ⟨next, first, bound, inv.atStart, ?_, ?_⟩ <;> dsimp only [Control.moveWorker]
      · exact inv.stale_moved (by rw [pc]; decide)
      · intro straddled
        refine (inv.straddled straddled).imp_left ?_
        rintro ⟨m, inside, isStale⟩
        exact ⟨m, by rw [Function.update_of_ne (other m inside)]; exact inside, isStale⟩
  | record =>
    rw [step_worker, workerData_record pc, stepWorker_record pc] at next ⊢
    refine ⟨next, first, bound, inv.atStart, ?_, ?_⟩ <;> dsimp only [Control.moveWorker]
    · exact inv.stale_moved (by rw [pc]; decide)
    · intro straddled
      rcases inv.straddled straddled with ⟨m, inside, isStale⟩ | ⟨e, member, times⟩
      · by_cases here : m = n
        · subst here
          refine Or.inr ⟨_, List.mem_append_right _ (List.mem_singleton.mpr rfl), ?_, ?_⟩
          · exact inv.stale m (by rw [pc]; decide) isStale
          · exact inv.startedUs (inv.entered m pc).1
        · exact Or.inl ⟨m, by rw [Function.update_of_ne here]; exact inside, isStale⟩
      · exact Or.inr ⟨e, List.mem_append_left _ member, times⟩

/-! ### All orders of the accesses -/

/-- The control of a run is decided by the order of the accesses. -/
theorem run_control {labels : List (Actor × UInt64)} {w : Window}
    (run : Run windowSystem {} labels w) :
    w.control = (labels.map (·.1)).foldl Control.step {} := by
  refine run.history (H := fun past w => w.control = (past.map (·.1)).foldl Control.step {}) rfl
    ?_
  rintro past w label next same ⟨_, rfl⟩
  rw [List.map_append, List.map_singleton, List.foldl_append, ← same]
  rfl

/-- Each order of the accesses has a run over the late clock. -/
theorem lateClock_run (actors : List Actor) : ∃ labels w, labels.map (·.1) = actors ∧
    Run windowSystem {} labels w ∧ LateInv w := by
  induction actors using List.reverseRecOn with
  | nil => exact ⟨[], {}, rfl, .refl, lateInv_initial⟩
  | append_singleton actors actor ih =>
    obtain ⟨labels, w, same, run, inv⟩ := ih
    refine ⟨labels ++ [(actor, lateClock w actor)], w.step (lateClock w actor) actor, ?_,
      run.snoc ⟨inv.later actor, rfl⟩, ?_⟩
    · rw [List.map_append, same, List.map_singleton]
    · cases actor with
      | job => exact lateInv_job inv
      | worker n => exact lateInv_worker inv n

/-- **Who has straddled the start is before it**, on the late clock. -/
theorem LateInv.wrong {w : Window} (inv : LateInv w) (straddled : w.control.straddled = true) :
    ¬ WindowRight w := by
  intro right
  rcases inv.straddled straddled with ⟨n, inside, isStale⟩ | ⟨e, member, abs, start⟩
  · have after := (right.entered n inside).2
    rw [inv.stale n (by rw [inside]; decide) isStale, inv.startedUs (inv.entered n inside).1] at after
    exact absurd after (by decide)
  · have after := (right.recorded e member).after
    rw [abs, start] at after
    exact absurd after (by decide)

/-- **An order of the accesses keeps all completions in the window, over every monotone clock, exactly
when no worker enters the recording block with a clock value from before the job read its own.** -/
theorem windowRight_iff (actors : List Actor) :
    (∀ labels w, labels.map (·.1) = actors → Run windowSystem {} labels w → WindowRight w) ↔
      (actors.foldl Control.step {}).straddled = false := by
  constructor
  · intro right
    obtain ⟨labels, w, same, run, inv⟩ := lateClock_run actors
    have control := run_control run
    rw [same] at control
    rw [← control]
    by_contra straddled
    exact inv.wrong (eq_true_of_ne_false straddled) (right labels w same run)
  · intro none labels w same run
    have inv := run.invariant windowInv_initial fun _ _ _ before step => windowInv_step before step
    refine inv.right ?_
    rw [run_control run, same, none]

/-! ### A straddled start -/

/-- The worker reads the clock, the job enters the main duration, and the worker goes on. -/
def straddling : List Actor :=
  [.worker 0, .job, .job, .job, .job, .job, .worker 0]

/-- With 5 µs and 7 µs on the clock, the worker enters the recording block 2 µs before the start. The
time since the start wraps, and the bucket of one second is number 18446744073709. -/
theorem straddling_not_right :
    ¬ (∀ labels w, labels.map (·.1) = straddling → Run windowSystem {} labels w → WindowRight w) ∧
      ∃ labels w, labels.map (·.1) = straddling ∧ Run windowSystem {} labels w ∧
        w.control.workerPc 0 = .record ∧ w.absTimeUs 0 = 5 ∧ w.startTimeUs = 7 ∧
        ({ bucketDuration := 1000 } : IoBucketizer).bucketNumber ((w.absTimeUs 0 - w.startTimeUs) / 1000)
          = 18446744073709 := by
  have read : windowSystem.step {} (.worker 0, 5000) _ := ⟨by decide, rfl⟩
  have job : ∀ w : Window, w.clock ≤ 7000 → windowSystem.step w (.job, 7000) (w.step 7000 .job) :=
    fun w later => ⟨later, rfl⟩
  have test : ∀ w : Window, w.clock ≤ 7000 →
      windowSystem.step w (.worker 0, 7000) (w.step 7000 (.worker 0)) := fun w later => ⟨later, rfl⟩
  have run := ((((((Run.single read).snoc (job _ (by decide))).snoc (job _ (by decide))).snoc
    (job _ (by decide))).snoc (job _ (by decide))).snoc (job _ (by decide))).snoc
    (test _ (by decide))
  refine ⟨fun right => ?_, _, _, ?_, run, ?_, ?_, ?_, ?_⟩
  · have after := ((right _ _ ?_ run).entered 0 (by decide)).2
    · exact absurd after (by decide)
    · rfl
  · rfl
  · decide
  · decide
  · decide
  · decide

end DiskSpd
