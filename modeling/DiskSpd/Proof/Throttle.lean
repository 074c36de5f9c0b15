/-
**The bound on a throttled thread.**

* `throttled_eq`, `record_threadBytesCount` — the check and the count are those of the worker thread.
* `ThrottleInv` — the invariant: a count is that of the rounds without a check, or the duration has
  run for a millisecond; a round that was let through still has the count and the time of its check.
* `inv_later`, `inv_window`, `inv_thread` — it is kept as time passes, as the job and the other
  workers go on, and by each access of the thread.
* `throughput_bounded` — so no count is above what the limit allows and one block.
-/

import DiskSpd.Model.Throttle
import DiskSpd.Proof.Window
import Mathlib.Algebra.Order.Ring.Int

namespace DiskSpd

open MachineWord Transition

/-! ### The check and the count -/

/-- The throttle check of a round of the thread. -/
theorem throttled_eq {Op Engine : Type} (th : ThreadParams) (s : ThreadState Op Engine)
    (round : Round) : th.throttled s round =
    (round.recordAtHead && th.threadThroughput != 0 && round.nowMs - round.startTimeMs != 0 &&
      overThroughput th.threadThroughput s.threadBytesCount (round.nowMs - round.startTimeMs)) :=
  rfl

/-- The count of a round of the thread. -/
theorem record_threadBytesCount {Op Engine : Type} [IAsyncIop Op] {th : ThreadParams}
    {s s' : ThreadState Op Engine} {flight : Flight} {op : Op} {tData : TargetData} {round : Round}
    (isSet : round.record = true) (done : s.record th flight op tData round = some s') :
    s'.threadBytesCount = addBytes s.threadBytesCount tData.target.blockSize := by
  unfold ThreadState.record at done
  rw [if_pos isSet] at done
  obtain ⟨results, _, done⟩ := Option.bind_eq_some_iff.mp done
  obtain ⟨updated, _, done⟩ := Option.bind_eq_some_iff.mp done
  cases done
  rfl

/-- The count grows by at most the block, whether or not it wraps. -/
theorem addBytes_le (threadBytesCount : Int64) (blockSize : UInt64) :
    (addBytes threadBytesCount blockSize).toInt ≤ threadBytesCount.toInt + blockSize.toNat := by
  have unsigned := toNat_toUInt64 threadBytesCount
  have bounds := toInt_bounds threadBytesCount
  unfold addBytes
  rw [toInt_toInt64, UInt64.toNat_add]
  omega

/-- **What the check lets through** is below the limit and one byte, for each millisecond. -/
theorem le_of_not_over {threadThroughput threadBytesCount : Int64} {sinceStartMs : UInt64}
    (positive : 0 < threadThroughput.toInt) (elapsed : 0 < sinceStartMs.toNat)
    (under : overThroughput threadThroughput threadBytesCount sinceStartMs = false) :
    threadBytesCount.toInt ≤ (threadThroughput.toInt + 1) * sinceStartMs.toNat := by
  rcases lt_or_ge threadBytesCount.toInt 0 with negative | nonneg
  · -- the count has wrapped
    exact negative.le.trans (mul_nonneg (by omega) (Int.natCast_nonneg _))
  · have unsigned := toNat_toUInt64 threadBytesCount
    have bounds := toInt_bounds threadBytesCount
    have small : (threadBytesCount.toUInt64 / sinceStartMs).toNat ≤
        threadBytesCount.toUInt64.toNat := by
      rw [UInt64.toNat_div]
      exact Nat.div_le_self _ _
    have quotient : ((threadBytesCount.toUInt64.toNat / sinceStartMs.toNat : Nat) : Int) ≤
        threadThroughput.toInt := by
      have notLess := of_decide_eq_false under
      rw [Int64.lt_iff_toInt_lt, toInt_toInt64_of_lt (by omega), UInt64.toNat_div] at notLess
      omega
    have division := Nat.lt_mul_div_succ threadBytesCount.toUInt64.toNat elapsed
    calc threadBytesCount.toInt = (threadBytesCount.toUInt64.toNat : Int) := by omega
      _ ≤ ((threadBytesCount.toUInt64.toNat / sinceStartMs.toNat : Nat) + 1) *
            sinceStartMs.toNat := by
        rw [mul_comm]
        exact_mod_cast division.le
      _ ≤ (threadThroughput.toInt + 1) * sinceStartMs.toNat :=
        mul_le_mul_of_nonneg_right (by omega) (Int.natCast_nonneg _)

/-! ### The window around the thread -/

theorem jobData_startTimeMs (w : Window) (now : UInt64) : (w.jobData now).startTimeMs =
    if w.control.jobPc.rank = 3 then w.startTimeUs / 1000 else w.startTimeMs := by
  unfold Window.jobData
  cases pc : w.control.jobPc <;> simp [JobPc.rank]

/-- A worker moves only itself. -/
theorem stepWorker_frame (control : Control) (m : Nat) :
    (control.stepWorker m).jobPc = control.jobPc ∧
      (control.stepWorker m).recordResults = control.recordResults ∧
      ∀ n ≠ m, (control.stepWorker m).workerPc n = control.workerPc n := by
  unfold Control.stepWorker
  split
  · exact ⟨rfl, rfl, fun n other => Function.update_of_ne other _ _⟩
  · split_ifs <;> exact ⟨rfl, rfl, fun n other => Function.update_of_ne other _ _⟩
  · exact ⟨rfl, rfl, fun n other => Function.update_of_ne other _ _⟩

theorem workerData_frame (w : Window) (now : UInt64) (m : Nat) :
    (w.workerData now m).jobClock = w.jobClock ∧
      (w.workerData now m).startTimeMs = w.startTimeMs ∧
      ∀ n ≠ m, (w.workerData now m).absTimeUs n = w.absTimeUs n := by
  unfold Window.workerData
  split
  · exact ⟨rfl, rfl, fun n other => Function.update_of_ne other _ _⟩
  · exact ⟨rfl, rfl, fun _ _ => rfl⟩
  · exact ⟨rfl, rfl, fun _ _ => rfl⟩

/-- Once the job has written it, the start is the millisecond it read on the clock; and the flag is
set until the job is past the duration. -/
structure Started (w : Window) : Prop where
  startTimeMs : 4 ≤ w.control.jobPc.rank → w.startTimeMs = w.jobClock / 1000 / 1000
  recording : w.control.jobPc.rank = 5 → w.control.recordResults = true

/-- What a step that is not of worker `n` leaves as it is. -/
structure Around (n : Nat) (w w' : Window) : Prop where
  rank : w.control.jobPc.rank ≤ w'.control.jobPc.rank
  startTimeMs : 4 ≤ w.control.jobPc.rank → w'.startTimeMs = w.startTimeMs
  workerPc : w'.control.workerPc n = w.control.workerPc n
  absTimeUs : w'.absTimeUs n = w.absTimeUs n

theorem around_job (n : Nat) {w : Window} (inv : WindowInv w) (started : Started w)
    (now : UInt64) : Around n w (w.step now .job) ∧ Started (w.step now .job) := by
  obtain ⟨jobClock', _, _, abs', _⟩ := jobData_eq w now
  obtain ⟨workerPc', _, _⟩ := stepJob_frame w.control
  have rank' := stepJob_rank w.control
  have flag' := stepJob_recordResults w.control
  have ms' := jobData_startTimeMs w now
  have rankBound : w.control.jobPc.rank ≤ 6 := by cases w.control.jobPc <;> decide
  refine ⟨⟨?_, fun past => ?_, congrFun workerPc' n, congrFun abs' n⟩, fun past => ?_, fun at5 => ?_⟩
  · show _ ≤ w.control.stepJob.jobPc.rank
    omega
  · show (w.jobData now).startTimeMs = _
    rw [ms', if_neg (by omega)]
  · show (w.jobData now).startTimeMs = (w.jobData now).jobClock / 1000 / 1000
    have past : 4 ≤ w.control.stepJob.jobPc.rank := past
    rw [ms', jobClock', if_neg (show ¬ w.control.jobPc.rank = 0 by omega)]
    split_ifs with writes
    · rw [inv.startUs (by omega)]
    · exact started.startTimeMs (by omega)
  · have at5 : w.control.stepJob.jobPc.rank = 5 := at5
    show w.control.stepJob.recordResults = true
    rw [flag', if_pos (by omega)]

/-- A worker leaves the job and its times as they are. -/
theorem step_worker_frame (w : Window) (now : UInt64) (m : Nat) :
    (w.step now (.worker m)).control.jobPc = w.control.jobPc ∧
      (w.step now (.worker m)).startTimeMs = w.startTimeMs ∧
      (Started w → Started (w.step now (.worker m))) := by
  obtain ⟨jobPc', flag', _⟩ := stepWorker_frame w.control m
  obtain ⟨jobClock', ms', _⟩ := workerData_frame w now m
  have rank' : (w.step now (.worker m)).control.jobPc.rank = w.control.jobPc.rank :=
    congrArg JobPc.rank jobPc'
  refine ⟨jobPc', ms', fun started => ⟨fun past => ?_, fun at5 => ?_⟩⟩
  · show (w.workerData now m).startTimeMs = (w.workerData now m).jobClock / 1000 / 1000
    rw [ms', jobClock']
    exact started.startTimeMs (rank' ▸ past)
  · exact flag'.trans (started.recording (rank' ▸ at5))

theorem around_other {n m : Nat} (other : n ≠ m) (w : Window) (now : UInt64) :
    Around n w (w.step now (.worker m)) := by
  obtain ⟨jobPc', ms', _⟩ := step_worker_frame w now m
  exact ⟨(congrArg JobPc.rank jobPc').ge, fun _ => ms', (stepWorker_frame w.control m).2.2 n other,
    (workerData_frame w now m).2.2 n other⟩

/-! ### The invariant -/

/-- The check of the round is behind the thread. -/
def LoopPc.inRound : LoopPc → Bool
  | .wait | .complete _ => true
  | .head | .readClock | .readStart _ | .left => false

/-- The thread is between the clock read and the end of the round. -/
def LoopPc.completing : LoopPc → Bool
  | .complete _ => true
  | .head | .readClock | .readStart _ | .wait | .left => false

namespace Throttle

def rank (s : Throttle) : Nat := s.window.control.jobPc.rank

/-- The millisecond in which the duration starts, and the current one. -/
def startMs (s : Throttle) : Nat := s.window.startTimeMs.toNat
def nowMs (s : Throttle) : Nat := s.clock.toNat / 1000000

/-- Only rounds without a check have been counted. -/
def OnlySkipped (s : Throttle) : Prop := s.threadBytesCount.toInt ≤ s.skippedBytes

/-- The duration has run for a millisecond, or is over. -/
def Elapsed (s : Throttle) : Prop := 5 ≤ s.rank ∧ s.startMs < s.nowMs

/-- The round was let through, so many milliseconds after the start. -/
structure LetThrough (n : Nat) (th : ThreadParams) (s : Throttle) (e : Nat) : Prop where
  positive : 0 < e
  count : s.threadBytesCount.toInt ≤ (th.threadThroughput.toInt + 1) * e
  started : 5 ≤ s.rank
  past : s.startMs + e ≤ s.nowMs
  stamped : s.window.control.workerPc n ≠ .readClock →
    s.startMs + e ≤ (s.window.absTimeUs n).toNat / 1000

end Throttle

/-- The time since the start of the duration at which a completion was counted, in milliseconds. -/
def ThrottleEntry.sinceStartMs (entry : ThrottleEntry) : Int :=
  (entry.absTimeUs.toNat / 1000 : Nat) - entry.startTimeMs.toNat

/-- The count is not above that of the rounds without a check, nor above what the limit allows. -/
def ThrottleEntry.Bounded (th : ThreadParams) (skippedBytes : Nat) (entry : ThrottleEntry) : Prop :=
  entry.threadBytesCount.toInt ≤ max (skippedBytes : Int)
    ((th.threadThroughput.toInt + 1) * entry.sinceStartMs + entry.blockSize.toNat)

structure ThrottleInv (n : Nat) (th : ThreadParams) (s : Throttle) : Prop where
  window : WindowInv s.window
  clock : s.window.clock ≤ s.clock
  started : Started s.window
  idle : s.pc.completing = false → s.window.control.workerPc n = .readClock
  count : s.OnlySkipped ∨ s.Elapsed
  reading : s.pc = .readClock → 5 ≤ s.rank
  read : ∀ nowMs, s.pc = .readStart nowMs → 5 ≤ s.rank ∧ s.startMs ≤ nowMs.toNat ∧
    nowMs.toNat ≤ s.nowMs ∧ (s.OnlySkipped ∨ s.startMs < nowMs.toNat)
  skip : s.pc.inRound = true → s.skipped = true →
    s.OnlySkipped ∨ (s.rank = 6 ∧ s.window.control.workerPc n ≠ .record)
  pass : s.pc.inRound = true → s.skipped = false → ∃ e, s.LetThrough n th e
  bounded : ∀ entry ∈ s.recorded, entry.Bounded th s.skippedBytes

theorem throttleInv_initial (n : Nat) (th : ThreadParams) : ThrottleInv n th {} where
  window := windowInv_initial
  clock := UInt64.le_refl 0
  started := ⟨fun past => absurd past (by decide), fun at5 => absurd at5 (by decide)⟩
  idle _ := rfl
  count := Or.inl (show (0 : Int64).toInt ≤ ((0 : Nat) : Int) by decide)
  reading no := by cases no
  read _ no := by cases no
  skip no := by cases no
  pass no := by cases no
  bounded := List.forall_mem_nil _

section Inv

variable {n : Nat} {th : ThreadParams} {s : Throttle}

/-- After the start the clock is past it. -/
theorem ThrottleInv.startMs_le (inv : ThrottleInv n th s) (past : 4 ≤ s.rank) :
    s.startMs ≤ s.nowMs := by
  have started := inv.started.startTimeMs past
  have read := UInt64.le_iff_toNat_le.mp
    (UInt64.le_trans (inv.window.clock (Nat.le_trans (by decide) past)) inv.clock)
  have micro : (1000 : UInt64).toNat = 1000 := rfl
  unfold Throttle.startMs Throttle.nowMs
  rw [started, UInt64.toNat_div, UInt64.toNat_div, micro]
  omega

theorem rank_le (s : Throttle) : s.rank ≤ 6 := by
  unfold Throttle.rank
  cases s.window.control.jobPc <;> decide

/-- **Time passes.** -/
theorem inv_later (inv : ThrottleInv n th s) {now : UInt64} (later : s.clock ≤ now) :
    ThrottleInv n th { s with clock := now } := by
  have ms : s.nowMs ≤ ({ s with clock := now } : Throttle).nowMs :=
    Nat.div_le_div_right (UInt64.le_iff_toNat_le.mp later)
  refine ⟨inv.window, UInt64.le_trans inv.clock later, inv.started, inv.idle, ?_, inv.reading,
    ?_, inv.skip, ?_, inv.bounded⟩
  · exact inv.count.imp_right fun elapsed => ⟨elapsed.1, elapsed.2.trans_le ms⟩
  · intro nowMs pc
    obtain ⟨started, after, before, first⟩ := inv.read nowMs pc
    exact ⟨started, after, before.trans ms, first⟩
  · intro inRound checked
    obtain ⟨e, through⟩ := inv.pass inRound checked
    exact ⟨e, through.positive, through.count, through.started, through.past.trans ms,
      through.stamped⟩

/-- **The job or another worker goes on.** -/
theorem inv_window (inv : ThrottleInv n th s) {w : Window} (around : Around n s.window w)
    (started : Started w) (window : WindowInv w) (clock : w.clock ≤ s.clock) :
    ThrottleInv n th { s with window := w } := by
  have rank : s.rank ≤ ({ s with window := w } : Throttle).rank := around.rank
  have startMs : 4 ≤ s.rank → ({ s with window := w } : Throttle).startMs = s.startMs :=
    fun past => congrArg UInt64.toNat (around.startTimeMs past)
  refine ⟨window, clock, started, ?_, ?_, ?_, ?_, ?_, ?_, inv.bounded⟩
  · exact fun idle => around.workerPc.trans (inv.idle idle)
  · refine inv.count.imp_right fun ⟨started, elapsed⟩ => ⟨started.trans rank, ?_⟩
    rw [startMs (by omega)]
    exact elapsed
  · exact fun pc => (inv.reading pc).trans rank
  · intro nowMs pc
    obtain ⟨started, after, before, first⟩ := inv.read nowMs pc
    rw [startMs (by omega)]
    exact ⟨started.trans rank, after, before, first⟩
  · intro inRound skipped
    refine (inv.skip inRound skipped).imp_right fun ⟨ended, notIn⟩ => ⟨?_, ?_⟩
    · have most := rank_le { s with window := w }
      omega
    · exact around.workerPc ▸ notIn
  · intro inRound checked
    obtain ⟨e, positive, count, started, past, stamped⟩ := inv.pass inRound checked
    refine ⟨e, positive, count, started.trans rank, ?_, ?_⟩
    · rw [startMs (by omega)]
      exact past
    · rw [startMs (by omega)]
      dsimp only
      rw [around.workerPc, around.absTimeUs]
      exact stamped

/-! ### The accesses of the thread -/

theorem inv_atHead (positive : 0 < th.threadThroughput.toInt) (inv : ThrottleInv n th s)
    (pc : s.pc = .head) : ThrottleInv n th (s.atHead th) := by
  have idle : s.window.control.workerPc n = .readClock := inv.idle (by rw [pc]; rfl)
  unfold Throttle.atHead
  split_ifs with limited
  · rw [Bool.and_eq_true] at limited
    have started : s.rank = 5 := inv.window.flag limited.1
    exact ⟨inv.window, inv.clock, inv.started, fun _ => idle, inv.count, fun _ => started.ge,
      nofun, nofun, nofun, inv.bounded⟩
  · -- the flag is not set: the job is before the duration, or past it
    have notSet : ¬ s.window.control.recordResults = true := by
      intro isSet
      have some : th.threadThroughput ≠ 0 := by
        intro none
        rw [none] at positive
        exact absurd positive (by decide)
      exact limited (Bool.and_eq_true _ _ ▸ ⟨isSet, bne_iff_ne.mpr some⟩)
    refine ⟨inv.window, inv.clock, inv.started, fun _ => idle, inv.count, nofun, nofun,
      fun _ _ => ?_, nofun, inv.bounded⟩
    refine inv.count.imp_right fun elapsed => ⟨?_, ?_⟩
    · have not5 : s.rank ≠ 5 := fun at5 => notSet (inv.started.recording at5)
      have started := elapsed.1
      have most := rank_le s
      show s.rank = 6
      omega
    · show s.window.control.workerPc n ≠ .record
      rw [idle]
      decide

theorem inv_readClock (inv : ThrottleInv n th s) (pc : s.pc = .readClock) :
    ThrottleInv n th { s with pc := .readStart (s.clock / 1000000) } := by
  have idle : s.window.control.workerPc n = .readClock := inv.idle (by rw [pc]; rfl)
  have started := inv.reading pc
  have value : (s.clock / 1000000).toNat = s.nowMs := UInt64.toNat_div _ _
  refine ⟨inv.window, inv.clock, inv.started, fun _ => idle, inv.count, nofun, ?_, nofun, nofun,
    inv.bounded⟩
  rintro _ ⟨⟩
  rw [value]
  exact ⟨started, inv.startMs_le (Nat.le_of_succ_le started), le_rfl,
    inv.count.imp_right fun elapsed => elapsed.2⟩

theorem inv_check (limited : 0 < th.threadThroughput.toInt) (inv : ThrottleInv n th s)
    {nowMs : UInt64} (pc : s.pc = .readStart nowMs) : ThrottleInv n th (s.check th nowMs) := by
  have idle : s.window.control.workerPc n = .readClock := inv.idle (by rw [pc]; rfl)
  obtain ⟨started, after, before, first⟩ := inv.read nowMs pc
  have since : (nowMs - s.window.startTimeMs).toNat = nowMs.toNat - s.startMs :=
    UInt64.toNat_sub_of_le _ _ (UInt64.le_iff_toNat_le.mpr after)
  unfold Throttle.check
  dsimp only
  split_ifs with elapsed tooFast
  · exact ⟨inv.window, inv.clock, inv.started, fun _ => idle, inv.count, nofun, nofun, nofun,
      nofun, inv.bounded⟩
  · have positive : 0 < (nowMs - s.window.startTimeMs).toNat := by
      rw [Nat.pos_iff_ne_zero]
      intro zero
      exact bne_iff_ne.mp elapsed (UInt64.toNat_inj.mp zero)
    refine ⟨inv.window, inv.clock, inv.started, fun _ => idle, inv.count, nofun, nofun, nofun,
      fun _ _ => ⟨(nowMs - s.window.startTimeMs).toNat, positive, ?_, started, ?_, ?_⟩, inv.bounded⟩
    · exact le_of_not_over limited positive (Bool.not_eq_true _ ▸ tooFast)
    · show s.startMs + _ ≤ s.nowMs
      omega
    · exact fun busy => absurd idle busy
  · refine ⟨inv.window, inv.clock, inv.started, fun _ => idle, inv.count, nofun, nofun,
      fun _ _ => Or.inl ?_, nofun, inv.bounded⟩
    refine first.resolve_right fun more => elapsed (bne_iff_ne.mpr fun zero => ?_)
    rw [zero] at since
    have none : (0 : UInt64).toNat = 0 := rfl
    omega

/-- What the thread's own accesses to the window leave as it is. -/
theorem inv_own (inv : ThrottleInv n th s) :
    let w := s.window.step s.clock (.worker n)
    WindowInv w ∧ Started w ∧ ({ s with window := w } : Throttle).rank = s.rank ∧
      ({ s with window := w } : Throttle).startMs = s.startMs ∧
      (s.Elapsed → ({ s with window := w } : Throttle).Elapsed) := by
  obtain ⟨jobPc', ms', started'⟩ := step_worker_frame s.window s.clock n
  have rank' : ({ s with window := s.window.step s.clock (.worker n) } : Throttle).rank = s.rank :=
    congrArg JobPc.rank jobPc'
  have startMs' : ({ s with window := s.window.step s.clock (.worker n) } : Throttle).startMs =
      s.startMs := congrArg UInt64.toNat ms'
  refine ⟨windowInv_worker inv.window inv.clock, started' inv.started, rank', startMs', ?_⟩
  rintro ⟨past, elapsed⟩
  exact ⟨by rw [rank']; exact past, by rw [startMs']; exact elapsed⟩

/-- An access of the thread that stays in its round, where the new place and time fit the check. -/
theorem inv_own_round (inv : ThrottleInv n th s) {tData : TargetData}
    (pc : s.pc = .complete tData)
    (skip : s.OnlySkipped ∨ (s.rank = 6 ∧ s.window.control.workerPc n ≠ .record) →
      s.OnlySkipped ∨
        (s.rank = 6 ∧ (s.window.step s.clock (.worker n)).control.workerPc n ≠ .record))
    (stamp : ∀ e, s.LetThrough n th e →
      s.startMs + e ≤ ((s.window.step s.clock (.worker n)).absTimeUs n).toNat / 1000) :
    ThrottleInv n th { s with window := s.window.step s.clock (.worker n) } := by
  obtain ⟨window', started', rank', startMs', elapsed'⟩ := inv_own inv
  have inRound : s.pc.inRound = true := by rw [pc]; rfl
  refine ⟨window', UInt64.le_refl _, started', fun idle => ?_, inv.count.imp_right elapsed',
    fun other => ?_, fun _ other => ?_, fun _ skipped => ?_, fun _ checked => ?_, inv.bounded⟩
  · rw [pc] at idle
    cases idle
  · rw [pc] at other
    cases other
  · rw [pc] at other
    cases other
  · rw [rank']
    exact skip (inv.skip inRound skipped)
  · obtain ⟨e, through⟩ := inv.pass inRound checked
    refine ⟨e, through.positive, through.count, ?_, ?_, fun _ => ?_⟩
    · rw [rank']
      exact through.started
    · rw [startMs']
      exact through.past
    · rw [startMs']
      exact stamp e through

/-- **The clock is read** after the operation completed. -/
theorem inv_finish_read (inv : ThrottleInv n th s) {tData : TargetData}
    (pc : s.pc = .complete tData) (place : s.window.control.workerPc n = .readClock) :
    ThrottleInv n th { s with window := s.window.step s.clock (.worker n) } := by
  have place' : (s.window.step s.clock (.worker n)).control.workerPc n = .test := by
    rw [step_worker, stepWorker_read place]
    exact Function.update_self _ _ _
  have stamp : (s.window.step s.clock (.worker n)).absTimeUs n = s.clock / 1000 := by
    rw [step_worker, workerData_read place]
    exact Function.update_self _ _ _
  have micro : (s.clock / 1000).toNat = s.clock.toNat / 1000 := UInt64.toNat_div _ _
  refine inv_own_round inv pc (fun skip => ?_) fun e through => ?_
  · refine skip.imp_right fun ⟨past, _⟩ => ⟨past, ?_⟩
    rw [place']
    decide
  · have past := through.past
    unfold Throttle.nowMs at past
    rw [stamp, micro]
    omega

/-- **The test finds the flag set.** -/
theorem inv_finish_enter (inv : ThrottleInv n th s) {tData : TargetData}
    (pc : s.pc = .complete tData) (place : s.window.control.workerPc n = .test)
    (isSet : s.window.control.recordResults = true) :
    ThrottleInv n th { s with window := s.window.step s.clock (.worker n) } := by
  have stamp : (s.window.step s.clock (.worker n)).absTimeUs n = s.window.absTimeUs n := by
    rw [step_worker, workerData_test place]
  refine inv_own_round inv pc (fun skip => Or.inl ?_) fun e through => ?_
  · -- the flag is not set past the duration
    refine skip.resolve_right fun ⟨ended, _⟩ => ?_
    have at5 : s.rank = 5 := inv.window.flag isSet
    omega
  · rw [stamp]
    exact through.stamped (by rw [place]; decide)

/-- **The test finds the flag not set**: the round ends. -/
theorem inv_finish_skip (inv : ThrottleInv n th s)
    (place : s.window.control.workerPc n = .test)
    (notSet : ¬ s.window.control.recordResults = true) :
    ThrottleInv n th { s with pc := .head, window := s.window.step s.clock (.worker n) } := by
  obtain ⟨window', started', _, _, elapsed'⟩ := inv_own inv
  have place' : (s.window.step s.clock (.worker n)).control.workerPc n = .readClock := by
    rw [step_worker, stepWorker_skip place notSet]
    exact Function.update_self _ _ _
  exact ⟨window', UInt64.le_refl _, started', fun _ => place', inv.count.imp_right elapsed', nofun,
    nofun, nofun, nofun, inv.bounded⟩

theorem ThrottleEntry.Bounded.mono {entry : ThrottleEntry} {less more : Nat}
    (bounded : entry.Bounded th less) (le : less ≤ more) : entry.Bounded th more :=
  bounded.trans (max_le_max_right _ (Int.ofNat_le.mpr le))

/-- The completion that the thread counts next. -/
def Throttle.counted (n : Nat) (s : Throttle) (tData : TargetData) : ThrottleEntry where
  absTimeUs := s.window.absTimeUs n
  startTimeMs := s.window.startTimeMs
  blockSize := tData.target.blockSize
  threadBytesCount := addBytes s.threadBytesCount tData.target.blockSize

/-- A round without a check adds its block to the bytes of these rounds. -/
theorem count_skipped {tData : TargetData} (only : s.OnlySkipped) (skipped : s.skipped = true) :
    (s.count n tData).OnlySkipped := by
  have grows := addBytes_le s.threadBytesCount tData.target.blockSize
  have total : ((s.count n tData).skippedBytes : Int) =
      s.skippedBytes + tData.target.blockSize.toNat := by
    simp only [Throttle.count, skipped, if_true, Nat.cast_add]
  show (addBytes s.threadBytesCount tData.target.blockSize).toInt ≤ _
  rw [total]
  exact grows.trans (Int.add_le_add_right only _)

/-- A round that was let through adds one block to what the limit allows. -/
theorem count_letThrough (limited : 0 < th.threadThroughput.toInt) {tData : TargetData} {e : Nat}
    (through : s.LetThrough n th e) (place : s.window.control.workerPc n = .record) :
    (s.counted n tData).threadBytesCount.toInt ≤ (th.threadThroughput.toInt + 1) *
      (s.counted n tData).sinceStartMs + (s.counted n tData).blockSize.toNat := by
  have since : (e : Int) ≤ ((s.window.absTimeUs n).toNat / 1000 : Nat) - s.startMs := by
    have stamp := through.stamped (by rw [place]; decide)
    omega
  calc (addBytes s.threadBytesCount tData.target.blockSize).toInt
      ≤ s.threadBytesCount.toInt + tData.target.blockSize.toNat :=
      addBytes_le s.threadBytesCount tData.target.blockSize
    _ ≤ (th.threadThroughput.toInt + 1) * e + tData.target.blockSize.toNat :=
      Int.add_le_add_right through.count _
    _ ≤ (th.threadThroughput.toInt + 1) *
          (((s.window.absTimeUs n).toNat / 1000 : Nat) - s.startMs) +
        tData.target.blockSize.toNat :=
      Int.add_le_add_right (mul_le_mul_of_nonneg_left since (by omega)) _

/-- **The completion is counted.** -/
theorem inv_finish_count (limited : 0 < th.threadThroughput.toInt) (inv : ThrottleInv n th s)
    {tData : TargetData} (pc : s.pc = .complete tData)
    (place : s.window.control.workerPc n = .record) :
    ThrottleInv n th
      { s.count n tData with window := s.window.step s.clock (.worker n) } := by
  obtain ⟨window', started', _, _, elapsed'⟩ := inv_own inv
  have place' : (s.window.step s.clock (.worker n)).control.workerPc n = .readClock := by
    rw [step_worker, stepWorker_record place]
    exact Function.update_self _ _ _
  have inRound : s.pc.inRound = true := by rw [pc]; rfl
  have more : s.skippedBytes ≤ (s.count n tData).skippedBytes := Nat.le_add_right _ _
  have kept : ∀ entry ∈ s.recorded, entry.Bounded th (s.count n tData).skippedBytes :=
    fun entry member => (inv.bounded entry member).mono more
  suffices counted : ((s.count n tData).OnlySkipped ∨ s.Elapsed) ∧
      (s.counted n tData).Bounded th (s.count n tData).skippedBytes from
    ⟨window', UInt64.le_refl _, started', fun _ => place', counted.1.imp_right elapsed', nofun,
      nofun, nofun, nofun,
      List.forall_mem_append.mpr ⟨kept, List.forall_mem_singleton.mpr counted.2⟩⟩
  cases skipped : s.skipped with
  | true =>
    have only : s.OnlySkipped :=
      (inv.skip inRound skipped).resolve_right fun ⟨_, notIn⟩ => notIn place
    have counted : (s.count n tData).OnlySkipped := count_skipped only skipped
    exact ⟨Or.inl counted, le_trans counted (le_max_left _ _)⟩
  | false =>
    obtain ⟨e, through⟩ := inv.pass inRound skipped
    have elapsed : s.Elapsed := by
      have positive := through.positive
      have past := through.past
      exact ⟨through.started, by omega⟩
    exact ⟨Or.inr elapsed, le_trans (count_letThrough limited through place) (le_max_right _ _)⟩

/-- **An access of the thread.** -/
theorem inv_thread (limited : 0 < th.threadThroughput.toInt) (inv : ThrottleInv n th s)
    {next : Throttle} (taken : s.stepThread n th s.clock = some next) : ThrottleInv n th next := by
  unfold Throttle.stepThread at taken
  split at taken
  · rename_i pc
    cases taken
    exact inv_atHead limited inv pc
  · rename_i pc
    cases taken
    exact inv_readClock inv pc
  · rename_i nowMs pc
    cases taken
    exact inv_check limited inv pc
  · rename_i tData pc
    cases taken
    unfold Throttle.finish
    cases place : s.window.control.workerPc n with
    | readClock => exact inv_finish_read inv pc place
    | test =>
      dsimp only
      split_ifs with isSet
      · exact inv_finish_enter inv pc place isSet
      · exact inv_finish_skip inv place isSet
    | record => exact inv_finish_count limited inv pc place
  · cases taken
  · cases taken

/-- What an action other than one of the job, of a worker or of the thread changes. -/
theorem inv_complete (inv : ThrottleInv n th s) (pc : s.pc = .wait) (tData : TargetData) :
    ThrottleInv n th { s with pc := .complete tData } := by
  have inRound : s.pc.inRound = true := by rw [pc]; rfl
  refine ⟨inv.window, inv.clock, inv.started, nofun, inv.count, nofun, nofun,
    fun _ => inv.skip inRound, fun _ checked => ?_, inv.bounded⟩
  obtain ⟨e, through⟩ := inv.pass inRound checked
  exact ⟨e, through.positive, through.count, through.started, through.past, through.stamped⟩

theorem inv_leave (inv : ThrottleInv n th s) (pc : s.pc = .head ∨ s.pc = .wait) :
    ThrottleInv n th { s with pc := .left } := by
  have idle : s.window.control.workerPc n = .readClock := inv.idle (by
    rcases pc with pc | pc <;> rw [pc] <;> rfl)
  exact ⟨inv.window, inv.clock, inv.started, fun _ => idle, inv.count, nofun, nofun, nofun, nofun,
    inv.bounded⟩

/-- **A step of anyone** keeps the invariant, at the current time. -/
theorem inv_act (limited : 0 < th.threadThroughput.toInt) (inv : ThrottleInv n th s)
    {act : ThrottleAct} {next : Throttle} (taken : s.step n th s.clock act = some next) :
    ThrottleInv n th next := by
  cases act with
  | job =>
    cases taken
    obtain ⟨around, started⟩ := around_job n inv.window inv.started s.clock
    exact inv_window inv around started (windowInv_job inv.window inv.clock) (UInt64.le_refl _)
  | other m =>
    simp only [Throttle.step] at taken
    split_ifs at taken with self
    cases taken
    have around : Around n s.window (s.window.step s.clock (.worker m)) :=
      around_other (Ne.symm self) s.window s.clock
    exact inv_window inv around ((step_worker_frame s.window s.clock m).2.2 inv.started)
      (windowInv_worker inv.window inv.clock) (UInt64.le_refl _)
  | thread => exact inv_thread limited inv taken
  | complete t =>
    simp only [Throttle.step] at taken
    split_ifs at taken with pc
    obtain ⟨tData, _, rfl⟩ := Option.map_eq_some_iff.mp taken
    exact inv_complete inv pc tData
  | leave =>
    simp only [Throttle.step] at taken
    split_ifs at taken with pc
    cases taken
    exact inv_leave inv pc

end Inv

/-- The clock moves on before a step as well as after it. -/
theorem step_clock (n : Nat) (th : ThreadParams) (s : Throttle) (now : UInt64) (act : ThrottleAct) :
    (s.step n th now act).map (fun after => { after with clock := now }) =
      ({ s with clock := now } : Throttle).step n th now act := by
  obtain ⟨window, clock, pc, threadBytesCount, skipped, skippedBytes, recorded⟩ := s
  cases act with
  | job => rfl
  | other m =>
    simp only [Throttle.step]
    split_ifs <;> rfl
  | thread =>
    simp only [Throttle.step, Throttle.stepThread]
    cases pc with
    | head =>
      simp only [Throttle.atHead, Option.map_some]
      split_ifs <;> rfl
    | readClock => rfl
    | readStart nowMs =>
      simp only [Throttle.check, Option.map_some]
      split_ifs <;> rfl
    | complete tData =>
      simp only [Throttle.finish, Option.map_some]
      cases window.control.workerPc n with
      | readClock => rfl
      | test =>
        dsimp only
        split_ifs <;> rfl
      | record => rfl
    | wait => rfl
    | left => rfl
  | complete t =>
    simp only [Throttle.step]
    split_ifs
    · cases th.targets[t]? <;> rfl
    · rfl
  | leave =>
    simp only [Throttle.step]
    split_ifs <;> rfl

/-- **Throttling**: right after a completion is counted, `E` milliseconds after the start of the
duration, the count is at most the larger of the bytes of the rounds whose check was skipped and of
`(g + 1) * E` and one block. -/
theorem throughput_bounded {n : Nat} {th : ThreadParams} {s : Throttle}
    (limited : 0 < th.threadThroughput.toInt) (reached : Reachable (throttleSystem n th) s) :
    ∀ entry ∈ s.recorded, entry.threadBytesCount.toInt ≤ max (s.skippedBytes : Int)
      ((th.threadThroughput.toInt + 1) * entry.sinceStartMs + entry.blockSize.toNat) := by
  refine (reached.invariant (H := ThrottleInv n th) ?_ ?_).bounded
  · rintro first rfl
    exact throttleInv_initial n th
  · rintro state ⟨act, now⟩ next inv taken
    have taken : (if state.clock ≤ now then (state.step n th now act).map fun after =>
      { after with clock := now } else none) = some next := taken
    split_ifs at taken with later
    rw [step_clock] at taken
    exact inv_act limited (inv_later inv later) taken

/-- A thread with `-g1`, in bytes for each millisecond. -/
def limitedThread : ThreadParams where
  threadId := 0
  targets := [{
    target := { path := ['a'], maxThroughput := 1 }
    targetIndex := 0
    fd := 3
    buffer := 0
    writeBuffer := 0 }]

/-- The job starts the duration; the thread passes its check after 2 ms, and counts a block after 5.
The next check sends it to sleep. -/
def limitedRun : List (ThrottleAct × UInt64) :=
  List.replicate 5 (.job, 0) ++
    [(.thread, 0), (.thread, 2000000), (.thread, 2000000), (.complete 0, 2000000),
      (.thread, 5000000), (.thread, 5000000), (.thread, 5000000),
      (.thread, 5000000), (.thread, 6000000), (.thread, 6000000)]

theorem limitedThread_bounded : ∃ s, Reachable (throttleSystem 0 limitedThread) s ∧
    s.recorded = [⟨5000, 0, 65536, 65536⟩] ∧ s.pc = .head ∧
    ∀ entry ∈ s.recorded, entry.threadBytesCount.toInt ≤ max (s.skippedBytes : Int)
      ((limitedThread.threadThroughput.toInt + 1) * entry.sinceStartMs + entry.blockSize.toNat) := by
  obtain ⟨s, replayed, recorded, pc⟩ : ∃ s : Throttle,
      replay (Throttle.advance 0 limitedThread) {} limitedRun = some s ∧
        s.recorded = [⟨5000, 0, 65536, 65536⟩] ∧ s.pc = .head := ⟨_, rfl, rfl, rfl⟩
  have reached : Reachable (throttleSystem 0 limitedThread) s :=
    ⟨{}, limitedRun, rfl, .of_replay _ (fun _ _ _ => id) replayed⟩
  exact ⟨s, reached, recorded, pc, throughput_bounded (by decide) reached⟩

end DiskSpd
