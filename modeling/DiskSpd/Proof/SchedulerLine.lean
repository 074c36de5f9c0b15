/-
**The selected scheduler in a line.**

* `Opened` — where the scan starts the name: behind the last opening bracket so far, or at its
  sentinel.
* `schedulerLoop_ends` — a scan that meets a closing bracket or the end within 32 bits ends there,
  and puts the terminator there; `schedulerLoop_forever` — any other goes on for ever.
* `SchedulerRight` — the result starts inside the buffer, and is the text between the brackets of a
  line with one pair.
* `scheduler_iff` — this holds exactly if a bracket is opened before one is closed, the scan is
  within 32 bits, and no terminator stands between the brackets of a line with one pair.
-/

import DiskSpd.Model.SysInfo
import Mathlib.Data.List.TakeWhile

namespace DiskSpd

open MachineWord

/-- A list is taken up to a character at which it stops. -/
theorem takeWhile_append_stop {p : Char → Bool} {c : Char} (stops : p c = false)
    (xs ys : List Char) : (xs ++ c :: ys).takeWhile p = xs.takeWhile p := by
  rw [List.takeWhile_append, List.takeWhile_cons_of_neg (ne_true_of_eq_false stops)]
  split_ifs with all
  · rw [List.append_nil]
    exact ((List.takeWhile_prefix p).eq_of_length all).symm
  · rfl

/-- What is taken up to a character does not contain it. -/
theorem ne_of_mem_takeWhile {a c : Char} {xs : List Char} (member : c ∈ xs.takeWhile (· ≠ a)) :
    c ≠ a := by
  have taken := List.mem_takeWhile_imp member
  exact of_decide_eq_true taken

/-! ### The scan -/

/-- What is scanned of a line. -/
def beforeClose (line : List Char) : List Char := line.takeWhile (· ≠ ']')

/-- The start of the name after a part of the line. -/
def Opened (scanned : List Char) (start : Int64) : Prop :=
  ('[' ∉ scanned ∧ start = -1) ∨
  ∃ before text, scanned = before ++ '[' :: text ∧ '[' ∉ text ∧ start.toInt = before.length + 1

section Scan

variable {scanned rest line : List Char} {start : Int64} {c : Char}

theorem opened_open (short : scanned.length + 1 < 2 ^ 32) :
    Opened (scanned ++ ['[']) (UInt32.ofNat scanned.length + 1).toUInt64.toInt64 := by
  refine Or.inr ⟨scanned, [], rfl, List.not_mem_nil, ?_⟩
  have next : (UInt32.ofNat scanned.length + 1).toNat = scanned.length + 1 := by
    have one : (1 : UInt32).toNat = 1 := rfl
    rw [UInt32.toNat_add, UInt32.toNat_ofNat', one]
    omega
  rw [toInt_ofUInt32, next]
  exact Int.natCast_succ _

theorem opened_other (opened : Opened scanned start) (other : c ≠ '[') :
    Opened (scanned ++ [c]) start := by
  have notHere : '[' ∉ [c] := fun member => other (List.mem_singleton.mp member).symm
  rcases opened with ⟨none, sentinel⟩ | ⟨before, text, rfl, last, behind⟩
  · exact Or.inl ⟨List.not_mem_append none notHere, sentinel⟩
  · refine Or.inr ⟨before, text ++ [c], ?_, List.not_mem_append last notHere, behind⟩
    rw [List.append_assoc, List.cons_append]

/-- The start of the name after one more character. -/
theorem opened_next (opened : Opened scanned start) (short : scanned.length + 1 < 2 ^ 32)
    (c : Char) : Opened (scanned ++ [c]) (if c = '[' then
      (UInt32.ofNat scanned.length + 1).toUInt64.toInt64 else start) := by
  split_ifs with isOpen
  · subst isOpen
    exact opened_open short
  · exact opened_other opened isOpen

theorem beforeClose_cons (other : c ≠ ']') : beforeClose (c :: rest) = c :: beforeClose rest :=
  List.takeWhile_cons_of_pos (decide_eq_true other)

theorem ne_of_mem_beforeClose (member : c ∈ beforeClose line) : c ≠ ']' :=
  ne_of_mem_takeWhile member

/-- A round of the scan, at a character that is not a closing bracket. -/
theorem schedulerLoop_other {size rounds : Nat} {i : UInt32} {buf : List Char}
    (inside : i.toNat < size) (here : buf[i.toNat]? = some c) (other : c ≠ ']') :
    schedulerLoop size (rounds + 1) i start buf =
      schedulerLoop size rounds (i + 1) (if c = '[' then (i + 1).toUInt64.toInt64 else start)
        buf := by
  have notClose : ¬ some c = some ']' := fun same => other (Option.some.inj same)
  rw [schedulerLoop, if_pos inside, here, if_neg notClose]
  simp only [Option.some.injEq]

/-- The round of the scan at a closing bracket. -/
theorem schedulerLoop_close {size rounds : Nat} {i : UInt32} {buf : List Char}
    (inside : i.toNat < size) (here : buf[i.toNat]? = some ']') :
    schedulerLoop size (rounds + 1) i start buf = some (start, buf.set i.toNat '\x00') := by
  have notOpen : ¬ some ']' = some '[' := by decide
  rw [schedulerLoop, if_pos inside, here, if_neg notOpen, if_pos rfl]

/-- The index behind a part of the line that is short enough. -/
theorem toNat_length (short : (scanned ++ rest).length < 2 ^ 32) :
    (UInt32.ofNat scanned.length).toNat = scanned.length := by
  rw [List.length_append] at short
  rw [UInt32.toNat_ofNat']
  exact Nat.mod_eq_of_lt (by omega)

theorem ofNat_length_concat (scanned : List Char) (c : Char) :
    UInt32.ofNat (scanned ++ [c]).length = UInt32.ofNat scanned.length + 1 := by
  rw [List.length_append, List.length_singleton, UInt32.ofNat_add]
  rfl

/-- **The scan** from a place in the line: it ends behind what is scanned, with the terminator
there. -/
theorem schedulerLoop_scanned (opened : Opened scanned start)
    (short : (scanned ++ beforeClose rest).length < 2 ^ 32) :
    ∃ start' tail, schedulerLoop (scanned ++ rest).length (rest.length + 1)
        (UInt32.ofNat scanned.length) start (scanned ++ rest ++ ['\x00']) =
          some (start', scanned ++ beforeClose rest ++ '\x00' :: tail) ∧
      Opened (scanned ++ beforeClose rest) start' := by
  -- on the rest of the line: each of its characters takes a round, and the end one more
  induction rest generalizing scanned start with
  | nil =>
    have index := toNat_length short
    have done : ¬ (UInt32.ofNat scanned.length).toNat < (scanned ++ []).length := by
      rw [index, List.append_nil]
      exact Nat.lt_irrefl _
    refine ⟨start, [], if_neg done, ?_⟩
    exact (List.append_nil scanned).symm ▸ opened
  | cons c rest ih =>
    have index := toNat_length short
    have inside : (UInt32.ofNat scanned.length).toNat < (scanned ++ c :: rest).length := by
      rw [index, List.length_append, List.length_cons]
      omega
    have here : (scanned ++ c :: rest ++ ['\x00'])[(UInt32.ofNat scanned.length).toNat]? =
        some c := by
      rw [index, List.append_assoc, List.cons_append, List.getElem?_append_right le_rfl,
        Nat.sub_self, List.getElem?_cons_zero]
    by_cases close : c = ']'
    · subst close
      have nothing : beforeClose (']' :: rest) = [] := rfl
      have terminated : (scanned ++ ']' :: rest ++ ['\x00']).set scanned.length '\x00' =
          scanned ++ '\x00' :: (rest ++ ['\x00']) := by
        rw [List.append_assoc, List.set_append_right _ _ le_rfl, Nat.sub_self, List.cons_append,
          List.set_cons_zero]
      refine ⟨start, rest ++ ['\x00'], ?_, ?_⟩
      · rw [List.length_cons, schedulerLoop_close inside here, index, terminated, nothing,
          List.append_nil]
      · rw [nothing, List.append_nil]
        exact opened
    · rw [beforeClose_cons close, List.append_cons] at short
      have small := short
      rw [List.length_append, List.length_append, List.length_singleton] at small
      have opened' := opened_next opened (by omega) c
      rw [← ofNat_length_concat] at opened'
      rw [List.length_cons, schedulerLoop_other inside here close, beforeClose_cons close,
        List.append_cons scanned c rest, List.append_cons scanned c (beforeClose rest),
        ← ofNat_length_concat]
      exact ih opened' short

/-- **A scan within 32 bits ends.** -/
theorem schedulerLoop_ends (short : (beforeClose line).length < 2 ^ 32) :
    ∃ rounds start tail, schedulerLoop line.length rounds 0 (-1) (line ++ ['\x00']) =
        some (start, beforeClose line ++ '\x00' :: tail) ∧
      Opened (beforeClose line) start := by
  have opened : Opened [] (-1) := Or.inl ⟨List.not_mem_nil, rfl⟩
  have short : ([] ++ beforeClose line).length < 2 ^ 32 := short
  obtain ⟨start, tail, ends, opened⟩ := schedulerLoop_scanned opened short
  exact ⟨_, start, tail, ends, opened⟩

/-- **A scan beyond 32 bits goes on for ever**: its index goes round before it meets a bracket. -/
theorem schedulerLoop_forever (long : 2 ^ 32 ≤ (beforeClose line).length) (rounds : Nat)
    (i : UInt32) (start : Int64) :
    schedulerLoop line.length rounds i start (line ++ ['\x00']) = none := by
  induction rounds generalizing i start with
  | zero => rfl
  | succ rounds ih =>
    have isPrefix : beforeClose line <+: line := List.takeWhile_prefix _
    have scanned : i.toNat < (beforeClose line).length := i.toNat_lt.trans_le long
    have inside : i.toNat < line.length := scanned.trans_le isPrefix.length_le
    have here : (line ++ ['\x00'])[i.toNat]? = some (beforeClose line)[i.toNat] := by
      rw [List.getElem?_append_left inside, List.getElem?_eq_getElem inside, isPrefix.getElem]
    have other : (beforeClose line)[i.toNat] ≠ ']' :=
      ne_of_mem_beforeClose (List.getElem_mem scanned)
    rw [schedulerLoop_other inside here other]
    exact ih _ _

/-- The end of the scan does not depend on how many rounds it is given. -/
theorem schedulerLoop_unique {size rounds rounds' : Nat} {i : UInt32} {buf : List Char}
    {result result' : Int64 × List Char}
    (ends : schedulerLoop size rounds i start buf = some result)
    (ends' : schedulerLoop size rounds' i start buf = some result') : result = result' := by
  induction rounds generalizing rounds' i start with
  | zero => cases ends
  | succ rounds ih =>
    cases rounds' with
    | zero => cases ends'
    | succ rounds' =>
      rw [schedulerLoop] at ends ends'
      split_ifs at ends ends' with inside
      -- the scan ends in this round, or it goes on with the same rest
      · exact Option.some.inj (ends.symm.trans ends')
      · exact ih ends ends'
      · exact Option.some.inj (ends.symm.trans ends')
      · exact ih ends ends'
      · exact Option.some.inj (ends.symm.trans ends')

/-- **The result** when a bracket is opened: what stands behind the last one, up to a terminator. -/
theorem schedulerFromDevice_open (device : CString) (isOpen : '[' ∈ beforeClose line)
    (short : (beforeClose line).length < 2 ^ 32) :
    ∃ rounds before text, beforeClose line = before ++ '[' :: text ∧ '[' ∉ text ∧
      schedulerFromDevice rounds device (some line) =
        some (.ok (text.takeWhile (· ≠ '\x00'))) := by
  obtain ⟨rounds, start, tail, ends, ⟨none, _⟩ | ⟨before, text, split, last, behind⟩⟩ :=
    schedulerLoop_ends short
  · exact absurd isOpen none
  · refine ⟨rounds, before, text, split, last, ?_⟩
    have place : start.toInt.toNat = before.length + 1 := by omega
    have buf : beforeClose line ++ '\x00' :: tail =
        (before ++ ['[']) ++ (text ++ '\x00' :: tail) := by
      rw [split, List.append_assoc, List.append_assoc, List.cons_append, List.singleton_append]
    have name : (beforeClose line ++ '\x00' :: tail).drop start.toInt.toNat =
        text ++ '\x00' :: tail := by
      rw [buf, place]
      exact List.drop_left' List.length_append
    have inside : 0 ≤ start.toInt ∧ start.toInt < (beforeClose line ++ '\x00' :: tail).length := by
      rw [split, List.length_append, List.length_append, List.length_cons, List.length_cons]
      omega
    unfold schedulerFromDevice
    dsimp only
    rw [ends, Option.map_some, stringAt, if_pos inside, name,
      takeWhile_append_stop rfl]

end Scan

/-! ### The result -/

/-- A line with one opening bracket, and one closing bracket behind it. -/
structure OnePair (line before text after : List Char) : Prop where
  line_eq : line = before ++ '[' :: (text ++ ']' :: after)
  others : ∀ c ∈ before ++ text ++ after, c ≠ '[' ∧ c ≠ ']'

section Pair

variable {line before text after : List Char}

/-- What is scanned of a line with one pair. -/
theorem OnePair.beforeClose_eq (pair : OnePair line before text after) :
    beforeClose line = before ++ '[' :: text := by
  have scanned : ∀ c ∈ before ++ '[' :: text, (decide (c ≠ ']')) = true := by
    intro c member
    refine decide_eq_true ?_
    rcases List.mem_append.mp member with early | late
    · exact (pair.others c (List.mem_append_left _ (List.mem_append_left _ early))).2
    · rcases List.mem_cons.mp late with rfl | inside
      · decide
      · exact (pair.others c (List.mem_append_left _ (List.mem_append_right _ inside))).2
  have split : line = (before ++ '[' :: text) ++ ']' :: after := by
    rw [pair.line_eq, List.append_assoc, List.cons_append]
  rw [beforeClose, split, List.takeWhile_append_of_pos scanned,
    List.takeWhile_cons_of_neg (by decide), List.append_nil]

/-- **The result for a line with one pair**: the text, up to a terminator. -/
theorem OnePair.result (pair : OnePair line before text after)
    (short : (beforeClose line).length < 2 ^ 32) (device : CString) :
    ∃ rounds, schedulerFromDevice rounds device (some line) =
      some (.ok (text.takeWhile (· ≠ '\x00'))) := by
  have scanned := pair.beforeClose_eq
  have isOpen : '[' ∈ beforeClose line :=
    scanned ▸ List.mem_append_right before List.mem_cons_self
  obtain ⟨rounds, before', text', split, _, result⟩ :=
    schedulerFromDevice_open device isOpen short
  have notBefore : '[' ∉ before := fun member =>
    (pair.others _ (List.mem_append_left _ (List.mem_append_left _ member))).1 rfl
  have notText : '[' ∉ text := fun member =>
    (pair.others _ (List.mem_append_left _ (List.mem_append_right _ member))).1 rfl
  obtain ⟨rfl, _, rfl⟩ :=
    (List.append_cons_inj_of_notMem notBefore notText).mp (scanned.symm.trans split)
  exact ⟨rounds, result⟩

/-- The result does not depend on how many rounds the scan is given. -/
theorem schedulerFromDevice_unique {rounds rounds' : Nat} {device : CString}
    {result result' : Except Stop (List Char)}
    (ends : schedulerFromDevice rounds device (some line) = some result)
    (ends' : schedulerFromDevice rounds' device (some line) = some result') : result = result' := by
  obtain ⟨scanned, scan, rfl⟩ := Option.map_eq_some_iff.mp ends
  obtain ⟨scanned', scan', rfl⟩ := Option.map_eq_some_iff.mp ends'
  rw [schedulerLoop_unique scan scan']

end Pair

/-- **The scheduler of a line is the right one.** -/
structure SchedulerRight (line : List Char) : Prop where
  inside : ∃ rounds start buf,
    schedulerLoop line.length rounds 0 (-1) (line ++ ['\x00']) = some (start, buf) ∧
      0 ≤ start.toInt ∧ start.toInt ≤ line.length
  between : ∀ {before text after}, OnePair line before text after →
    ∀ device, ∃ rounds, schedulerFromDevice rounds device (some line) = some (.ok text)

/-- **The scheduler of a device.** The scan is right exactly if a bracket is opened before one is
closed, the closing one or the end is within 32 bits, and no terminator is between the brackets. -/
theorem scheduler_iff (line : List Char) :
    SchedulerRight line ↔ '[' ∈ beforeClose line ∧ (beforeClose line).length < 2 ^ 32 ∧
      ∀ before text after, OnePair line before text after → '\x00' ∉ text := by
  constructor
  · rintro ⟨⟨rounds, start, buf, ends, low, high⟩, between⟩
    have short : (beforeClose line).length < 2 ^ 32 := by
      by_contra long
      rw [schedulerLoop_forever (Nat.not_lt.mp long)] at ends
      cases ends
    have isOpen : '[' ∈ beforeClose line := by
      obtain ⟨rounds', start', tail, ends', opened⟩ := schedulerLoop_ends short
      cases schedulerLoop_unique ends ends'
      rcases opened with ⟨_, rfl⟩ | ⟨before, text, split, _⟩
      · exact absurd low (by decide)
      · rw [split]
        exact List.mem_append_right before List.mem_cons_self
    refine ⟨isOpen, short, fun before text after pair => ?_⟩
    obtain ⟨rounds', all⟩ := between pair []
    obtain ⟨rounds'', upTo⟩ := pair.result short []
    have whole : text = text.takeWhile (· ≠ '\x00') :=
      Except.ok.inj (schedulerFromDevice_unique all upTo)
    intro terminator
    rw [whole] at terminator
    exact ne_of_mem_takeWhile terminator rfl
  · rintro ⟨isOpen, short, noTerminator⟩
    refine ⟨?_, fun {before text after} pair device => ?_⟩
    · obtain ⟨rounds, start, tail, ends, ⟨none, _⟩ | ⟨before, text, split, _, behind⟩⟩ :=
        schedulerLoop_ends short
      · exact absurd isOpen none
      · have within : (beforeClose line).length ≤ line.length :=
          (List.takeWhile_prefix _).length_le
        rw [split, List.length_append, List.length_cons] at within
        exact ⟨rounds, start, _, ends, by omega, by omega⟩
    · obtain ⟨rounds, result⟩ := pair.result short device
      have whole : text.takeWhile (· ≠ '\x00') = text :=
        List.takeWhile_eq_self_iff.mpr fun c member => decide_eq_true fun same =>
          noTerminator before text after pair (same ▸ member)
      exact ⟨rounds, whole ▸ result⟩

/-- A device without a selected scheduler. -/
theorem scheduler_of_no_bracket :
    schedulerFromDevice 5 "loop0".toList (some "none".toList) =
        some (.error (.undefined "&buf[schedstart]")) ∧
      ¬ SchedulerRight "none".toList := by
  refine ⟨rfl, fun ⟨⟨rounds, start, buf, ends, low, _⟩, _⟩ => ?_⟩
  have scanned : schedulerLoop "none".toList.length 5 0 (-1) ("none".toList ++ ['\x00']) =
      some (-1, "none".toList ++ ['\x00']) := rfl
  cases schedulerLoop_unique scanned ends
  exact absurd low (by decide)

example : schedulerFromDevice 12 "sda".toList (some "none [bfq] kyber".toList) =
    some (.ok "bfq".toList) := rfl

end DiskSpd
