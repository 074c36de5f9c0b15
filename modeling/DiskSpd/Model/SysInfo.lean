/-
**What the program asks of the system** (`sys_info.h`, `sys_info.cc`).

* `CpuSet` — a `std::set<unsigned int>` of CPU ids.
* `readField`, `insertRange`, `strToCpuSet` — the parser of CPU sets, with its early ends, its
  truncated numbers and the signed loop variable.
* `initSysInfo` — the sets of CPUs, from the file of the online ones and the argument of `-a`.
* `schedulerLoop`, `schedulerFromDevice` — the selected scheduler in the line of a device.

`init_sys_info` goes on with the block devices and the state of `fua`, which leave the sets as they
are. The program calls it once, so its guard against a second call is left out.
-/

import DiskSpd.Lib.SortedSet
import DiskSpd.Model.Options

namespace DiskSpd

open MachineWord

abbrev CpuSet := SortedSet UInt32

/-- How the program can end. -/
inductive Stop where
  | failure (failure : Failure)
  /-- An expression that C++ gives no meaning. -/
  | undefined (expression : String)
  deriving DecidableEq, Repr

/-! ### CPU sets -/

def insertOne (cpu : UInt32) : CpuSet := SortedSet.empty.insert cpu

/-- Not `*ptr < '0' || *ptr > '9'`. -/
def startsNumber : CString → Bool
  | [] => false
  | c :: _ => isDigit c

/-- `strtoul` into an `unsigned int`, and the check for its error. An `unsigned long` has 64 bits,
so this `strtoul` is `strtoull`. -/
def readNumber (s ptr : CString) : Except Stop (UInt32 × CString) :=
  let (value, endptr) := strtoull ptr
  if value.toUInt32 = 0xFFFFFFFF then
    .error (.failure (.exit ("Invalid cpu set \"" ++ String.ofList s ++ "\"")))
  else .ok (value.toUInt32, endptr)

/-- The rest of a field after its first number: a dash and another number, or nothing. -/
def readNext (s : CString) (curr : UInt32) (endptr : CString) :
    Except Stop (Option (UInt32 × UInt32 × CString)) :=
  match endptr with
  | '-' :: ptr =>
    if startsNumber ptr then
      (readNumber s ptr).map fun (next, endptr) => some (curr, next, endptr)
    else .ok none
  | _ => .ok (some (curr, curr, endptr))

/-- A field: the CPUs from `curr` to `next`, and the rest of the string. `none` is an invalid
field. -/
def readField (s ptr : CString) : Except Stop (Option (UInt32 × UInt32 × CString)) :=
  if startsNumber ptr then
    (readNumber s ptr).bind fun (curr, endptr) => readNext s curr endptr
  else .ok none

/-- `for (int i = curr; i <= next; ++i) ret.insert(i)`, where the comparison is unsigned. -/
def insertRange (next : UInt32) (i : Int32) (ret : CpuSet) : Except Stop CpuSet :=
  if i.toUInt32 ≤ next then
    if i = Int32.maxValue then .error (.undefined "++i")
    else insertRange next (i + 1) (ret.insert i.toUInt32)
  else .ok ret
termination_by (2 ^ 31 - i.toInt).toNat
decreasing_by
  obtain ⟨below, next⟩ := toInt_add_one ‹¬ i = Int32.maxValue›
  omega

/-- A number that is read uses up a digit. -/
theorem readNumber_shorter {s ptr endptr : CString} {curr : UInt32}
    (starts : startsNumber ptr = true) (read : readNumber s ptr = .ok (curr, endptr)) :
    endptr.length < ptr.length := by
  cases ptr with
  | nil => cases starts
  | cons c rest =>
    have digit : isDigit c = true := starts
    unfold readNumber strtoull at read
    dsimp only at read
    split_ifs at read
    cases read
    rw [List.dropWhile_cons_of_pos digit]
    exact Nat.lt_succ_of_le (List.dropWhile_suffix _).length_le

theorem readNext_some {s endptr rest : CString} {curr first last : UInt32}
    (read : readNext s curr endptr = .ok (some (first, last, rest))) :
    first = curr ∧ ((∀ ptr, endptr ≠ '-' :: ptr) ∧ last = curr ∧ rest = endptr ∨
      ∃ ptr, endptr = '-' :: ptr ∧ startsNumber ptr = true ∧
        readNumber s ptr = .ok (last, rest)) := by
  unfold readNext at read
  split at read
  · rename_i ptr
    split_ifs at read with starts
    · cases number : readNumber s ptr with
      | error stop =>
        rw [number] at read
        cases read
      | ok second =>
        rw [number] at read
        cases read
        exact ⟨rfl, Or.inr ⟨ptr, rfl, starts, number⟩⟩
    · cases read
  · rename_i noDash
    cases read
    exact ⟨rfl, Or.inl ⟨noDash, rfl, rfl⟩⟩

/-- **What a field is read from**: a number, and after a dash another. -/
theorem readField_some {s ptr endptr : CString} {curr next : UInt32}
    (read : readField s ptr = .ok (some (curr, next, endptr))) :
    startsNumber ptr = true ∧ ∃ after, readNumber s ptr = .ok (curr, after) ∧
      ((∀ ptr', after ≠ '-' :: ptr') ∧ next = curr ∧ endptr = after ∨
        ∃ ptr', after = '-' :: ptr' ∧ startsNumber ptr' = true ∧
          readNumber s ptr' = .ok (next, endptr)) := by
  unfold readField at read
  split_ifs at read with starts
  · cases number : readNumber s ptr with
    | error stop =>
      rw [number] at read
      cases read
    | ok first =>
      obtain ⟨first, after⟩ := first
      rw [number] at read
      obtain ⟨rfl, cases'⟩ := readNext_some read
      exact ⟨starts, after, rfl, cases'⟩
  · cases read

/-- A field that is read uses up a digit. -/
theorem readField_shorter {s ptr endptr : CString} {curr next : UInt32}
    (read : readField s ptr = .ok (some (curr, next, endptr))) : endptr.length < ptr.length := by
  obtain ⟨starts, after, number, ⟨_, _, rfl⟩ | ⟨ptr', rfl, starts', number'⟩⟩ := readField_some read
  · exact readNumber_shorter starts number
  · have first := readNumber_shorter starts number
    have second := readNumber_shorter starts' number'
    rw [List.length_cons] at first
    omega

/-- The loop over the fields, from a pointer into the string. -/
def strToCpuSetLoop (s ptr : CString) (ret : CpuSet) : Except Stop CpuSet :=
  match _taken : readField s ptr with
  | .error stop => .error stop
  -- stop if we reach an invalid field
  | .ok none => .ok ret
  | .ok (some (curr, next, endptr)) =>
    match insertRange next curr.toInt32 ret with
    | .error stop => .error stop
    | .ok ret =>
      -- we're done if there are no more number fields (which are ',' separated)
      if endptr.head? ≠ some ',' then .ok ret
      else strToCpuSetLoop s endptr.tail ret
termination_by ptr.length
decreasing_by
  have shorter := readField_shorter ‹_›
  rw [List.length_tail]
  omega

def strToCpuSet (s : Option CString) : Except Stop CpuSet :=
  match s with
  | none => .ok .empty
  | some s => strToCpuSetLoop s s .empty

/-! ### The system -/

structure SysInfo where
  cpulo : UInt32 := 0                      -- lowest id
  cpuhi : UInt32 := 0                      -- highest id
  onlineCpus : CpuSet := insertOne 0       -- all online cpus
  affinityCpus : CpuSet := insertOne 0     -- cpuset specified by user

/-- The set-up of the CPUs. `onlinefile` is the line of `/sys/devices/system/cpu/online`, if the
file can be opened. -/
def initSysInfo (onlinefile affinitySet : Option CString) : Except Stop SysInfo :=
  match onlinefile with
  | none => .error (.failure (.exit "Error opening /sys/devices/system/cpu/online\n"))
  | some line => do
    let onlineCpus ← strToCpuSet (some line)
    match onlineCpus.toList.head?, onlineCpus.toList.getLast? with
    | some cpulo, some cpuhi =>
      let affinityCpus ← (if affinitySet.isSome then strToCpuSet affinitySet else .ok onlineCpus)
      .ok { cpulo, cpuhi, onlineCpus, affinityCpus }
    | _, _ => .error (.undefined "*online_cpus.begin()")

/-! ### The scheduler of a device -/

/-- The scan for the selected scheduler: where it starts, and the buffer. The index is 32 bits wide;
`none` is a scan that has not ended after so many rounds. -/
def schedulerLoop (size : Nat) : Nat → UInt32 → Int64 → List Char → Option (Int64 × List Char)
  | 0, _, _, _ => none
  | rounds + 1, i, schedstart, buf =>
    if i.toNat < size then
      let schedstart :=
        if buf[i.toNat]? = some '[' then (i + 1).toUInt64.toInt64 else schedstart
      if buf[i.toNat]? = some ']' then some (schedstart, buf.set i.toNat '\x00')
      else schedulerLoop size rounds (i + 1) schedstart buf
    else some (schedstart, buf)

/-- `std::string(&buf[schedstart])` -/
def stringAt (buf : List Char) (schedstart : Int64) : Except Stop (List Char) :=
  if 0 ≤ schedstart.toInt ∧ schedstart.toInt < buf.length then
    .ok ((buf.drop schedstart.toInt.toNat).takeWhile (· ≠ '\x00'))
  else .error (.undefined "&buf[schedstart]")

/-- `scheduler_from_device`, with so many rounds for its scan. `schedfile` is the line of the
device's `queue/scheduler`, if the file can be opened. -/
def schedulerFromDevice (rounds : Nat) (device : CString) (schedfile : Option (List Char)) :
    Option (Except Stop (List Char)) :=
  match schedfile with
  | none => some (.error (.failure (.exit ("Couldn't open scheduler file for device " ++
      String.ofList device ++ "\n"))))
  | some line =>
    (schedulerLoop line.length rounds 0 (-1) (line ++ ['\x00'])).map fun (schedstart, buf) =>
      stringAt buf schedstart

end DiskSpd
