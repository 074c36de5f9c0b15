/-
**What a list of CPUs denotes.**

* `Numeral`, `CpuField` — the fields of a list, with the CPUs they stand for.
* `readField_text`, `readField_field` — the parser reads a field exactly where one stands.
* `insertRange_mem`, `insertRange_small` — the loop over a range inserts it, and below the largest
  `int` it ends without an overflow.
* `Named` — the CPUs that the fields at the front of a string stand for; `strToCpuSet_mem` — the
  parser returns these.
* `cpuList_parsed` — a list of fields with small numbers is parsed to what its fields stand for, and
  the maximal runs of a set back to the set.
-/

import DiskSpd.Model.SysInfo
import Mathlib.Order.Interval.Set.Basic

namespace DiskSpd

open MachineWord SortedSet

/-! ### Fields -/

/-- A decimal number. -/
structure Numeral where
  digits : CString
  nonempty : digits ≠ []
  decimal : ∀ c ∈ digits, isDigit c = true

namespace Numeral

def value (n : Numeral) : Nat := digitsValue n.digits

/-- What `strtoul` leaves in an `unsigned int`. -/
def word (n : Numeral) : UInt32 := (UInt64.ofNat (min n.value (2 ^ 64 - 1))).toUInt32

theorem toNat_word (n : Numeral) : n.word.toNat = min n.value (2 ^ 64 - 1) % 2 ^ 32 := by
  unfold word
  rw [UInt64.toNat_toUInt32, UInt64.toNat_ofNat']
  omega

/-- A number without an error is truncated. -/
theorem toNat_word_of_valid {n : Numeral} (valid : n.word ≠ 0xFFFFFFFF) :
    n.word.toNat = n.value % 2 ^ 32 := by
  have word := n.toNat_word
  have other : n.word.toNat ≠ 2 ^ 32 - 1 := fun same => valid (UInt32.toNat_inj.mp same)
  omega

/-- A small number is neither truncated nor an error. -/
theorem word_of_small {n : Numeral} (small : n.value < 2 ^ 31 - 1) :
    n.word.toNat = n.value ∧ n.word ≠ 0xFFFFFFFF := by
  have word := n.toNat_word
  refine ⟨by omega, fun error => ?_⟩
  have largest : (0xFFFFFFFF : UInt32).toNat = 2 ^ 32 - 1 := rfl
  rw [error, largest] at word
  omega

theorem starts (n : Numeral) (rest : CString) : startsNumber (n.digits ++ rest) = true := by
  obtain ⟨c, digits, split⟩ := List.exists_cons_of_ne_nil n.nonempty
  rw [split]
  exact n.decimal c (split ▸ List.mem_cons_self)

/-- A number in decimal. -/
def ofNat (n : Nat) : Numeral where
  digits := Nat.toDigits 10 n
  nonempty := Nat.toDigits_ne_nil
  decimal := by
    intro c member
    have digit := Nat.isDigit_of_mem_toDigits (by decide) (by decide) member
    exact isDigit_iff.mpr (Char.isDigit_iff_toNat.mp digit)

theorem value_ofNat (n : Nat) : (ofNat n).value = n :=
  Nat.ofDigitChars_eq_foldl.symm.trans Nat.ofDigitChars_ten_toDigits

end Numeral

inductive CpuField where
  | one (a : Numeral)
  | range (a b : Numeral)

namespace CpuField

def text : CpuField → CString
  | one a => a.digits
  | range a b => a.digits ++ '-' :: b.digits

def first : CpuField → Numeral
  | one a => a
  | range a _ => a

def last : CpuField → Numeral
  | one a => a
  | range _ b => b

/-- The CPUs of a field. -/
def cpus : CpuField → Set Nat
  | one a => {a.value}
  | range a b => Set.Icc a.value b.value

/-- The CPUs of a field with its numbers truncated. -/
def ids (field : CpuField) : Set Nat :=
  Set.Icc (field.first.value % 2 ^ 32) (field.last.value % 2 ^ 32)

/-- The rest of a string does not go on with the field. -/
def Ends (field : CpuField) (rest : CString) : Prop :=
  startsNumber rest = false ∧
    match field with
    | one _ => ∀ ptr, rest ≠ '-' :: ptr
    | range _ _ => True

/-- No number of the field is the one that `strtoul` returns for an error. -/
def Valid (field : CpuField) : Prop :=
  field.first.word ≠ 0xFFFFFFFF ∧ field.last.word ≠ 0xFFFFFFFF

/-- The numbers of the field are below the largest `int`. -/
def Small (field : CpuField) : Prop :=
  field.first.value < 2 ^ 31 - 1 ∧ field.last.value < 2 ^ 31 - 1

/-- A run as a field. -/
def ofRun (run : Nat × Nat) : CpuField :=
  if run.1 = run.2 then one (.ofNat run.1) else range (.ofNat run.1) (.ofNat run.2)

theorem ends_ofRun (run : Nat × Nat) :
    (ofRun run).first.value = run.1 ∧ (ofRun run).last.value = run.2 := by
  unfold ofRun
  split_ifs with same
  · exact ⟨Numeral.value_ofNat _, (Numeral.value_ofNat _).trans same⟩
  · exact ⟨Numeral.value_ofNat _, Numeral.value_ofNat _⟩

theorem mem_cpus {field : CpuField} {c : Nat} :
    c ∈ field.cpus ↔ field.first.value ≤ c ∧ c ≤ field.last.value := by
  cases field with
  | one a => exact ⟨fun same => ⟨same.ge, same.le⟩, fun ⟨low, high⟩ => Nat.le_antisymm high low⟩
  | range a b => exact Iff.rfl

/-- A comma ends each field. -/
theorem ends_comma (field : CpuField) (rest : CString) : field.Ends (',' :: rest) := by
  refine ⟨rfl, ?_⟩
  cases field with
  | one a => exact fun ptr same => absurd (List.cons.inj same).1 (by decide)
  | range a b => trivial

theorem ends_nil (field : CpuField) : field.Ends [] := by
  refine ⟨rfl, ?_⟩
  cases field with
  | one a => exact fun ptr same => by cases same
  | range a b => trivial

end CpuField

/-! ### Reading a field -/

section Read

variable {s ptr rest endptr : CString} {curr next : UInt32}

/-- A number is read up to its end. -/
theorem readNumber_text (s : CString) (n : Numeral) (ends : startsNumber rest = false) :
    readNumber s (n.digits ++ rest) = if n.word = 0xFFFFFFFF then
      .error (.failure (.exit ("Invalid cpu set \"" ++ String.ofList s ++ "\"")))
    else .ok (n.word, rest) := by
  have stops : rest.takeWhile isDigit = [] ∧ rest.dropWhile isDigit = rest := by
    cases rest with
    | nil => exact ⟨rfl, rfl⟩
    | cons c rest =>
      have other : ¬ isDigit c = true := Bool.not_eq_true _ ▸ ends
      exact ⟨List.takeWhile_cons_of_neg other, List.dropWhile_cons_of_neg other⟩
  unfold readNumber strtoull
  rw [List.takeWhile_append_of_pos n.decimal, List.dropWhile_append_of_pos n.decimal, stops.1,
    stops.2, List.append_nil]
  rfl

/-- What is read is a number. -/
theorem readNumber_numeral (starts : startsNumber ptr = true)
    (read : readNumber s ptr = .ok (curr, endptr)) :
    ∃ n : Numeral, ptr = n.digits ++ endptr ∧ startsNumber endptr = false ∧ curr = n.word ∧
      n.word ≠ 0xFFFFFFFF := by
  have digits : ∀ c ∈ ptr.takeWhile isDigit, isDigit c = true :=
    List.all_eq_true.mp List.all_takeWhile
  have some : ptr.takeWhile isDigit ≠ [] := by
    cases ptr with
    | nil => cases starts
    | cons c rest =>
      have digit : isDigit c = true := starts
      rw [List.takeWhile_cons_of_pos digit]
      exact List.cons_ne_nil _ _
  have ends : startsNumber (ptr.dropWhile isDigit) = false := by
    have head := List.head?_dropWhile_not isDigit ptr
    cases tail : ptr.dropWhile isDigit with
    | nil => rfl
    | cons c rest =>
      rw [tail] at head
      exact head
  have text := readNumber_text s ⟨_, some, digits⟩ ends
  dsimp only at text
  rw [List.takeWhile_append_dropWhile, read] at text
  split_ifs at text with error
  cases text
  exact ⟨⟨_, some, digits⟩, List.takeWhile_append_dropWhile.symm, ends, rfl, error⟩

theorem readField_number (s : CString) (n : Numeral) (ends : startsNumber rest = false) :
    (n.word ≠ 0xFFFFFFFF → readField s (n.digits ++ rest) = readNext s n.word rest) ∧
    (n.word = 0xFFFFFFFF → ∃ stop, readField s (n.digits ++ rest) = .error stop) := by
  unfold readField
  rw [if_pos (n.starts rest), readNumber_text s n ends]
  refine ⟨fun valid => ?_, fun error => ?_⟩
  · rw [if_neg valid]
    rfl
  · rw [if_pos error]
    exact ⟨_, rfl⟩

theorem readNext_one (s : CString) (curr : UInt32) (noDash : ∀ ptr, rest ≠ '-' :: ptr) :
    readNext s curr rest = .ok (some (curr, curr, rest)) := by
  unfold readNext
  split
  · exact absurd rfl (noDash _)
  · rfl

theorem readNext_range (s : CString) (curr : UInt32) (n : Numeral)
    (ends : startsNumber rest = false) :
    (n.word ≠ 0xFFFFFFFF →
      readNext s curr ('-' :: (n.digits ++ rest)) = .ok (some (curr, n.word, rest))) ∧
    (n.word = 0xFFFFFFFF → ∃ stop, readNext s curr ('-' :: (n.digits ++ rest)) = .error stop) := by
  have read : readNext s curr ('-' :: (n.digits ++ rest)) =
      (readNumber s (n.digits ++ rest)).map fun number => some (curr, number.1, number.2) :=
    if_pos (n.starts rest)
  rw [read, readNumber_text s n ends]
  refine ⟨fun valid => ?_, fun error => ?_⟩
  · rw [if_neg valid]
    rfl
  · rw [if_pos error]
    exact ⟨_, rfl⟩

/-- **A field that ends is read**, unless a number in it is an error. -/
theorem readField_text (s : CString) {field : CpuField} (ends : field.Ends rest) :
    (field.Valid →
      readField s (field.text ++ rest) = .ok (some (field.first.word, field.last.word, rest))) ∧
    (¬ field.Valid → ∃ stop, readField s (field.text ++ rest) = .error stop) := by
  obtain ⟨noDigit, noDash⟩ := ends
  cases field with
  | one a =>
    obtain ⟨reads, fails⟩ := readField_number s a noDigit
    refine ⟨fun ⟨valid, _⟩ => (reads valid).trans (readNext_one s a.word noDash), fun invalid => ?_⟩
    exact fails (not_not.mp fun valid => invalid ⟨valid, valid⟩)
  | range a b =>
    have dash : startsNumber ('-' :: (b.digits ++ rest)) = false := rfl
    obtain ⟨reads, fails⟩ := readField_number s a dash
    obtain ⟨reads', fails'⟩ := readNext_range s a.word b noDigit
    have text : (CpuField.range a b).text ++ rest = a.digits ++ '-' :: (b.digits ++ rest) :=
      List.append_assoc _ _ _
    rw [text]
    refine ⟨fun ⟨valid, valid'⟩ => (reads valid).trans (reads' valid'), fun invalid => ?_⟩
    by_cases error : a.word = 0xFFFFFFFF
    · exact fails error
    · rw [reads error]
      exact fails' (not_not.mp fun valid => invalid ⟨error, valid⟩)

/-- **What is read is a field.** -/
theorem readField_field (read : readField s ptr = .ok (some (curr, next, endptr))) :
    ∃ field : CpuField, ptr = field.text ++ endptr ∧ field.Ends endptr ∧ field.Valid ∧
      curr = field.first.word ∧ next = field.last.word := by
  obtain ⟨starts, after, number, ⟨noDash, rfl, rfl⟩ | ⟨ptr', rfl, starts', number'⟩⟩ :=
    readField_some read
  · obtain ⟨a, rfl, ends, word, valid⟩ := readNumber_numeral starts number
    exact ⟨.one a, rfl, ⟨ends, noDash⟩, ⟨valid, valid⟩, word, word⟩
  · obtain ⟨a, rfl, _, word, valid⟩ := readNumber_numeral starts number
    obtain ⟨b, rfl, ends, word', valid'⟩ := readNumber_numeral starts' number'
    have text : a.digits ++ '-' :: (b.digits ++ endptr) = (CpuField.range a b).text ++ endptr :=
      (List.append_assoc a.digits ('-' :: b.digits) endptr).symm
    exact ⟨.range a b, text, ⟨ends, trivial⟩, ⟨valid, valid'⟩, word, word'⟩

end Read

/-! ### A range -/

section Range

variable {next : UInt32} {i : Int32} {ret set : CpuSet}

/-- **A range that is inserted**: the CPUs from one number to the other. -/
theorem insertRange_mem (notLargest : next ≠ 0xFFFFFFFF)
    (done : insertRange next i ret = .ok set) (c : UInt32) :
    c ∈ set ↔ c ∈ ret ∨ (i.toUInt32 ≤ c ∧ c ≤ next) := by
  fun_induction insertRange next i ret with
  | case1 ret below => cases done
  | case2 i ret below notMax ih =>
    obtain ⟨_, successor⟩ := toInt_add_one notMax
    have here := toNat_toUInt32 i
    have after := toNat_toUInt32 (i + 1)
    have largest : (0xFFFFFFFF : UInt32).toNat = 2 ^ 32 - 1 := rfl
    have other : next.toNat ≠ (0xFFFFFFFF : UInt32).toNat :=
      fun same => notLargest (UInt32.toNat_inj.mp same)
    have bounded := next.toNat_lt
    have range : c = i.toUInt32 ∨ (i + 1).toUInt32 ≤ c ∧ c ≤ next ↔ i.toUInt32 ≤ c ∧ c ≤ next := by
      rw [UInt32.le_iff_toNat_le] at below
      rw [← UInt32.toNat_inj, UInt32.le_iff_toNat_le, UInt32.le_iff_toNat_le,
        UInt32.le_iff_toNat_le]
      omega
    rw [ih done, mem_insert, or_assoc, or_left_comm, range]
  | case3 i ret above =>
    cases done
    rw [UInt32.le_iff_toNat_le] at above
    rw [UInt32.le_iff_toNat_le, UInt32.le_iff_toNat_le]
    refine (or_iff_left fun ⟨low, high⟩ => ?_).symm
    omega

/-- **A range below the largest `int` is inserted** without an overflow. -/
theorem insertRange_small (small : next.toNat < 2 ^ 31 - 1) (nonneg : 0 ≤ i.toInt) :
    ∃ set, insertRange next i ret = .ok set := by
  fun_induction insertRange next i ret with
  | case1 ret below =>
    have largest : Int32.maxValue.toUInt32.toNat = 2 ^ 31 - 1 := rfl
    rw [UInt32.le_iff_toNat_le, largest] at below
    omega
  | case2 i ret below notMax ih =>
    obtain ⟨_, successor⟩ := toInt_add_one notMax
    exact ih (by omega)
  | case3 i ret above => exact ⟨ret, rfl⟩

end Range

/-! ### All fields -/

/-- **The CPUs that a string names**: those of the fields at its front, each followed by a comma up
to the first that is not. -/
inductive Named : CString → Nat → Prop
  | here {field : CpuField} {rest : CString} {c : Nat} :
      field.Ends rest → c ∈ field.ids → Named (field.text ++ rest) c
  | later {field : CpuField} {rest : CString} {c : Nat} :
      Named rest c → Named (field.text ++ ',' :: rest) c

theorem Named.lt {s : CString} {c : Nat} (named : Named s c) : c < 2 ^ 32 := by
  induction named with
  | here _ member => exact member.2.trans_lt (Nat.mod_lt _ (by decide))
  | later _ ih => exact ih

section Fields

variable {s ptr endptr : CString} {curr next : UInt32} {c : Nat}

/-- A field at the front of the string is the one that is read. -/
theorem readField_front {field : CpuField} {rest : CString}
    {result : Option (UInt32 × UInt32 × CString)}
    (read : readField s (field.text ++ rest) = .ok result) (ends : field.Ends rest) :
    field.Valid ∧ result = some (field.first.word, field.last.word, rest) := by
  obtain ⟨reads, fails⟩ := readField_text s ends
  by_cases valid : field.Valid
  · exact ⟨valid, Except.ok.inj (read.symm.trans (reads valid))⟩
  · obtain ⟨stop, failed⟩ := fails valid
    cases read.symm.trans failed

/-- The CPUs that a string names are those of its first field, and after a comma those of the
rest. -/
theorem named_iff (read : readField s ptr = .ok (some (curr, next, endptr))) :
    Named ptr c ↔ (curr.toNat ≤ c ∧ c ≤ next.toNat) ∨
      ∃ rest, endptr = ',' :: rest ∧ Named rest c := by
  -- each field at the front is the one that is read
  have only : ∀ {field : CpuField} {rest : CString}, ptr = field.text ++ rest → field.Ends rest →
      curr.toNat = field.first.value % 2 ^ 32 ∧ next.toNat = field.last.value % 2 ^ 32 ∧
        endptr = rest := by
    intro field rest text ends
    rw [text] at read
    obtain ⟨valid, same⟩ := readField_front read ends
    cases same
    exact ⟨Numeral.toNat_word_of_valid valid.1, Numeral.toNat_word_of_valid valid.2, rfl⟩
  constructor
  · intro named
    generalize text : ptr = string at named
    cases named with
    | here ends member =>
      obtain ⟨first, last, _⟩ := only text ends
      refine Or.inl ?_
      rw [first, last]
      exact member
    | later named =>
      obtain ⟨_, _, rest⟩ := only text (CpuField.ends_comma _ _)
      exact Or.inr ⟨_, rest, named⟩
  · obtain ⟨field, text, ends, _, _, _⟩ := readField_field read
    obtain ⟨first, last, _⟩ := only text ends
    rintro (⟨low, high⟩ | ⟨rest, rfl, named⟩)
    · rw [text]
      exact .here ends ⟨first ▸ low, last ▸ high⟩
    · rw [text]
      exact .later named

theorem not_named (read : readField s ptr = .ok none) : ¬ Named ptr c := by
  have never : ∀ {field : CpuField} {rest : CString}, ptr = field.text ++ rest →
      ¬ field.Ends rest := by
    intro field rest text ends
    rw [text] at read
    obtain ⟨_, same⟩ := readField_front read ends
    cases same
  intro named
  generalize text : ptr = string at named
  cases named with
  | here ends _ => exact never text ends
  | later _ => exact never text (CpuField.ends_comma _ _)

theorem next_ne (read : readField s ptr = .ok (some (curr, next, endptr))) : next ≠ 0xFFFFFFFF := by
  obtain ⟨field, _, _, valid, _, rfl⟩ := readField_field read
  exact valid.2

/-- **The loop over the fields** adds the CPUs that the string names. -/
theorem strToCpuSetLoop_mem {ret set : CpuSet} (done : strToCpuSetLoop s ptr ret = .ok set)
    (cpu : UInt32) : cpu ∈ set ↔ cpu ∈ ret ∨ Named ptr cpu.toNat := by
  fun_induction strToCpuSetLoop s ptr ret with
  | case1 ptr ret stop read => cases done
  | case2 ptr ret read =>
    cases done
    exact (or_iff_left (not_named read)).symm
  | case3 ptr ret curr next endptr read stop failed => cases done
  | case4 ptr ret curr next endptr read ret' inserted noComma =>
    cases done
    have none : ¬ ∃ rest, endptr = ',' :: rest ∧ Named rest cpu.toNat := by
      rintro ⟨rest, rfl, _⟩
      exact noComma rfl
    rw [insertRange_mem (next_ne read) inserted, UInt32.toUInt32_toInt32, named_iff read,
      or_iff_left none, UInt32.le_iff_toNat_le, UInt32.le_iff_toNat_le]
  | case5 ptr ret curr next endptr read ret' inserted comma ih =>
    obtain ⟨rest, rfl⟩ := List.head?_eq_some_iff.mp (not_not.mp comma)
    have more : (∃ rest', ',' :: rest = ',' :: rest' ∧ Named rest' cpu.toNat) ↔
        Named rest cpu.toNat :=
      ⟨fun ⟨_, same, named⟩ => (List.cons.inj same).2 ▸ named, fun named => ⟨rest, rfl, named⟩⟩
    rw [ih done, insertRange_mem (next_ne read) inserted, UInt32.toUInt32_toInt32, named_iff read,
      List.tail_cons, more, or_assoc, UInt32.le_iff_toNat_le, UInt32.le_iff_toNat_le]

/-- **The parser returns the CPUs that the string names.** -/
theorem strToCpuSet_mem {set : CpuSet} (done : strToCpuSet (some s) = .ok set) (cpu : UInt32) :
    cpu ∈ set ↔ Named s cpu.toNat := by
  rw [strToCpuSetLoop_mem done, or_iff_right (not_mem_empty cpu)]

end Fields

/-! ### Lists of small numbers -/

/-- The fields with commas between them. -/
def cpuListText (fields : List CpuField) : CString :=
  List.intercalate [','] (fields.map CpuField.text)

/-- The loop goes on behind a comma. -/
theorem strToCpuSetLoop_read {s ptr endptr : CString} {curr next : UInt32} {ret set : CpuSet}
    (read : readField s ptr = .ok (some (curr, next, endptr)))
    (inserted : insertRange next curr.toInt32 ret = .ok set) :
    strToCpuSetLoop s ptr ret =
      if endptr.head? ≠ some ',' then .ok set else strToCpuSetLoop s endptr.tail set := by
  rw [strToCpuSetLoop]
  split
  · rename_i failed
    cases read.symm.trans failed
  · rename_i invalid
    cases read.symm.trans invalid
  · rename_i again
    cases read.symm.trans again
    rw [inserted]

/-- A small field is read, and its range is inserted. -/
theorem readField_small (s : CString) {field : CpuField} (small : field.Small) {rest : CString}
    (ends : field.Ends rest) (ret : CpuSet) :
    ∃ curr next set, readField s (field.text ++ rest) = .ok (some (curr, next, rest)) ∧
      insertRange next curr.toInt32 ret = .ok set ∧
      ∀ cpu : UInt32, cpu ∈ set ↔ cpu ∈ ret ∨ cpu.toNat ∈ field.cpus := by
  obtain ⟨first, valid⟩ := Numeral.word_of_small small.1
  obtain ⟨last, valid'⟩ := Numeral.word_of_small small.2
  have nonneg : 0 ≤ field.first.word.toInt32.toInt := by
    have bound := small.1
    rw [toInt_toInt32_of_lt (by omega)]
    exact Int.natCast_nonneg _
  obtain ⟨set, inserted⟩ :
      ∃ set, insertRange field.last.word field.first.word.toInt32 ret = .ok set :=
    insertRange_small (last ▸ small.2) nonneg
  refine ⟨_, _, set, (readField_text s ends).1 ⟨valid, valid'⟩, inserted, fun cpu => ?_⟩
  rw [insertRange_mem valid' inserted, UInt32.toUInt32_toInt32, CpuField.mem_cpus,
    UInt32.le_iff_toNat_le, UInt32.le_iff_toNat_le, first, last]

/-- **A list of small fields is parsed** to what its fields stand for. -/
theorem strToCpuSetLoop_fields (s : CString) {fields : List CpuField}
    (small : ∀ field ∈ fields, field.Small) (ret : CpuSet) :
    ∃ set, strToCpuSetLoop s (cpuListText fields) ret = .ok set ∧ ∀ cpu : UInt32,
      cpu ∈ set ↔ cpu ∈ ret ∨ ∃ field ∈ fields, cpu.toNat ∈ field.cpus := by
  have noField : ∀ cpu : UInt32, ¬ ∃ field ∈ ([] : List CpuField), cpu.toNat ∈ field.cpus :=
    fun cpu ⟨_, no, _⟩ => by cases no
  induction fields generalizing ret with
  | nil =>
    refine ⟨ret, ?_, fun cpu => (or_iff_left (noField cpu)).symm⟩
    unfold strToCpuSetLoop
    rfl
  | cons field fields ih =>
    obtain ⟨first, later⟩ := List.forall_mem_cons.mp small
    simp only [List.exists_mem_cons_iff]
    cases fields with
    | nil =>
      obtain ⟨curr, next, set, read, inserted, mem⟩ := readField_small s first field.ends_nil ret
      have text : cpuListText [field] = field.text ++ [] :=
        List.intercalate_singleton.trans (List.append_nil _).symm
      refine ⟨set, ?_, fun cpu => ?_⟩
      · rw [text, strToCpuSetLoop_read read inserted, List.head?_nil,
          if_pos (Option.some_ne_none ',').symm]
      · rw [mem, or_iff_left (noField cpu)]
    | cons field' fields =>
      obtain ⟨curr, next, set, read, inserted, mem⟩ :=
        readField_small s first (field.ends_comma (cpuListText (field' :: fields))) ret
      obtain ⟨set', parsed, mem'⟩ := ih later set
      have text : cpuListText (field :: field' :: fields) =
          field.text ++ ',' :: cpuListText (field' :: fields) :=
        List.intercalate_cons_cons.trans (List.append_assoc _ _ _)
      refine ⟨set', ?_, fun cpu => ?_⟩
      · rw [text, strToCpuSetLoop_read read inserted, if_neg (not_not.mpr List.head?_cons)]
        exact parsed
      · rw [mem', mem, or_assoc, List.exists_mem_cons_iff]

/-- A list of small fields names what its fields stand for. -/
theorem named_cpuListText {fields : List CpuField} (small : ∀ field ∈ fields, field.Small)
    (c : Nat) : Named (cpuListText fields) c ↔ ∃ field ∈ fields, c ∈ field.cpus := by
  obtain ⟨set, parsed, mem⟩ := strToCpuSetLoop_fields (cpuListText fields) small .empty
  have word : c < 2 ^ 32 →
      (Named (cpuListText fields) c ↔ ∃ field ∈ fields, c ∈ field.cpus) := by
    intro bound
    have value : (UInt32.ofNat c).toNat = c :=
      UInt32.toNat_ofNat'.trans (Nat.mod_eq_of_lt bound)
    rw [← value, ← strToCpuSet_mem parsed, mem, or_iff_right (not_mem_empty _)]
  constructor
  · exact fun named => (word named.lt).mp named
  · rintro ⟨field, member, inside⟩
    have high := (CpuField.mem_cpus.mp inside).2
    have bound := (small field member).2
    exact (word (by omega)).mpr ⟨field, member, inside⟩

/-- The ascending maximal runs of a set. -/
def cpuRanges (set : CpuSet) : List (Nat × Nat) := runs (set.toList.map UInt32.toNat)

theorem areRuns_cpuRanges (set : CpuSet) :
    AreRuns (set.toList.map UInt32.toNat) (cpuRanges set) :=
  areRuns_runs (List.pairwise_map.mpr set.sorted)

/-- The CPUs of a set are those of the fields for its runs. -/
theorem mem_cpuRanges (set : CpuSet) (cpu : UInt32) :
    cpu ∈ set ↔ ∃ field ∈ (cpuRanges set).map CpuField.ofRun, cpu.toNat ∈ field.cpus := by
  have listed : cpu ∈ set ↔ cpu.toNat ∈ set.toList.map UInt32.toNat :=
    (List.mem_map_of_injective fun _ _ => UInt32.toNat_inj.mp).symm
  have cpus : ∀ run : Nat × Nat,
      cpu.toNat ∈ (CpuField.ofRun run).cpus ↔ run.1 ≤ cpu.toNat ∧ cpu.toNat ≤ run.2 := by
    intro run
    obtain ⟨first, last⟩ := CpuField.ends_ofRun run
    rw [CpuField.mem_cpus, first, last]
  rw [listed, (areRuns_cpuRanges set).mem]
  constructor
  · rintro ⟨run, member, inside⟩
    exact ⟨_, List.mem_map_of_mem member, (cpus run).mpr inside⟩
  · rintro ⟨field, member, inside⟩
    obtain ⟨run, inRanges, rfl⟩ := List.mem_map.mp member
    exact ⟨run, inRanges, (cpus run).mp inside⟩

/-- A run of small CPUs is a small field. -/
theorem small_cpuRanges {set : CpuSet} (small : ∀ cpu ∈ set, cpu.toNat < 2 ^ 31 - 1) :
    ∀ field ∈ (cpuRanges set).map CpuField.ofRun, field.Small := by
  have are := areRuns_cpuRanges set
  have below : ∀ c ∈ set.toList.map UInt32.toNat, c < 2 ^ 31 - 1 := List.forall_mem_map.mpr small
  refine List.forall_mem_map.mpr fun run member => ?_
  obtain ⟨first, last⟩ := CpuField.ends_ofRun run
  have ordered := are.ordered run member
  refine ⟨?_, ?_⟩
  · rw [first]
    exact below _ ((are.mem _).mpr ⟨run, member, le_rfl, ordered⟩)
  · rw [last]
    exact below _ ((are.mem _).mpr ⟨run, member, ordered, le_rfl⟩)

/-- **CPU lists.** A list of fields with small numbers is parsed to the CPUs that its fields stand
for, and a set of small CPUs comes back from its runs. -/
theorem cpuList_parsed :
    (∀ fields : List CpuField, (∀ field ∈ fields, field.Small) →
      ∃ set, strToCpuSet (some (cpuListText fields)) = .ok set ∧
        ∀ c : Nat, (∃ cpu ∈ set, cpu.toNat = c) ↔ ∃ field ∈ fields, c ∈ field.cpus) ∧
    ∀ set : CpuSet, (∀ cpu ∈ set, cpu.toNat < 2 ^ 31 - 1) →
      AreRuns (set.toList.map UInt32.toNat) (cpuRanges set) ∧
        strToCpuSet (some (cpuListText ((cpuRanges set).map CpuField.ofRun))) = .ok set := by
  refine ⟨fun fields small => ?_, fun set small => ⟨areRuns_cpuRanges set, ?_⟩⟩
  · obtain ⟨set, parsed, mem⟩ := strToCpuSetLoop_fields (cpuListText fields) small .empty
    refine ⟨set, parsed, fun c => ⟨?_, ?_⟩⟩
    · rintro ⟨cpu, member, rfl⟩
      exact ((mem cpu).mp member).resolve_left (not_mem_empty cpu)
    · rintro ⟨field, member, inside⟩
      have value : (UInt32.ofNat c).toNat = c := by
        have high := (CpuField.mem_cpus.mp inside).2
        have bound := (small field member).2
        rw [UInt32.toNat_ofNat']
        exact Nat.mod_eq_of_lt (by omega)
      refine ⟨UInt32.ofNat c, (mem _).mpr (Or.inr ⟨field, member, ?_⟩), value⟩
      rw [value]
      exact inside
  · obtain ⟨set', parsed, mem⟩ := strToCpuSetLoop_fields
      (cpuListText ((cpuRanges set).map CpuField.ofRun)) (small_cpuRanges small) .empty
    have same : set' = set := ext fun cpu => by
      rw [mem, or_iff_right (not_mem_empty cpu), mem_cpuRanges set]
    exact same ▸ parsed

/-- The fields `0-3`, `7` and `5-2`. -/
def threeFields : List CpuField :=
  [.range (.ofNat 0) (.ofNat 3), .one (.ofNat 7), .range (.ofNat 5) (.ofNat 2)]

theorem cpuList_parsed_three :
    (∃ set, strToCpuSet (some "0-3,7,5-2".toList) = .ok set ∧
      ∀ c : Nat, (∃ cpu ∈ set, cpu.toNat = c) ↔ ∃ field ∈ threeFields, c ∈ field.cpus) ∧
    strToCpuSet (some (cpuListText ((cpuRanges (insertOne 7)).map CpuField.ofRun))) =
      .ok (insertOne 7) := by
  have text : "0-3,7,5-2".toList = cpuListText threeFields := by decide
  rw [text]
  refine ⟨cpuList_parsed.1 threeFields ?_, (cpuList_parsed.2 (insertOne 7) ?_).2⟩
  · simp only [threeFields, List.forall_mem_cons, CpuField.Small]
    decide
  · intro cpu member
    rw [List.mem_singleton.mp member]
    decide

end DiskSpd
