/-
**The language of an option's argument.**

* `numeral`, `byteSize` — the two grammars as regular expressions, `0|[1-9][0-9]*` and
  `[1-9][0-9]*[KMGb]?`.
* `isNumeric_iff`, `validByteSize_iff` — what the two scanners accept. The scanner of numerals also
  accepts the empty string.
* `GrammarRight` — a call of the parser accepts an argument exactly if it is in the language of its
  option, and the converter of sizes then never meets a specifier it does not know.
* `optionGrammar_iff` — this holds unless an option with a numeric argument gets an empty one.
-/

import DiskSpd.Lib.Grammar
import DiskSpd.Proof.ByteSizes
import Mathlib.Tactic.IntervalCases

namespace DiskSpd

open Grammar RegularExpression

/-! ### The grammars -/

def nonZeroDigits : List Char := ['1', '2', '3', '4', '5', '6', '7', '8', '9']

def digits : List Char := '0' :: nonZeroDigits

def suffixes : List Char := ['K', 'M', 'G', 'b']

/-- `0|[1-9][0-9]*` -/
def numeral : RegularExpression Char :=
  char '0' + oneOf nonZeroDigits * star (oneOf digits)

/-- `[1-9][0-9]*[KMGb]?` -/
def byteSize : RegularExpression Char :=
  oneOf nonZeroDigits * (star (oneOf digits) * optional (oneOf suffixes))

/-! ### The classes of the scanners -/

section Classes

variable {c : Char}

theorem mem_nonZeroDigits : c ∈ nonZeroDigits ↔ 48 < c.toNat ∧ c.toNat ≤ 57 := by
  constructor
  · intro member
    simp only [nonZeroDigits, List.mem_cons, List.not_mem_nil, or_false] at member
    rcases member with rfl | rfl | rfl | rfl | rfl | rfl | rfl | rfl | rfl <;> decide
  · rintro ⟨low, high⟩
    rw [← Char.ofNat_toNat c]
    generalize c.toNat = n at low high
    interval_cases n <;> decide

theorem toNat_eq_zeroDigit : c.toNat = 48 ↔ c = '0' :=
  ⟨fun same => Char.ext (UInt32.toNat_inj.mp same), fun same => same ▸ rfl⟩

theorem mem_digits : c ∈ digits ↔ isDigit c = true := by
  rw [digits, List.mem_cons, mem_nonZeroDigits, isDigit_iff, ← toNat_eq_zeroDigit]
  omega

/-- The test of `valid_byte_size` on the first character. -/
theorem mem_nonZeroDigits_iff : c ∈ nonZeroDigits ↔ (c ≤ '0' || '9' < c) = false := by
  rw [mem_nonZeroDigits, Bool.or_eq_false_iff, decide_eq_false_iff_not, decide_eq_false_iff_not,
    Char.not_le, Char.not_lt]
  exact Iff.rfl

end Classes

/-! ### The scanners -/

section Scanners

variable {arg : CString}

theorem all_isDigit_iff : arg.all isDigit = true ↔ arg ∈ (star (oneOf digits)).matches' := by
  rw [mem_star_oneOf, List.all_eq_true]
  exact forall₂_congr fun _ _ => mem_digits.symm

theorem mem_numeral : arg ∈ numeral.matches' ↔
    arg = ['0'] ∨ arg ∈ (oneOf nonZeroDigits * star (oneOf digits)).matches' := by
  rw [numeral, matches'_add, Language.mem_add, matches'_char]
  exact Iff.rfl

theorem nil_notMem_numeral : [] ∉ numeral.matches' := by
  rw [mem_numeral]
  rintro (zero | digits)
  · cases zero
  · exact nil_notMem_oneOf_mul digits

/-- **Numerals**: the scanner accepts them, and the empty string. -/
theorem isNumeric_iff : isNumeric arg = true ↔ arg = [] ∨ arg ∈ numeral.matches' := by
  cases arg with
  | nil => exact ⟨fun _ => Or.inl rfl, fun _ => rfl⟩
  | cons c rest =>
    rw [or_iff_right (List.cons_ne_nil c rest), mem_numeral, cons_mem_oneOf_mul]
    by_cases zero : c = '0'
    · subst zero
      have excluded : '0' ∉ nonZeroDigits := by decide
      rw [or_iff_left fun more => excluded more.1]
      cases rest with
      | nil => exact ⟨fun _ => rfl, fun _ => rfl⟩
      | cons d rest => exact ⟨nofun, nofun⟩
    · have scan : isNumeric (c :: rest) = (isDigit c && rest.all isDigit) := by
        unfold isNumeric
        split
        · rename_i same
          exact absurd (List.cons.inj same).1 zero
        · rfl
      have first : c ∈ nonZeroDigits ↔ isDigit c = true := by
        rw [← mem_digits, digits, List.mem_cons, or_iff_right zero]
      rw [scan, Bool.and_eq_true, all_isDigit_iff, first,
        or_iff_right fun one => zero (List.cons.inj one).1]

/-- The loop accepts digits and at most one suffix, which ends the string. -/
theorem validByteSizeLoop_iff : validByteSizeLoop arg = true ↔
    arg ∈ (star (oneOf digits) * optional (oneOf suffixes)).matches' := by
  induction arg with
  | nil => exact ⟨fun _ => nil_mem_star_mul.mpr (mem_optional.mpr (Or.inr rfl)), fun _ => rfl⟩
  | cons c rest ih =>
    have suffix : c :: rest ∈ (optional (oneOf suffixes)).matches' ↔ c ∈ suffixes ∧ rest = [] := by
      rw [mem_optional, or_iff_left (List.cons_ne_nil c rest), mem_oneOf]
      constructor
      · rintro ⟨b, member, same⟩
        obtain ⟨rfl, rfl⟩ := List.cons.inj same
        exact ⟨member, rfl⟩
      · rintro ⟨member, rfl⟩
        exact ⟨c, member, rfl⟩
    rw [cons_mem_star_mul, suffix, mem_digits, ← ih, validByteSizeLoop]
    by_cases digit : isDigit c = true
    · -- no suffix is a digit
      have other : c ∉ suffixes := by
        intro member
        simp only [suffixes, List.mem_cons, List.not_mem_nil, or_false] at member
        rcases member with rfl | rfl | rfl | rfl <;> cases digit
      rw [if_pos digit, or_iff_right fun both => other both.1, and_iff_right digit]
    · rw [if_neg digit, or_iff_left fun both => digit both.1, Bool.and_eq_true, Bool.and_eq_true,
        List.contains_iff_mem, List.isEmpty_iff]
      constructor
      · rintro ⟨both, _⟩
        exact both
      · rintro ⟨member, rfl⟩
        exact ⟨⟨member, rfl⟩, rfl⟩

/-- **Byte sizes**: the scanner accepts exactly their language. -/
theorem validByteSize_iff : validByteSize arg = true ↔ arg ∈ byteSize.matches' := by
  unfold validByteSize byteSize
  cases arg with
  | nil => exact ⟨fun valid => (nomatch valid), fun valid => (nil_notMem_oneOf_mul valid).elim⟩
  | cons c rest =>
    dsimp only
    rw [cons_mem_oneOf_mul, ← validByteSizeLoop_iff, mem_nonZeroDigits_iff]
    cases first : (decide (c ≤ '0') || decide ('9' < c)) with
    | true => exact ⟨fun valid => (nomatch valid), fun both => nomatch both.1⟩
    | false =>
      have digit : isDigit c = true :=
        mem_digits.mp (List.mem_cons_of_mem _ (mem_nonZeroDigits_iff.mpr first))
      rw [if_neg Bool.false_ne_true, validByteSizeLoop, if_pos digit, and_iff_right rfl]

end Scanners

/-! ### What the parser accepts -/

/-- A call of the parser with the option and its argument succeeds. -/
def Options.Accepts (options : Options) (key : Char) (arg : CString) : Prop :=
  ∃ next, options.parseArg (.option key) (some arg) = .ok next

theorem accepts_iff {options : Options} {key : Char} {option : DiskspdOption} {arg : CString}
    (entry : optMap key = some option) (unseen : options.opts option.type = none) :
    options.Accepts key arg ↔ ValidArg option arg := by
  constructor
  · rintro ⟨next, done⟩
    obtain ⟨option', entry', _, valid, _⟩ := parseArg_option_ok.mp done
    rw [entry, Option.some.injEq] at entry'
    exact entry' ▸ valid arg rfl
  · intro valid
    refine ⟨_, parseArg_option_ok.mpr ⟨option, entry, unseen, ?_, rfl⟩⟩
    rintro given ⟨⟩
    exact valid

/-- **The parser accepts the language of an option**, and the converter of sizes knows the specifier
of every size so accepted. -/
structure GrammarRight (options : Options) (key : Char) (option : DiskspdOption) (arg : CString) :
    Prop where
  numeric : option.has optNumeric = true → (options.Accepts key arg ↔
    arg ∈ numeral.matches' ∧ (option.has optNonZero = true → arg ≠ ['0']))
  byteSize : option.has optByteSize = true → (options.Accepts key arg ↔ arg ∈ byteSize.matches')
  specifier : option.has optByteSize = true → options.Accepts key arg → ∀ blockSize,
    byteSizeFromArg arg blockSize ≠ .error (.assertion "Invalid size specifier!")

section Languages

variable {arg : CString}

/-- The `OPT_NON_ZERO` check of a numeral. -/
theorem isZero_numeral (numeral : isNumeric arg = true) : isZero arg = false ↔ arg ≠ ['0'] := by
  unfold isZero
  split
  · exact ⟨nofun, fun other => (other rfl).elim⟩
  · cases numeral
  · rename_i one _
    exact ⟨fun _ => one, fun _ => rfl⟩

/-- A size never begins with a zero. -/
theorem isZero_byteSize (size : validByteSize arg = true) : isZero arg = false := by
  unfold isZero
  split
  · cases size
  · cases size
  · rfl

theorem byteSizeFromArg_specifier (size : validByteSize arg = true) (blockSize : UInt64) :
    byteSizeFromArg arg blockSize ≠ .error (.assertion "Invalid size specifier!") := by
  rw [byteSizeFromArg_eq size]
  split_ifs
  · exact nofun
  · rw [ne_eq, Except.error.injEq, Failure.assertion.injEq]
    decide

end Languages

/-- **The parser accepts the language of every option**, but an empty argument of a numeric one. -/
theorem optionGrammar_iff {options : Options} {key : Char} {option : DiskspdOption}
    (entry : optMap key = some option) (unseen : options.opts option.type = none) (arg : CString) :
    GrammarRight options key option arg ↔ (option.has optNumeric = true → arg ≠ []) := by
  have accepts : options.Accepts key arg ↔ ValidArg option arg := accepts_iff entry unseen
  have oneKind : option.has optNumeric = true → ¬ option.has optByteSize = true :=
    fun numeric size => Bool.false_ne_true ((optMap_byteSize entry size).symm.trans numeric)
  constructor
  · rintro ⟨language, _, _⟩ numeric rfl
    have accepted : options.Accepts key [] :=
      accepts.mpr ⟨fun _ => rfl, fun size => (oneKind numeric size).elim, fun _ => rfl⟩
    exact nil_notMem_numeral ((language numeric).mp accepted).1
  · intro nonempty
    refine ⟨fun numeric => ?_, fun size => ?_, fun size accepted => ?_⟩
    · have scanner : isNumeric arg = true ↔ arg ∈ numeral.matches' := by
        rw [isNumeric_iff, or_iff_right (nonempty numeric)]
      rw [accepts, ← scanner]
      constructor
      · intro valid
        exact ⟨valid.1 numeric, fun flag => (isZero_numeral (valid.1 numeric)).mp (valid.2.2 flag)⟩
      · rintro ⟨scanned, nonZero⟩
        exact ⟨fun _ => scanned, fun size => (oneKind numeric size).elim,
          fun flag => (isZero_numeral scanned).mpr (nonZero flag)⟩
    · rw [accepts, ← validByteSize_iff]
      constructor
      · intro valid
        exact valid.2.1 size
      · intro scanned
        exact ⟨fun numeric => (oneKind numeric size).elim, fun _ => scanned,
          fun _ => isZero_byteSize scanned⟩
    · exact byteSizeFromArg_specifier ((accepts.mp accepted).2.1 size)

/-- `-o 32` and `-f 8M` are in their languages. -/
theorem overlap_maxSize_right :
    GrammarRight {} 'o' ⟨.overlap, optNumeric ||| optNonZero⟩ ['3', '2'] ∧
      GrammarRight {} 'f' ⟨.maxSize, optByteSize ||| optNonZero⟩ ['8', 'M'] :=
  ⟨(optionGrammar_iff rfl rfl ['3', '2']).mpr fun _ => by decide,
    (optionGrammar_iff rfl rfl ['8', 'M']).mpr fun _ => by decide⟩

/-- **`-w ''`** is accepted, and no numeral is empty. -/
theorem emptyWrite_not_right :
    ({} : Options).Accepts 'w' [] ∧ ¬ GrammarRight {} 'w' ⟨.write, optNumeric⟩ [] := by
  have accepted : ({} : Options).Accepts 'w' [] := ⟨_, rfl⟩
  exact ⟨accepted, fun right => nil_notMem_numeral ((right.numeric rfl).mp accepted).1⟩

end DiskSpd
