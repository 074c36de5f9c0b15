/-
**When a byte size is the number it denotes.**

* `sizeNumber`, `sizeFactor` — the number and the multiplier that a size argument denotes.
* `wrappedSize` — what the code computes of them: the number saturated by `strtoull`, times the
  multiplier, in 64 bits.
* `byteSizeFromArg_eq` — the code returns the wrapped size, or stops where its sign bit is set.
* `byteSize_exact_iff` — so it returns the number denoted, or stops, exactly unless the product is too
  large and its wrapped value is not.
-/

import DiskSpd.Proof.Accepted

namespace DiskSpd

open MachineWord

/-! ### What an argument denotes -/

/-- The number in front of the suffix. -/
def sizeNumber (arg : CString) : Nat :=
  digitsValue (arg.takeWhile isDigit)

/-- The multiplier the suffix stands for. -/
def sizeFactor (arg : CString) (blockSize : UInt64) : Nat :=
  match arg.dropWhile isDigit with
  | ['K'] => 1024
  | ['M'] => 2 ^ 20
  | ['G'] => 2 ^ 30
  | ['b'] => blockSize.toNat
  | _ => 1

/-- The saturated number times the multiplier, in 64 bits. -/
def wrappedSize (arg : CString) (blockSize : UInt64) : Nat :=
  min (sizeNumber arg) (2 ^ 64 - 1) * sizeFactor arg blockSize % 2 ^ 64

section Grammar

variable {arg : CString} {blockSize : UInt64}

/-- After the digits of a valid size there is nothing, or one suffix. -/
theorem validByteSizeLoop_suffix (valid : validByteSizeLoop arg = true) :
    arg.dropWhile isDigit = [] ∨ ∃ c, arg.dropWhile isDigit = [c] ∧ c ∈ ['K', 'M', 'G', 'b'] := by
  induction arg with
  | nil => exact Or.inl rfl
  | cons c rest ih =>
    unfold validByteSizeLoop at valid
    split_ifs at valid with digit
    · rw [List.dropWhile_cons_of_pos digit]
      exact ih valid
    · rw [List.dropWhile_cons_of_neg digit]
      simp only [Bool.and_eq_true, List.isEmpty_iff] at valid
      exact Or.inr ⟨c, by rw [valid.1.2], List.contains_iff_mem.mp valid.1.1⟩

theorem validByteSize_loop (valid : validByteSize arg = true) : validByteSizeLoop arg = true := by
  unfold validByteSize at valid
  cases arg with
  | nil => cases valid
  | cons c rest =>
    dsimp only at valid
    split_ifs at valid
    exact valid

/-- A valid size starts with a digit that is not zero. -/
theorem sizeNumber_pos (valid : validByteSize arg = true) : 0 < sizeNumber arg := by
  unfold validByteSize at valid
  cases arg with
  | nil => cases valid
  | cons c rest =>
    dsimp only at valid
    split_ifs at valid with first
    simp only [Bool.or_eq_true, decide_eq_true_eq, not_or, Char.not_le, Char.not_lt] at first
    have digit : isDigit c = true := by
      simp only [isDigit, Bool.not_eq_true', Bool.or_eq_false_iff, decide_eq_false_iff_not,
        Char.not_lt]
      exact ⟨Nat.le_of_lt first.1, first.2⟩
    have low : 48 < c.toNat := first.1
    have offset : '0'.toNat = 48 := rfl
    unfold sizeNumber digitsValue
    rw [List.takeWhile_cons_of_pos digit, List.foldl_cons]
    have grows := digitsValue_foldl_le (rest.takeWhile isDigit) (10 * 0 + (c.toNat - '0'.toNat))
    omega

theorem sizeFactor_pos (positive : 0 < blockSize.toNat) : 0 < sizeFactor arg blockSize := by
  unfold sizeFactor
  split <;> omega

theorem suffixMultiplier_valid (valid : validByteSize arg = true) :
    ∃ multiplier, suffixMultiplier (strtoull arg).2 blockSize = .ok multiplier ∧
      multiplier.toNat = sizeFactor arg blockSize := by
  show ∃ multiplier, suffixMultiplier (arg.dropWhile isDigit) blockSize = .ok multiplier ∧ _
  unfold sizeFactor
  rcases validByteSizeLoop_suffix (validByteSize_loop valid) with none | ⟨c, one, suffix⟩
  · rw [none]
    exact ⟨1, rfl, rfl⟩
  · rw [one]
    simp only [List.mem_cons, List.not_mem_nil, or_false] at suffix
    rcases suffix with rfl | rfl | rfl | rfl
    · exact ⟨1024, rfl, rfl⟩
    · exact ⟨1048576, rfl, rfl⟩
    · exact ⟨1073741824, rfl, rfl⟩
    · exact ⟨blockSize, rfl, rfl⟩

end Grammar

/-! ### What the code returns -/

section Sizes

variable {arg : CString} {blockSize : UInt64}

/-- **The code returns the wrapped size**, or stops where its sign bit is set. -/
theorem byteSizeFromArg_eq (valid : validByteSize arg = true) : byteSizeFromArg arg blockSize =
    if wrappedSize arg blockSize < 2 ^ 63 then .ok (UInt64.ofNat (wrappedSize arg blockSize))
    else .error (.assertion "Overflow error") := by
  obtain ⟨multiplier, suffix, factor⟩ : ∃ multiplier,
      suffixMultiplier (strtoull arg).2 blockSize = .ok multiplier ∧
        multiplier.toNat = sizeFactor arg blockSize := suffixMultiplier_valid valid
  have product : ((strtoull arg).1 * multiplier).toNat = wrappedSize arg blockSize := by
    have number : (strtoull arg).1.toNat = min (sizeNumber arg) (2 ^ 64 - 1) := by
      show (UInt64.ofNat (min (sizeNumber arg) (2 ^ 64 - 1))).toNat = _
      rw [UInt64.toNat_ofNat']
      omega
    rw [UInt64.toNat_mul, number, factor]
    rfl
  have sign : (0 : Int64) ≤ ((strtoull arg).1 * multiplier).toInt64 ↔
      wrappedSize arg blockSize < 2 ^ 63 := by
    have small := ((strtoull arg).1 * multiplier).toNat_lt
    rw [Int64.le_iff_toInt_le, Int64.toInt_zero, toInt_toInt64, product]
    omega
  have same : ((strtoull arg).1 * multiplier).toInt64.toUInt64 =
      UInt64.ofNat (wrappedSize arg blockSize) := by
    rw [← product, UInt64.ofNat_toNat]
    rfl
  unfold byteSizeFromArg
  rw [suffix]
  show (if 0 ≤ ((strtoull arg).1 * multiplier).toInt64 then
    Except.ok ((strtoull arg).1 * multiplier).toInt64.toUInt64 else _) = _
  rw [same]
  exact if_congr sign rfl rfl

theorem wrappedSize_of_small (positive : 0 < blockSize.toNat)
    (small : sizeNumber arg * sizeFactor arg blockSize < 2 ^ 63) :
    wrappedSize arg blockSize = sizeNumber arg * sizeFactor arg blockSize := by
  have factor : 0 < sizeFactor arg blockSize := sizeFactor_pos positive
  have number : sizeNumber arg ≤ sizeNumber arg * sizeFactor arg blockSize :=
    Nat.le_mul_of_pos_right _ factor
  unfold wrappedSize
  rw [min_eq_left (by omega), Nat.mod_eq_of_lt (by omega)]

theorem wrappedSize_lt : wrappedSize arg blockSize < 2 ^ 64 :=
  Nat.mod_lt _ (by decide)

end Sizes

/-! ### Numbers of the caller's type -/

/-- The integer a value stands for; the cast keeps a number that the type can hold. -/
class LawfulLimits (T : Type) [NumericLimits T] where
  toInt : T → Int
  toInt_ofUInt64 : ∀ x : UInt64, x ≤ NumericLimits.max T →
    toInt (NumericLimits.ofUInt64 x) = x.toNat

instance : LawfulLimits UInt64 where
  toInt x := x.toNat
  toInt_ofUInt64 _ _ := rfl

instance : LawfulLimits Int64 where
  toInt x := x.toInt
  toInt_ofUInt64 x small := by
    have limit : (0x7FFFFFFFFFFFFFFF : UInt64).toNat = 2 ^ 63 - 1 := rfl
    have bound := UInt64.le_iff_toNat_le.mp small
    exact toInt_toInt64_of_lt (by simp only [NumericLimits.max] at bound; omega)

instance : LawfulLimits UInt32 where
  toInt x := x.toNat
  toInt_ofUInt64 x small := by
    have limit : (0xFFFFFFFF : UInt64).toNat = 2 ^ 32 - 1 := rfl
    have bound := UInt64.le_iff_toNat_le.mp small
    show (x.toUInt32.toNat : Int) = x.toNat
    rw [UInt64.toNat_toUInt32]
    simp only [NumericLimits.max] at bound
    omega

/-- No option has both kinds of argument. -/
theorem optMap_byteSize {key : Char} {option : DiskspdOption} (entry : optMap key = some option)
    (size : option.has optByteSize = true) : option.has optNumeric = false := by
  unfold optMap at entry
  split at entry <;> cases entry <;> first | rfl | cases size

/-! ### Exact sizes -/

/-- **The code reads a size exactly or stops.** -/
def ReadsExactly (arg : CString) (blockSize : UInt64) : Prop :=
  ∀ size, byteSizeFromArg arg blockSize = .ok size →
    size.toNat = sizeNumber arg * sizeFactor arg blockSize ∧ 0 < size.toNat

/-- **The code stores the size of an option exactly or stops.** -/
def StoresExactly (T : Type) [NumericLimits T] [LawfulLimits T] (options : Options)
    (opt : OptionType) (arg : CString) (blockSize : UInt64) : Prop :=
  ∀ (ret value : T) (given : Bool), options.argToNumber opt blockSize ret = .ok (given, value) →
    LawfulLimits.toInt value = sizeNumber arg * sizeFactor arg blockSize ∧
      0 < LawfulLimits.toInt value

section Exact

variable {arg : CString} {blockSize : UInt64}

theorem readsExactly_iff (valid : validByteSize arg = true) (positive : 0 < blockSize.toNat) :
    ReadsExactly arg blockSize ↔ (wrappedSize arg blockSize < 2 ^ 63 →
      sizeNumber arg * sizeFactor arg blockSize < 2 ^ 63) := by
  have below : wrappedSize arg blockSize < 2 ^ 64 := wrappedSize_lt
  have value : (UInt64.ofNat (wrappedSize arg blockSize)).toNat = wrappedSize arg blockSize := by
    rw [UInt64.toNat_ofNat']
    exact Nat.mod_eq_of_lt below
  unfold ReadsExactly
  rw [byteSizeFromArg_eq valid]
  constructor
  · intro exact_ sign
    rw [if_pos sign] at exact_
    obtain ⟨same, _⟩ := exact_ _ rfl
    rw [value] at same
    omega
  · intro small size done
    split_ifs at done with sign
    cases done
    rw [value, wrappedSize_of_small positive (small sign)]
    exact ⟨rfl, Nat.mul_pos (sizeNumber_pos valid) (sizeFactor_pos positive)⟩

/-- What `arg_to_number` does for a size. -/
theorem argToNumber_byteSize {T : Type} [NumericLimits T] {options : Options} {opt : OptionType}
    {key : Char} {option : DiskspdOption} (seen : options.opts opt = some key)
    (entry : optMap key = some option) (size : option.has optByteSize = true)
    (valid : validByteSize (options.arg key) = true) (ret : T) :
    options.argToNumber opt blockSize ret =
      (byteSizeFromArg (options.arg key) blockSize).bind fun result =>
        if NumericLimits.max T < result then
          .error (.exit ("Argument to -" ++ key.toString ++ " too large\n"))
        else .ok (true, NumericLimits.ofUInt64 result) := by
  have nonempty : (options.arg key).isEmpty = false := by
    cases found : options.arg key with
    | nil =>
      rw [found] at valid
      cases valid
    | cons c rest => rfl
  unfold Options.argToNumber DiskspdOption.number
  simp only [seen, nonempty, entry, Option.getD_some, optMap_byteSize entry size, size]
  rfl

theorem storesExactly_iff {T : Type} [NumericLimits T] [LawfulLimits T] {options : Options}
    {opt : OptionType} {key : Char} {option : DiskspdOption} (seen : options.opts opt = some key)
    (entry : optMap key = some option) (size : option.has optByteSize = true)
    (valid : validByteSize (options.arg key) = true) (positive : 0 < blockSize.toNat) :
    StoresExactly T options opt (options.arg key) blockSize ↔
      (wrappedSize (options.arg key) blockSize < 2 ^ 63 →
        wrappedSize (options.arg key) blockSize ≤ (NumericLimits.max T).toNat →
        sizeNumber (options.arg key) * sizeFactor (options.arg key) blockSize < 2 ^ 63) := by
  have below : wrappedSize (options.arg key) blockSize < 2 ^ 64 := wrappedSize_lt
  have value : (UInt64.ofNat (wrappedSize (options.arg key) blockSize)).toNat =
      wrappedSize (options.arg key) blockSize := by
    rw [UInt64.toNat_ofNat']
    exact Nat.mod_eq_of_lt below
  have fits : UInt64.ofNat (wrappedSize (options.arg key) blockSize) ≤ NumericLimits.max T ↔
      wrappedSize (options.arg key) blockSize ≤ (NumericLimits.max T).toNat := by
    rw [UInt64.le_iff_toNat_le, value]
  unfold StoresExactly
  simp only [argToNumber_byteSize seen entry size valid, byteSizeFromArg_eq valid]
  constructor
  · intro exact_ sign small
    rw [if_pos sign] at exact_
    have stored := (exact_ (NumericLimits.ofUInt64 0) _ true
      (if_neg (UInt64.not_lt.mpr (fits.mpr small)))).1
    rw [LawfulLimits.toInt_ofUInt64 _ (fits.mpr small), value] at stored
    have product : wrappedSize (options.arg key) blockSize =
        sizeNumber (options.arg key) * sizeFactor (options.arg key) blockSize := by
      exact_mod_cast stored
    omega
  · intro small ret stored given done
    split_ifs at done with sign
    · have done : (if NumericLimits.max T < UInt64.ofNat (wrappedSize (options.arg key) blockSize)
          then Except.error _ else Except.ok _) = _ := done
      split_ifs at done with large
      cases done
      have inType := UInt64.not_lt.mp large
      rw [LawfulLimits.toInt_ofUInt64 _ inType, value,
        wrappedSize_of_small positive (small sign (fits.mp inType))]
      refine ⟨by push_cast; rfl, ?_⟩
      exact_mod_cast Nat.mul_pos (sizeNumber_pos valid) (sizeFactor_pos positive)
    · cases done

end Exact

/-- **When byte sizes are exact or refused**: unless the number times the multiplier is too large for
an `off_t` and its wrapped value is not. -/
theorem byteSize_exact_iff {blockSize : UInt64} (positive : 0 < blockSize.toNat) :
    (∀ arg : CString, validByteSize arg = true →
      (ReadsExactly arg blockSize ↔ (wrappedSize arg blockSize < 2 ^ 63 →
        sizeNumber arg * sizeFactor arg blockSize < 2 ^ 63))) ∧
    ∀ (T : Type) [NumericLimits T] [LawfulLimits T] (options : Options) (opt : OptionType)
      (key : Char) (option : DiskspdOption),
      options.opts opt = some key → optMap key = some option → option.has optByteSize = true →
      validByteSize (options.arg key) = true →
      (StoresExactly T options opt (options.arg key) blockSize ↔
        (wrappedSize (options.arg key) blockSize < 2 ^ 63 →
          wrappedSize (options.arg key) blockSize ≤ (NumericLimits.max T).toNat →
          sizeNumber (options.arg key) * sizeFactor (options.arg key) blockSize < 2 ^ 63)) :=
  ⟨fun _ valid => readsExactly_iff valid positive, fun _ _ _ _ _ _ _ seen entry size valid =>
    storesExactly_iff seen entry size valid positive⟩

/-- The options of `-b4K`. -/
def fourK : Options where
  opts := Function.update (fun _ => none) .blockSize (some 'b')
  arg := Function.update (fun _ => []) 'b' ['4', 'K']

/-- `4K` is read and stored as 4096. -/
theorem fourK_exact :
    ReadsExactly ['4', 'K'] 1 ∧ StoresExactly UInt64 fourK .blockSize ['4', 'K'] 1 := by
  obtain ⟨reads, stores⟩ := byteSize_exact_iff (show 0 < (1 : UInt64).toNat by decide)
  exact ⟨(reads ['4', 'K'] rfl).mpr fun _ => by decide,
    (stores UInt64 fourK .blockSize 'b' ⟨.blockSize, optByteSize ||| optNonZero⟩
      rfl rfl rfl rfl).mpr fun _ _ => by decide⟩

/-- **`17179869184G`** is 2^64 bytes, and is read as 0. -/
theorem hugeSize_not_exact :
    byteSizeFromArg "17179869184G".toList 1 = .ok 0 ∧
      sizeNumber "17179869184G".toList * sizeFactor "17179869184G".toList 1 = 2 ^ 64 ∧
      ¬ ReadsExactly "17179869184G".toList 1 := by
  have value : byteSizeFromArg "17179869184G".toList 1 = .ok 0 := by decide
  refine ⟨value, by decide, fun exact_ => ?_⟩
  exact absurd (exact_ 0 value).2 (by decide)

end DiskSpd
