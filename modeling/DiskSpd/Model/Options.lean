/-
**The command line options** (`options.h`, `options.cc`).

* `optMap` — the table of options: their keys, types and `OPT_*` flags.
* `isNumeric`, `validByteSize` — the two argument grammars.
* `byteSizeFromArg` — a size argument as a 64-bit number, with the wrap of the multiplication and
  the assertion on its sign.
* `Options.parseArg` — one call of the parser the argp library makes; `Options.parseArgs` — all of
  them, stopping at the first error.
* `Options.argToNumber` — a recorded argument as a number of the caller's type.

Strings are C strings: lists of characters without the terminating NUL. The help texts of the table
are left out, since only argp prints them.
-/

import DiskSpd.Lib.MachineWord
import Mathlib.Logic.Function.Basic

namespace DiskSpd

/-- A C string, without its terminating NUL. -/
abbrev CString := List Char

/-- How the program can end or refuse while it reads its options. -/
inductive Failure where
  /-- A function returns `false` after printing the message. -/
  | rejected (message : String)
  /-- `exit(1)` after printing the message. -/
  | exit (message : String)
  /-- A failed `assert`, which is enabled in the build. -/
  | assertion (text : String)
  deriving DecidableEq, Repr

/-- The statement `if (condition) { print message; return false; }`. -/
def rejectIf (condition : Bool) (message : String) : Except Failure Unit :=
  if condition then .error (.rejected message) else .ok ()

/-! ### The option table -/

inductive OptionType where
  | cpuAffinity | blockSize | baseOffset | createFiles | duration | diops | maxSize | totalThreads
  | maxThroughput | latency | noAffinity | overlap | randomAlign | sequentialStride
  | cachingOptions | threadsPerTarget | threadStride | verbose | ioEngine | write | warmupTime
  | randSeed | ioBuffers
  deriving DecidableEq, Repr

def optNumeric : UInt32 := 0x1
def optByteSize : UInt32 := 0x2
def optNonZero : UInt32 := 0x4

/-- An entry of the table. Its `arg` field is kept in `Options.arg`. -/
structure DiskspdOption where
  type : OptionType
  flags : UInt32
  deriving DecidableEq, Repr

/-- `option.flags & flag` -/
def DiskspdOption.has (option : DiskspdOption) (flag : UInt32) : Bool :=
  option.flags &&& flag != 0

def optMap : Char → Option DiskspdOption
  | 'a' => some ⟨.cpuAffinity, 0⟩
  | 'b' => some ⟨.blockSize, optByteSize ||| optNonZero⟩
  | 'B' => some ⟨.baseOffset, optByteSize⟩
  | 'c' => some ⟨.createFiles, optByteSize ||| optNonZero⟩
  | 'd' => some ⟨.duration, optNumeric ||| optNonZero⟩
  | 'D' => some ⟨.diops, optNumeric⟩
  | 'f' => some ⟨.maxSize, optByteSize ||| optNonZero⟩
  | 'F' => some ⟨.totalThreads, optNumeric⟩
  | 'g' => some ⟨.maxThroughput, optByteSize ||| optNonZero⟩
  | 'L' => some ⟨.latency, 0⟩
  | 'n' => some ⟨.noAffinity, 0⟩
  | 'o' => some ⟨.overlap, optNumeric ||| optNonZero⟩
  | 'r' => some ⟨.randomAlign, optByteSize ||| optNonZero⟩
  | 's' => some ⟨.sequentialStride, 0⟩
  | 'S' => some ⟨.cachingOptions, 0⟩
  | 't' => some ⟨.threadsPerTarget, optNumeric ||| optNonZero⟩
  | 'T' => some ⟨.threadStride, optByteSize⟩
  | 'v' => some ⟨.verbose, 0⟩
  | 'w' => some ⟨.write, optNumeric⟩
  | 'W' => some ⟨.warmupTime, optNumeric⟩
  | 'x' => some ⟨.ioEngine, 0⟩
  | 'z' => some ⟨.randSeed, optNumeric⟩
  | 'Z' => some ⟨.ioBuffers, 0⟩
  | _ => none

/-! ### The argument grammars -/

/-- `'0' <= c && c <= '9'` -/
def isDigit (c : Char) : Bool := !(c < '0' || '9' < c)

theorem isDigit_iff {c : Char} : isDigit c = true ↔ 48 ≤ c.toNat ∧ c.toNat ≤ 57 := by
  simp only [isDigit, Bool.not_eq_true', Bool.or_eq_false_iff, decide_eq_false_iff_not,
    Char.not_lt]
  exact Iff.rfl

def isNumeric (arg : CString) : Bool :=
  match arg with
  -- if first digit is 0, that should be the whole string
  | '0' :: _ :: _ => false
  | _ => arg.all isDigit

/-- The loop of `valid_byte_size`: a character that is no digit must be a suffix at the end. -/
def validByteSizeLoop : CString → Bool
  | [] => true
  | c :: rest =>
    if isDigit c then validByteSizeLoop rest
    else ['K', 'M', 'G', 'b'].contains c && rest.isEmpty && validByteSizeLoop rest

def validByteSize (arg : CString) : Bool :=
  match arg with
  | [] => false
  | c :: _ => if c ≤ '0' || '9' < c then false else validByteSizeLoop arg

/-! ### Sizes -/

/-- The value of a string of decimal digits. -/
def digitsValue (digits : CString) : Nat :=
  digits.foldl (fun value c => 10 * value + (c.toNat - '0'.toNat)) 0

/-- `strtoull` in base 10 on a string that starts with a digit: the number, saturated at the
largest one, and the rest of the string. The code calls it after a check that the string does. -/
def strtoull (s : CString) : UInt64 × CString :=
  (UInt64.ofNat (min (digitsValue (s.takeWhile isDigit)) (2 ^ 64 - 1)), s.dropWhile isDigit)

def getSizeMultiplier (specifier : Char) (blockSize : UInt64) : Except Failure UInt64 :=
  match specifier with
  | 'K' => .ok 1024
  | 'M' => .ok 1048576
  | 'G' => .ok 1073741824
  | 'b' => .ok blockSize
  | _ => .error (.assertion "Invalid size specifier!")

/-- The multiplier of the character after the number, if there is one; else 1. -/
def suffixMultiplier (endptr : CString) (blockSize : UInt64) : Except Failure UInt64 :=
  match endptr with
  | [] => .ok 1
  | specifier :: _ => getSizeMultiplier specifier blockSize

def byteSizeFromArg (currArg : CString) (blockSize : UInt64) : Except Failure UInt64 := do
  let multiplier ← suffixMultiplier (strtoull currArg).2 blockSize
  let finalOffset : Int64 := ((strtoull currArg).1 * multiplier).toInt64
  if 0 ≤ finalOffset then .ok finalOffset.toUInt64 else .error (.assertion "Overflow error")

/-! ### Parsing -/

/-- The keys argp hands to the parser: an option, `ARGP_KEY_ARG`, or another special key. -/
inductive Key where
  | option (key : Char)
  | keyArg
  | special
  deriving DecidableEq, Repr

/-- The errors of `parse_arg`. -/
inductive ArgError where
  | einval (message : String)
  | argpErrUnknown
  deriving DecidableEq, Repr

/-- What `Options` has recorded: the key of each option seen, the `arg` field of each entry of the
table, and the non-option arguments. -/
structure Options where
  opts : OptionType → Option Char := fun _ => none
  arg : Char → CString := fun _ => []
  nonOpts : List CString := []

/-- The `OPT_NON_ZERO` check: `arg[0] == '0' && (arg[1] < '1' || arg[1] > '9')`. -/
def isZero : CString → Bool
  | ['0'] => true
  | '0' :: c :: _ => c < '1' || '9' < c
  | _ => false

/-- The check of an option's argument. -/
def validateArg (key : Char) (option : DiskspdOption) (arg : CString) : Except ArgError Unit :=
  if option.has optNumeric && !isNumeric arg then
    .error (.einval ("Argument to option -" ++ key.toString ++ " was invalid!\n"))
  else if option.has optByteSize && !validByteSize arg then
    .error (.einval ("Argument to option -" ++ key.toString ++ " was invalid!\n"))
  else if option.has optNonZero && isZero arg then
    .error (.einval ("Argument to option -" ++ key.toString ++ " was invalid!\n"))
  else .ok ()

def Options.parseArg (options : Options) (key : Key) (arg : Option CString) :
    Except ArgError Options :=
  match key with
  | .option key =>
    match optMap key with
    | none => .error .argpErrUnknown
    | some option =>
      if (options.opts option.type).isSome then
        .error (.einval ("Option -" ++ key.toString ++ " already specified!\n"))
      else
        let seen := { options with opts := Function.update options.opts option.type (some key) }
        match arg with
        | none => .ok seen
        | some arg => do
          validateArg key option arg
          .ok { seen with arg := Function.update seen.arg key arg }
  | .keyArg => .ok { options with nonOpts := options.nonOpts ++ [arg.getD []] }
  | .special => .error .argpErrUnknown

/-- All the calls argp makes for options and arguments, in order. -/
def Options.parseArgs : List (Key × Option CString) → Options → Except ArgError Options
  | [], options => .ok options
  | (key, arg) :: rest, options => do
    let next ← options.parseArg key arg
    Options.parseArgs rest next

def Options.getArg (options : Options) (o : OptionType) : Option CString :=
  (options.opts o).map options.arg

/-! ### Numbers -/

/-- `std::numeric_limits<T>::max()` as an `unsigned long long`, and the cast to `T`. -/
class NumericLimits (T : Type) where
  max : UInt64
  ofUInt64 : UInt64 → T

instance : NumericLimits UInt64 := ⟨0xFFFFFFFFFFFFFFFF, id⟩
instance : NumericLimits Int64 := ⟨0x7FFFFFFFFFFFFFFF, UInt64.toInt64⟩
instance : NumericLimits UInt32 := ⟨0xFFFFFFFF, UInt64.toUInt32⟩

/-- The number an argument stands for, by the flags of its option. -/
def DiskspdOption.number (option : DiskspdOption) (arg : CString) (blockSize : UInt64) :
    Except Failure UInt64 :=
  if option.has optNumeric then .ok (strtoull arg).1
  else if option.has optByteSize then byteSizeFromArg arg blockSize
  else .error (.assertion "Invalid argument passed to arg_to_number!")

/-- `arg_to_number<T>(opt, block_size, &ret)`: the value returned and the value left in `ret`. -/
def Options.argToNumber {T : Type} [NumericLimits T] (options : Options) (opt : OptionType)
    (blockSize : UInt64) (ret : T) : Except Failure (Bool × T) :=
  match options.opts opt with
  | none => .ok (false, ret)
  | some key =>
    -- no actual argument: succeed but do nothing
    if (options.arg key).isEmpty then .ok (true, ret)
    else do
      let result ← ((optMap key).getD ⟨opt, 0⟩).number (options.arg key) blockSize
      if NumericLimits.max T < result then
        .error (.exit ("Argument to -" ++ key.toString ++ " too large\n"))
      else .ok (true, NumericLimits.ofUInt64 result)

end DiskSpd
