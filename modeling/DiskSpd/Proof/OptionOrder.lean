/-
**The order of the options does not matter.**

* `record_comm` — two options of different types may be recorded in either order.
* `parseArg_swap` — two calls may be exchanged, unless both hand over a target.
* `optionOrder` — permuted calls that keep the order of the targets record the same, so the job read
  from them is the same. A size in blocks is read after all of them, with the block size known.
-/

import DiskSpd.Lib.Reorder
import DiskSpd.Proof.OptionGrammar

namespace DiskSpd

open Reorder

/-- A call of the parser: a key and its argument. -/
abbrev Call : Type := Key × Option CString

/-- The call hands over a target. -/
def Call.isNonOption (call : Call) : Bool := call.1 == .keyArg

/-! ### One call -/

section Record

variable {options : Options} {key key' : Char} {option option' : DiskspdOption}
  {arg arg' : Option CString} {type : OptionType}

/-- An option is unseen after a call if it was before and is of another type. -/
theorem record_opts_none (unseen : (options.record key option arg).opts type = none) :
    type ≠ option.type ∧ options.opts type = none := by
  have different : type ≠ option.type := by
    rintro rfl
    rw [record_opts_self] at unseen
    cases unseen
  exact ⟨different, record_opts_of_ne different ▸ unseen⟩

theorem record_comm (types : option'.type ≠ option.type) (keys : key' ≠ key) :
    (options.record key option arg).record key' option' arg' =
      (options.record key' option' arg').record key option arg := by
  unfold Options.record
  rw [Options.mk.injEq]
  refine ⟨Function.update_comm types.symm _ _ _, ?_, rfl⟩
  cases arg with
  | none => rfl
  | some arg =>
    cases arg' with
    | none => rfl
    | some arg' => exact Function.update_comm keys.symm _ _ _

end Record

/-! ### Two calls -/

/-- **Two calls may be exchanged**, unless both hand over a target. -/
theorem parseArg_swap {options middle last : Options} {a b : Call}
    (notBoth : ¬(a.isNonOption = true ∧ b.isNonOption = true))
    (first : options.parseArg a.1 a.2 = .ok middle) (second : middle.parseArg b.1 b.2 = .ok last) :
    ∃ other, options.parseArg b.1 b.2 = .ok other ∧ other.parseArg a.1 a.2 = .ok last := by
  obtain ⟨key, arg⟩ := a
  obtain ⟨key', arg'⟩ := b
  cases key with
  | special => cases first
  | keyArg =>
    cases first
    cases key' with
    | special => cases second
    | keyArg => exact absurd ⟨rfl, rfl⟩ notBoth
    | option key' =>
      obtain ⟨option', entry', unseen', valid', rfl⟩ := parseArg_option_ok.mp second
      exact ⟨options.record key' option' arg',
        parseArg_option_ok.mpr ⟨option', entry', unseen', valid', rfl⟩, rfl⟩
  | option key =>
    obtain ⟨option, entry, unseen, valid, rfl⟩ := parseArg_option_ok.mp first
    cases key' with
    | special => cases second
    | keyArg =>
      cases second
      exact ⟨_, rfl, parseArg_option_ok.mpr ⟨option, entry, unseen, valid, rfl⟩⟩
    | option key' =>
      obtain ⟨option', entry', unseen', valid', rfl⟩ := parseArg_option_ok.mp second
      obtain ⟨types, unseen'⟩ := record_opts_none unseen'
      have keys : key' ≠ key := by
        rintro rfl
        rw [entry, Option.some.injEq] at entry'
        exact types (congrArg DiskspdOption.type entry'.symm)
      refine ⟨options.record key' option' arg',
        parseArg_option_ok.mpr ⟨option', entry', unseen', valid', rfl⟩,
        parseArg_option_ok.mpr ⟨option, entry, ?_, valid, record_comm types keys⟩⟩
      rw [record_opts_of_ne types.symm]
      exact unseen

/-! ### All calls -/

/-- One call, with its error forgotten. -/
def parseStep (options : Options) (call : Call) : Option Options :=
  (options.parseArg call.1 call.2).toOption

theorem toOption_some {ε α : Type} {x : Except ε α} {a : α} : x.toOption = some a ↔ x = .ok a := by
  cases x with
  | error e => exact ⟨nofun, nofun⟩
  | ok b => exact ⟨fun same => congrArg _ (Option.some.inj same), fun same => same ▸ rfl⟩

theorem parseArgs_toOption (calls : List Call) (options : Options) :
    (Options.parseArgs calls options).toOption = calls.foldlM parseStep options := by
  induction calls generalizing options with
  | nil => rfl
  | cons call calls ih =>
    rw [List.foldlM_cons, Options.parseArgs, parseStep]
    cases options.parseArg call.1 call.2 with
    | error error => rfl
    | ok next => exact ih next

theorem parseStep_commute (a b : Call)
    (notBoth : ¬(a.isNonOption = true ∧ b.isNonOption = true)) : Commute parseStep a b := by
  intro options
  ext last
  simp only [Option.bind_eq_bind, Option.bind_eq_some_iff, parseStep, toOption_some]
  constructor
  · rintro ⟨middle, first, second⟩
    exact parseArg_swap notBoth first second
  · rintro ⟨middle, first, second⟩
    exact parseArg_swap (fun both => notBoth both.symm) first second

/-- **The same outcome**: both command lines are rejected, or both record the same options, arguments
and targets, and the configuration read from them is the same. -/
def SameOutcome : Except ArgError Options → Except ArgError Options → Prop
  | .error _, .error _ => True
  | .ok first, .ok second =>
    first.opts = second.opts ∧ (∀ type, first.getArg type = second.getArg type) ∧
      first.nonOpts = second.nonOpts ∧ parseArguments first = parseArguments second ∧
      ∀ stat, parseOptions first stat = parseOptions second stat
  | _, _ => False

theorem sameOutcome_of_toOption {first second : Except ArgError Options}
    (same : first.toOption = second.toOption) : SameOutcome first second := by
  cases first with
  | error _ =>
    cases second with
    | error _ => trivial
    | ok _ => cases same
  | ok options =>
    cases second with
    | error _ => cases same
    | ok _ =>
      cases same
      exact ⟨rfl, fun _ => rfl, rfl, rfl, fun _ => rfl⟩

theorem parseCommandLine_congr {first second : List Call} {stat : CString → Stat}
    (same : SameOutcome (Options.parseArgs first {}) (Options.parseArgs second {})) :
    parseCommandLine first stat = parseCommandLine second stat := by
  unfold parseCommandLine
  cases parsed : Options.parseArgs first {} with
  | error _ =>
    cases parsed' : Options.parseArgs second {} with
    | error _ => rfl
    | ok _ =>
      rw [parsed, parsed'] at same
      exact same.elim
  | ok options =>
    cases parsed' : Options.parseArgs second {} with
    | error _ =>
      rw [parsed, parsed'] at same
      exact same.elim
    | ok options' =>
      rw [parsed, parsed'] at same
      exact same.2.2.2.2 stat

/-- **The order of the options does not matter**: permuted calls that keep the order of the targets
have the same outcome. -/
theorem optionOrder {first second : List Call} (perm : first.Perm second)
    (targets : first.filter Call.isNonOption = second.filter Call.isNonOption) :
    SameOutcome (Options.parseArgs first {}) (Options.parseArgs second {}) ∧
      ∀ stat, parseCommandLine first stat = parseCommandLine second stat := by
  have same : SameOutcome (Options.parseArgs first {}) (Options.parseArgs second {}) := by
    apply sameOutcome_of_toOption
    rw [parseArgs_toOption, parseArgs_toOption]
    exact foldlM_eq_of_perm parseStep_commute perm targets {}
  exact ⟨same, fun _ => parseCommandLine_congr same⟩

/-- `-f2b a -b8K` -/
def blocksFirst : List Call :=
  [(.option 'f', some ['2', 'b']), (.keyArg, some ['a']), (.option 'b', some ['8', 'K'])]

/-- `-b8K -f2b a` -/
def sizeFirst : List Call :=
  [(.option 'b', some ['8', 'K']), (.option 'f', some ['2', 'b']), (.keyArg, some ['a'])]

/-- Both have the same outcome: blocks of 8 KiB, and two of them as the maximum size of a larger file. -/
theorem blocksFirst_sameOutcome :
    SameOutcome (Options.parseArgs blocksFirst {}) (Options.parseArgs sizeFirst {}) ∧
      ∀ calls ∈ [blocksFirst, sizeFirst],
        ((parseCommandLine calls fun _ => .file 1048576).toOption.map fun job =>
          job.targets.map fun target => (target.blockSize, target.maxSize)) = some [(8192, 16384)] := by
  have perm : blocksFirst.Perm sizeFirst := by decide
  obtain ⟨same, sameJob⟩ := optionOrder perm rfl
  have atBlocks : ((parseCommandLine blocksFirst fun _ => .file 1048576).toOption.map fun job =>
      job.targets.map fun target => (target.blockSize, target.maxSize)) = some [(8192, 16384)] := by
    decide
  have atSize := atBlocks
  rw [sameJob] at atSize
  refine ⟨same, fun calls member => ?_⟩
  rcases List.mem_pair.mp member with rfl | rfl
  · exact atBlocks
  · exact atSize

end DiskSpd
