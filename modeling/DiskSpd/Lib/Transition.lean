/-
**Transition systems, their runs and their invariants.**

* `System` — initial states and a labelled step relation; `System.where` keeps the steps that meet a
  condition.
* `Run` — a finite run with the list of its labels; `Reachable` — the states runs end in.
* `Run.invariant`, `Reachable.invariant` — what holds initially and is kept by each step holds at
  the end of each run. `Run.history` is the same rule for a fact about the state and the labels
  that led to it.
* `Run.trans`, `Run.single`, `Run.snoc` — runs compose.
* `Run.passes` — a count that no step raises by more than one passes each value up to its last.
* `Run.leads` — where some run always brings a measure down, some run leads to the goal.
* `Run.of_where` — the runs of fewer steps; `Run.of_replay` — the runs of an executable step.
* `System.beside` — two systems side by side, whose steps are taken alone or together; its runs are runs of
  both (`Reachable.fst`, `Reachable.snd`).
* `Simulation` — a forward simulation carries every run to a run of the other system, label by
  label (`Simulation.run`).
* `Prophecy` — the same when the other system settles an outcome earlier: each outcome that is still
  open has a related state that is reachable (`Prophecy.reachable`).
-/

import Mathlib.Tactic.TypeStar
import Mathlib.Data.List.Basic

namespace Transition

/-- Initial states and labelled steps. -/
structure System (State Label : Type*) where
  init : State → Prop
  step : State → Label → State → Prop

/-- The same system where each step meets a condition. -/
def System.where {State Label : Type*} (system : System State Label)
    (condition : State → Label → Prop) : System State Label where
  init := system.init
  step state label next := condition state label ∧ system.step state label next

variable {State Label : Type*} (system : System State Label)

/-- A finite run from one state to another, with its labels in order. -/
inductive Run (first : State) : List Label → State → Prop
  | refl : Run first [] first
  | snoc {middle last : State} {labels : List Label} {label : Label} :
      Run first labels middle → system.step middle label last → Run first (labels ++ [label]) last

/-- The end of a run from an initial state. -/
def Reachable (state : State) : Prop :=
  ∃ first labels, system.init first ∧ Run system first labels state

variable {system}

namespace Run

/-- **Invariants.** A property that each step keeps is kept by each run. -/
theorem invariant {H : State → Prop} {first last : State} {labels : List Label}
    (run : Run system first labels last) (start : H first)
    (keep : ∀ state label next, H state → system.step state label next → H next) :
    H last := by
  induction run with
  | refl => exact start
  | snoc _ step ih => exact keep _ _ _ ih step

/-- **Histories.** The same rule for a property of the state and of the labels so far. -/
theorem history {H : List Label → State → Prop} {first last : State} {labels : List Label}
    (run : Run system first labels last) (start : H [] first)
    (keep : ∀ past state label next, H past state → system.step state label next →
      H (past ++ [label]) next) :
    H labels last := by
  induction run with
  | refl => exact start
  | snoc _ step ih => exact keep _ _ _ _ ih step

theorem single {first last : State} {label : Label} (step : system.step first label last) :
    Run system first [label] last :=
  .snoc .refl step

theorem trans {first middle last : State} {before after : List Label}
    (left : Run system first before middle) (right : Run system middle after last) :
    Run system first (before ++ after) last := by
  induction right with
  | refl => rwa [List.append_nil]
  | snoc _ step ih =>
    rw [← List.append_assoc]
    exact .snoc ih step

/-- **A count that grows one by one** takes each value on the way. -/
theorem passes {count : State → Nat} {first last : State} {labels : List Label}
    (run : Run system first labels last)
    (grows : ∀ state label next, system.step state label next → count next ≤ count state + 1)
    {n : Nat} (start : count first ≤ n) (atEnd : n ≤ count last) :
    ∃ middle before after, Run system first before middle ∧ Run system middle after last ∧
      before ++ after = labels ∧ count middle = n := by
  induction run with
  | refl => exact ⟨first, [], [], .refl, .refl, rfl, by omega⟩
  | @snoc state last labels label before step ih =>
    by_cases earlier : n ≤ count state
    · obtain ⟨middle, past, rest, toMiddle, fromMiddle, split, same⟩ := ih earlier
      exact ⟨middle, past, rest ++ [label], toMiddle, .snoc fromMiddle step,
        by rw [← List.append_assoc, split], same⟩
    · have := grows _ _ _ step
      exact ⟨last, labels ++ [label], [], .snoc before step, .refl, List.append_nil _, by omega⟩

/-- **Progress.** As long as the goal is not reached some run makes a measure smaller; so some run reaches
the goal. -/
theorem leads {Inv Goal : State → Prop} (measure : State → Nat)
    (down : ∀ state, Inv state → Goal state ∨ ∃ labels next,
      Run system state labels next ∧ Inv next ∧ measure next < measure state)
    {first : State} (start : Inv first) :
    ∃ labels last, Run system first labels last ∧ Inv last ∧ Goal last := by
  induction bound : measure first using Nat.strongRecOn generalizing first with
  | _ n ih =>
    rcases down first start with reached | ⟨before, next, toNext, inv, less⟩
    · exact ⟨[], first, .refl, start, reached⟩
    · obtain ⟨after, last, toLast, atLast⟩ := ih (measure next) (bound ▸ less) inv rfl
      exact ⟨before ++ after, last, toNext.trans toLast, atLast⟩

end Run

namespace Reachable

theorem of_init {state : State} (start : system.init state) : Reachable system state :=
  ⟨state, [], start, .refl⟩

theorem run {first last : State} {labels : List Label} (reached : Reachable system first)
    (more : Run system first labels last) : Reachable system last := by
  obtain ⟨start, past, isInit, before⟩ := reached
  exact ⟨start, past ++ labels, isInit, before.trans more⟩

theorem step {state next : State} {label : Label} (reached : Reachable system state)
    (taken : system.step state label next) : Reachable system next :=
  reached.run (.single taken)

/-- **Invariants of a system.** -/
theorem invariant {H : State → Prop} {state : State} (reached : Reachable system state)
    (start : ∀ first, system.init first → H first)
    (keep : ∀ state label next, H state → system.step state label next → H next) :
    H state := by
  obtain ⟨first, labels, isInit, run⟩ := reached
  exact run.invariant (start first isInit) keep

end Reachable

/-! ### Fewer steps -/

theorem Run.of_where {condition : State → Label → Prop} {first last : State} {labels : List Label}
    (run : Run (system.where condition) first labels last) : Run system first labels last := by
  induction run with
  | refl => exact .refl
  | snoc _ step ih => exact .snoc ih step.2

theorem Reachable.of_where {condition : State → Label → Prop} {state : State}
    (reached : Reachable (system.where condition) state) : Reachable system state := by
  obtain ⟨first, labels, isInit, run⟩ := reached
  exact ⟨first, labels, isInit, run.of_where⟩

/-! ### Runs of an executable step -/

/-- The end of the run with these labels, of a step that is a partial function. -/
def replay (step : State → Label → Option State) : State → List Label → Option State
  | first, [] => some first
  | first, label :: rest => (step first label).bind fun next => replay step next rest

theorem Run.of_replay (step : State → Label → Option State)
    (taken : ∀ state label next, step state label = some next → system.step state label next)
    {first last : State} {labels : List Label} (replayed : replay step first labels = some last) :
    Run system first labels last := by
  induction labels generalizing first with
  | nil =>
    cases replayed
    exact .refl
  | cons label rest ih =>
    obtain ⟨next, stepped, more⟩ := Option.bind_eq_some_iff.mp replayed
    exact (Run.single (taken _ _ _ stepped)).trans (ih more)

/-! ### Two systems side by side -/

/-- A step, or none. -/
def System.maybe (system : System State Label) (state : State) : Option Label → State → Prop
  | none, next => next = state
  | some label, next => system.step state label next

variable {Other OtherLabel : Type*}

/-- **Two systems side by side.** `together` tells which step of each is taken, if any. -/
def System.beside (left : System State Label) (right : System Other OtherLabel)
    (together : State × Other → Option Label × Option OtherLabel → State × Other → Prop) :
    System (State × Other) (Option Label × Option OtherLabel) where
  init s := left.init s.1 ∧ right.init s.2
  step s label next :=
    left.maybe s.1 label.1 next.1 ∧ right.maybe s.2 label.2 next.2 ∧ together s label next

theorem Reachable.maybe {state next : State} {label : Option Label}
    (reached : Reachable system state) (taken : system.maybe state label next) :
    Reachable system next := by
  cases label with
  | none =>
    cases taken
    exact reached
  | some label => exact reached.step taken

section Beside

variable {left : System State Label} {right : System Other OtherLabel}
  {together : State × Other → Option Label × Option OtherLabel → State × Other → Prop}
  {s : State × Other}

theorem Reachable.fst (reached : Reachable (left.beside right together) s) :
    Reachable left s.1 :=
  reached.invariant (H := fun s => Reachable left s.1) (fun _ isInit => .of_init isInit.1)
    fun _ _ _ before step => Reachable.maybe before step.1

theorem Reachable.snd (reached : Reachable (left.beside right together) s) :
    Reachable right s.2 :=
  reached.invariant (H := fun s => Reachable right s.2) (fun _ isInit => .of_init isInit.2)
    fun _ _ _ before step => Reachable.maybe before step.2.1

end Beside

/-! ### Simulation -/

variable {Abstract AbstractLabel : Type*}

/-- A forward simulation: related states stay related, and each concrete step is a run of the
abstract system with the labels the concrete label stands for. -/
structure Simulation (concrete : System State Label) (abstract : System Abstract AbstractLabel)
    (labelMap : Label → List AbstractLabel) where
  related : State → Abstract → Prop
  init : ∀ state, concrete.init state → ∃ other, abstract.init other ∧ related state other
  step : ∀ state label next other, related state other → concrete.step state label next →
    ∃ other', Run abstract other (labelMap label) other' ∧ related next other'

/-- **A simulation carries runs to runs.** -/
theorem Simulation.run {concrete : System State Label} {abstract : System Abstract AbstractLabel}
    {labelMap : Label → List AbstractLabel} (simulation : Simulation concrete abstract labelMap)
    {first last : State} {labels : List Label} (taken : Run concrete first labels last)
    {other : Abstract} (start : simulation.related first other) :
    ∃ other', Run abstract other (labels.flatMap labelMap) other' ∧
      simulation.related last other' := by
  induction taken with
  | refl => exact ⟨other, .refl, start⟩
  | snoc _ step ih =>
    obtain ⟨middle, before, relatedMiddle⟩ := ih
    obtain ⟨final, after, relatedFinal⟩ := simulation.step _ _ _ _ relatedMiddle step
    refine ⟨final, ?_, relatedFinal⟩
    rw [List.flatMap_append, List.flatMap_singleton]
    exact before.trans after

/-! ### Outcomes that are settled earlier -/

/-- A simulation by a system that settles an outcome before the concrete one does. What a step settles
chooses one of the outcomes that were possible before it. -/
structure Prophecy (concrete : System State Label) (abstract : System Abstract AbstractLabel)
    (Outcome : Type*) where
  related : State → Outcome → Abstract → Prop
  init : ∀ state, concrete.init state → ∀ outcome,
    ∃ other, abstract.init other ∧ related state outcome other
  step : ∀ state label next, concrete.step state label next → ∀ outcome, ∃ before, ∀ other,
    Reachable abstract other → related state before other →
    ∃ other', Reachable abstract other' ∧ related next outcome other'

/-- **Every outcome that is still possible is reachable.** -/
theorem Prophecy.reachable {concrete : System State Label} {abstract : System Abstract AbstractLabel}
    {Outcome : Type*} (prophecy : Prophecy concrete abstract Outcome) {state : State}
    (reached : Reachable concrete state) (outcome : Outcome) :
    ∃ other, Reachable abstract other ∧ prophecy.related state outcome other := by
  refine reached.invariant (H := fun state => ∀ outcome, ∃ other, Reachable abstract other ∧
    prophecy.related state outcome other) (fun first isInit outcome => ?_)
    (fun state label next possible taken outcome => ?_) outcome
  · obtain ⟨other, start, related⟩ := prophecy.init first isInit outcome
    exact ⟨other, .of_init start, related⟩
  · obtain ⟨before, settles⟩ := prophecy.step state label next taken outcome
    obtain ⟨other, reachedOther, related⟩ := possible before
    exact settles other reachedOther related

end Transition
