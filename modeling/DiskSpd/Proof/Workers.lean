/-
**The threads over an engine do what the job's threads do.**

* `Place.phase`, `Place.hand` — where the thread of the job is, and the operation that is on its way from
  `wait` back to the queue. A thread of the job settles the result of its `submit` in the step before, so
  the phase depends on how that call will return.
* `NamedOps` — the operations of a thread are those of the heap, under names.
* `Follows` — the thread and the thread of the job agree; `Follows.construct` and the like, one for each
  step, keep it.
* `WorkInv` — every thread agrees, over an engine that keeps its promise, and no two threads share an
  operation.
* `workers_refine` — so every state of the threads over an engine stands for a state of the job.
-/

import DiskSpd.Model.Workers
import DiskSpd.Proof.PosixManager
import DiskSpd.Proof.Startup
import DiskSpd.Proof.Threads

namespace DiskSpd

open Dispatch IAsyncIop LawfulIop Transition

/-! ### Where the thread of the job is -/

/-- Where the thread of the job is. `fails` tells how the next `submit` of the thread will return. -/
def Place.phase (fails : Bool) : Place → Phase
  | .outside .submit => if fails then .aborted else .work
  | .outside phase => phase
  | .submitting => if fails then .aborted else .work
  | .waiting => .work
  | .waited _ => .work
  | .requeue _ => if fails then .aborted else .work

/-- The operation that is neither queued nor in flight. -/
def Place.hand : Place → List Nat
  | .waited (some n) => [n]
  | .requeue n => [n]
  | _ => []

/-- The call of the engine that the thread is in. -/
def Place.In : Place → Activity → Prop
  | .submitting, activity => activity = .submitting
  | .waiting, activity => activity = .waiting
  | .outside .aborted, _ => True
  | _, activity => activity = .outside

/-- Nothing has been submitted. -/
def Place.SetsUp : Place → Prop
  | .outside (.start _) => True
  | .outside (.issue _ _ _) => True
  | .outside (.advance _ _ _) => True
  | _ => False

/-- Everything has been submitted. -/
def Place.Works : Place → Prop
  | .outside .work => True
  | .outside .ended => True
  | .waiting => True
  | .waited _ => True
  | _ => False

/-- No operation is on its way to the kernel. -/
def Place.Submitted : Place → Prop
  | .outside .work => True
  | .outside .ended => True
  | .waiting => True
  | _ => False

theorem Place.Submitted.settled {place : Place} (submitted : place.Submitted) (fails : Bool) :
    place.hand = [] ∧ place.Works ∧ (place.phase fails = .work ∨ place.phase fails = .ended) ∧
      ∀ activity, place.In activity → activity ≠ .failed := by
  unfold Place.Submitted at submitted
  split at submitted
  · exact ⟨rfl, trivial, Or.inl rfl, fun activity inCall => by rw [inCall]; decide⟩
  · exact ⟨rfl, trivial, Or.inr rfl, fun activity inCall => by rw [inCall]; decide⟩
  · exact ⟨rfl, trivial, Or.inl rfl, fun activity inCall => by rw [inCall]; decide⟩
  · exact submitted.elim

section Thread

variable {Op Engine : Type} [IAsyncIop Op] [LawfulIop Op]

/-- The operations of a thread, by their names in the heap. -/
structure NamedOps (names : List Nat) (ops : List Op) (heap : Nat → Op) : Prop where
  length : names.length = ops.length
  same : ∀ (i n : Nat) (op : Op), names[i]? = some n → ops[i]? = some op → Unchanged op (heap n)

namespace NamedOps

variable {names : List Nat} {ops : List Op} {heap heap' : Nat → Op}

theorem nil : NamedOps [] ([] : List Op) heap where
  length := rfl
  same _ _ _ found := by cases found

/-- The operations change nothing they say. -/
theorem unchanged (named : NamedOps names ops heap)
    (same : ∀ n ∈ names, Unchanged (heap n) (heap' n)) : NamedOps names ops heap' where
  length := named.length
  same i n op found isOp := (named.same i n op found isOp).trans (same n (List.mem_of_getElem? found))

/-- The operation of a name. -/
theorem find (named : NamedOps names ops heap) {i n : Nat} (found : names[i]? = some n) :
    ∃ op, ops[i]? = some op ∧ Unchanged op (heap n) := by
  have below : i < ops.length := named.length ▸ (List.getElem?_eq_some_iff.mp found).1
  exact ⟨ops[i], List.getElem?_eq_getElem below,
    named.same i n _ found (List.getElem?_eq_getElem below)⟩

/-- A new operation under a new name. -/
theorem append (named : NamedOps names ops heap) {n : Nat} {op : Op} (isNew : Unchanged op (heap n)) :
    NamedOps (names ++ [n]) (ops ++ [op]) heap where
  length := by rw [List.length_append, List.length_append, named.length]; rfl
  same i m other found isOther := by
    rcases Nat.lt_or_ge i names.length with earlier | later
    · rw [List.getElem?_append_left earlier] at found
      rw [List.getElem?_append_left (named.length ▸ earlier)] at isOther
      exact named.same i m other found isOther
    · rw [List.getElem?_append_right later, List.getElem?_singleton] at found
      rw [List.getElem?_append_right (named.length ▸ later), List.getElem?_singleton,
        ← named.length] at isOther
      split_ifs at found isOther
      cases found
      cases isOther
      exact isNew

/-- One operation is changed in both. -/
theorem set (named : NamedOps names ops heap) (nodup : names.Nodup) {i n : Nat}
    (found : names[i]? = some n) {op op' : Op} (isNew : Unchanged op op') :
    NamedOps names (ops.set i op) (Function.update heap n op') where
  length := by rw [List.length_set, named.length]
  same j m other found' isOther := by
    by_cases here : j = i
    · subst here
      have below : j < ops.length := named.length ▸ (List.getElem?_eq_some_iff.mp found).1
      rw [found, Option.some.injEq] at found'
      rw [List.getElem?_set_self below, Option.some.injEq] at isOther
      rw [← found', ← isOther, Function.update_self]
      exact isNew
    · have ne : m ≠ n := fun same => here (by
        obtain ⟨below, isM⟩ := List.getElem?_eq_some_iff.mp found'
        obtain ⟨below', isN⟩ := List.getElem?_eq_some_iff.mp found
        exact (nodup.getElem_inj_iff).mp (by rw [isM, isN, same]))
      rw [List.getElem?_set_ne (Ne.symm here)] at isOther
      rw [Function.update_of_ne ne]
      exact named.same j m other found' isOther

end NamedOps

/-! ### One thread -/

/-- The names of the operations that are queued or in flight. -/
def ThreadState.pendingNames (t : ThreadState Op Engine) (names : List Nat) : List (Option Nat) :=
  t.pending.map fun issue => names[issue.op]?

/-- **A thread over the engine follows the thread of the job.** -/
structure Follows (fails : Bool) (th : ThreadParams) (names : List Nat) (heap : Nat → Op)
    (standing : Standing) (worker : Worker Engine) (t : ThreadState Op Engine) : Prop where
  phase : t.phase = worker.place.phase fails
  rngEngine : t.rngEngine = worker.rngEngine
  results : t.results = worker.results
  bytes : t.threadBytesCount = worker.threadBytesCount
  named : NamedOps names t.ops heap
  group : ∀ n ∈ names, (view (heap n)).groupId = th.groupId
  inCall : worker.place.In standing.activity
  notNull : worker.place ≠ .waited none
  pending : (t.pendingNames names).Perm ((worker.place.hand ++ standing.place).map some)
  setsUp : worker.place.SetsUp → t.inFlight = [] ∧ standing.flying = []
  submitted : t.phase = .work ∨ t.phase = .ended → t.opQueue = []
  works : worker.place.Works → standing.queue = []

namespace Follows

variable {dist : UniformInt Engine} {fails : Bool} {th : ThreadParams} {names : List Nat}
  {heap heap' : Nat → Op} {standing standing' : Standing} {worker : Worker Engine}
  {t : ThreadState Op Engine} {shared : Interlocked} {place : Place}

theorem initial (th : ThreadParams) (rngEngine : Engine) (fails : Bool) (heap : Nat → Op) :
    Follows fails th [] heap {} (.initial th rngEngine) (.initial th rngEngine) where
  phase := rfl
  rngEngine := rfl
  results := rfl
  bytes := rfl
  named := .nil
  group _ member := by cases member
  inCall := rfl
  notNull := nofun
  pending := .nil
  setsUp _ := ⟨rfl, rfl⟩
  submitted atWork := by rcases atWork with no | no <;> cases no
  works no := no.elim

/-- The operations change nothing they say. -/
theorem unchanged (follows : Follows fails th names heap standing worker t)
    (same : ∀ n ∈ names, Unchanged (heap n) (heap' n)) :
    Follows fails th names heap' standing worker t :=
  { follows with
    named := follows.named.unchanged same
    group := fun n member => by rw [(same n member).view]; exact follows.group n member }

/-- The phase at a place. -/
theorem phase_at (follows : Follows fails th names heap standing worker t)
    (atPlace : worker.place = place) : t.phase = place.phase fails :=
  follows.phase.trans (congrArg (Place.phase fails) atPlace)

/-- The thread goes on with the operations it has. -/
theorem move {fails' : Bool} {phase : Phase} {rngEngine rngEngine' : Engine}
    (follows : Follows fails th names heap standing worker t)
    (isPhase : phase = place.phase fails') (same : rngEngine' = rngEngine)
    (inCall : place.In standing'.activity) (notNull : place ≠ .waited none)
    (kept : (worker.place.hand ++ standing.place).Perm (place.hand ++ standing'.place))
    (setsUp : place.SetsUp → t.inFlight = [] ∧ standing'.flying = [])
    (submitted : phase = .work ∨ phase = .ended → t.opQueue = [])
    (works : place.Works → standing'.queue = []) :
    Follows fails' th names heap standing' { worker with place := place, rngEngine := rngEngine }
      { t with phase := phase, rngEngine := rngEngine' } where
  phase := isPhase
  rngEngine := same
  results := follows.results
  bytes := follows.bytes
  named := follows.named
  group := follows.group
  inCall := inCall
  notNull := notNull
  pending := follows.pending.trans (kept.map some)
  setsUp := setsUp
  submitted := submitted
  works := works

/-- What is queued or in flight has a name. -/
theorem hasName (follows : Follows fails th names heap standing worker t) {n : Nat}
    (member : n ∈ worker.place.hand ++ standing.place) : n ∈ names := by
  have isPending : some n ∈ t.pendingNames names :=
    follows.pending.mem_iff.mpr (List.mem_map_of_mem member)
  obtain ⟨issue, _, found⟩ := List.mem_map.mp isPending
  exact List.mem_of_getElem? found

/-- The issue of an operation that is queued or in flight. -/
theorem issueOf (follows : Follows fails th names heap standing worker t) {n : Nat}
    (member : n ∈ worker.place.hand ++ standing.place) :
    ∃ issue ∈ t.pending, names[issue.op]? = some n :=
  List.mem_map.mp (follows.pending.mem_iff.mpr (List.mem_map_of_mem member))

/-- Nothing is queued or in flight twice. -/
theorem nodup (follows : Follows fails th names heap standing worker t) (linked : Linked th t)
    (distinct : names.Nodup) : (worker.place.hand ++ standing.place).Nodup := by
  have isNodup : (t.pendingNames names).Nodup := by
    have same : t.pendingNames names = (t.pending.map (·.op)).map (names[·]?) := by
      rw [List.map_map]
      rfl
    rw [same]
    refine List.Nodup.map_on (fun i isOp j isOp' equal => ?_) linked.distinct
    obtain ⟨issue, isPending, rfl⟩ := List.mem_map.mp isOp
    have below := (linked.carries issue isPending).op_lt
    rw [← follows.named.length] at below
    exact (List.getElem?_inj below distinct).mp equal
  exact (follows.pending.nodup_iff.mp isNodup).of_map some

/-! ### The initialisation -/

/-- What the offset functions see. -/
theorem offsetState_eq (follows : Follows fails th names heap standing worker t)
    (tData : TargetData) : t.offsetState shared tData =
      { interlockedOffset := shared tData.targetIndex, rngEngine := worker.rngEngine } := by
  unfold ThreadState.offsetState
  rw [follows.rngEngine]

theorem startOffset (follows : Follows fails th names heap standing worker t) {m : Nat}
    {tData : TargetData} {offset : Int64} {state : OffsetState Engine}
    (atPlace : worker.place = .outside (.start m)) (found : th.targets[m]? = some tData)
    (call : tData.target.getStartOffset dist th.relThreadId
      { interlockedOffset := shared tData.targetIndex, rngEngine := worker.rngEngine } =
        some (offset, state)) :
    ∃ t', ThreadRun Op dist th (shared, t) (shared.after tData state, t') ∧
      Follows fails th names heap standing
        { worker with place := .outside (.issue m 0 offset), rngEngine := state.rngEngine } t' := by
  have inCall := follows.inCall
  have setsUp := follows.setsUp
  have kept := follows.pending
  rw [← follows.offsetState_eq tData] at call
  refine ⟨_, threadRun_step (.startOffset (follows.phase_at atPlace) found call), ?_⟩
  rw [atPlace] at inCall setsUp
  exact follows.move rfl rfl inCall nofun (by rw [atPlace]; exact List.Perm.refl _)
    (fun _ => setsUp trivial) nofun nofun

theorem overlapDone (follows : Follows fails th names heap standing worker t) {m : Nat} {i : UInt32}
    {curr : Int64} {tData : TargetData} (atPlace : worker.place = .outside (.issue m i curr))
    (found : th.targets[m]? = some tData) (atEnd : ¬ i < tData.target.overlap) :
    ∃ t', ThreadRun Op dist th (shared, t) (shared, t') ∧
      Follows fails th names heap standing { worker with place := .outside (.start (m + 1)) } t' := by
  have inCall := follows.inCall
  have setsUp := follows.setsUp
  refine ⟨_, threadRun_step (.overlapDone (follows.phase_at atPlace) found atEnd), ?_⟩
  rw [atPlace] at inCall setsUp
  exact follows.move rfl follows.rngEngine inCall nofun (by rw [atPlace]; exact List.Perm.refl _)
    (fun _ => setsUp trivial) nofun nofun

theorem advance (follows : Follows fails th names heap standing worker t) {m : Nat} {i : UInt32}
    {curr offset : Int64} {tData : TargetData} {state : OffsetState Engine}
    (atPlace : worker.place = .outside (.advance m i curr)) (found : th.targets[m]? = some tData)
    (call : tData.target.getNextOffset dist th.relThreadId
      { interlockedOffset := shared tData.targetIndex, rngEngine := worker.rngEngine } curr =
        some (offset, state)) :
    ∃ t', ThreadRun Op dist th (shared, t) (shared.after tData state, t') ∧
      Follows fails th names heap standing { worker with
        place := .outside (.issue m (i + 1) offset), rngEngine := state.rngEngine } t' := by
  have inCall := follows.inCall
  have setsUp := follows.setsUp
  rw [← follows.offsetState_eq tData] at call
  refine ⟨_, threadRun_step (.advance (follows.phase_at atPlace) found call), ?_⟩
  rw [atPlace] at inCall setsUp
  exact follows.move rfl rfl inCall nofun (by rw [atPlace]; exact List.Perm.refl _)
    (fun _ => setsUp trivial) nofun nofun

/-- **A new operation**, under a new name. -/
theorem construct (follows : Follows fails th names heap standing worker t) (linked : Linked th t)
    {m n : Nat} {i : UInt32} {curr : Int64} {tData : TargetData} {percentage : UInt32}
    {now uninit : UInt64} {q f : List Nat} (atPlace : worker.place = .outside (.issue m i curr))
    (stands : standing = ⟨.outside, q, f⟩) (found : th.targets[m]? = some tData)
    (below : i < tData.target.overlap) (low : 1 ≤ percentage) (high : percentage ≤ 100)
    (others : ∀ j ∈ names, Unchanged (heap j) (heap' j))
    (isNew : Unchanged (IAsyncIop.construct uninit
      (ThreadState.iopArgs th tData m i curr percentage now)) (heap' n)) :
    ∃ t', ThreadRun Op dist th (shared, t) (shared, t') ∧
      Follows fails th (names ++ [n]) heap' ⟨.outside, q ++ [n], f⟩
        { worker with place := .outside (.advance m i curr) } t' := by
  refine ⟨t.construct th tData m i curr percentage now uninit,
    threadRun_step (.construct (follows.phase_at atPlace) found below low high), ?_⟩
  have setsUp := follows.setsUp
  have pending := follows.pending
  rw [atPlace, stands] at setsUp pending
  refine ⟨rfl, follows.rngEngine, follows.results, follows.bytes,
    (follows.named.unchanged others).append isNew, fun j member => ?_, rfl, nofun, ?_,
    fun _ => setsUp trivial, nofun, nofun⟩
  · rcases List.mem_append.mp member with old | new
    · rw [(others j old).view]
      exact follows.group j old
    · rw [List.mem_singleton.mp new, isNew.view, view_construct]
      rfl
  · refine ((t.construct_pending th tData m i curr percentage now uninit).map _).trans ?_
    have last : (names ++ [n])[t.ops.length]? = some n := by
      rw [← follows.named.length]
      exact List.getElem?_concat_length
    have earlier : (t.pending.map fun issue => (names ++ [n])[issue.op]?) = t.pendingNames names := by
      refine List.map_congr_left fun issue member => List.getElem?_append_left ?_
      rw [follows.named.length]
      exact (linked.carries issue member).op_lt
    rw [List.map_cons, last, earlier]
    refine (pending.cons _).trans ?_
    show (List.map some (n :: (q ++ f))).Perm (List.map some (q ++ [n] ++ f))
    rw [List.append_assoc]
    exact List.perm_middle.symm.map some

/-- A `submit` whose result is known. -/
theorem settle (linked : Linked th t) (fails : Bool) (names : List Nat) {t' : ThreadState Op Engine}
    (done : t' = t.afterSubmit (if fails then 1 else 0)) :
    t'.phase = (if fails then .aborted else .work) ∧
      (t'.phase = .work ∨ t'.phase = .ended → t'.opQueue = []) ∧
      (t'.pendingNames names).Perm (t.pendingNames names) := by
  refine ⟨?_, ?_, ?_⟩
  · subst done
    cases fails <;> rfl
  · subst done
    cases fails with
    | true => exact fun atWork => by rcases atWork with no | no <;> cases no
    | false => exact fun _ => rfl
  · subst done
    exact (linked.afterSubmit_pending _).map _

/-- The first `submit` is settled at the end of the initialisation. -/
theorem targetsDone (follows : Follows fails th names heap standing worker t) (linked : Linked th t)
    {m : Nat} (atPlace : worker.place = .outside (.start m)) (atEnd : th.targets[m]? = none) :
    ∃ t', ThreadRun Op dist th (shared, t) (shared, t') ∧
      Follows fails th names heap standing { worker with place := .outside .submit } t' := by
  have done : Step dist th shared t shared { t with phase := .submit } :=
    .targetsDone (follows.phase_at atPlace) atEnd
  have linked' : Linked th ({ t with phase := .submit } : ThreadState Op Engine) :=
    linked.of_same rfl rfl rfl rfl
  have inCall := follows.inCall
  have pending := follows.pending
  rw [atPlace] at inCall pending
  obtain ⟨phase, submitted, same⟩ := settle linked' fails names rfl
  refine ⟨_, (threadRun_step done).trans (threadRun_step (.submit rfl)),
    phase, ?_, ?_, ?_, ?_, follows.group, inCall, nofun, same.trans pending, nofun, submitted, nofun⟩
  · rw [ThreadState.afterSubmit_rngEngine]
    exact follows.rngEngine
  · rw [ThreadState.afterSubmit_results]
    exact follows.results
  · rw [ThreadState.afterSubmit_threadBytesCount]
    exact follows.bytes
  · rw [ThreadState.afterSubmit_ops]
    exact follows.named

/-! ### The calls of the engine -/

/-- The thread of the job stays where it is. -/
theorem stay {fails' : Bool} (follows : Follows fails th names heap standing worker t)
    (isPhase : worker.place.phase fails = place.phase fails')
    (inCall : place.In standing'.activity) (notNull : place ≠ .waited none)
    (kept : (worker.place.hand ++ standing.place).Perm (place.hand ++ standing'.place))
    (running : ¬ place.SetsUp) (works : place.Works → standing'.queue = []) :
    Follows fails' th names heap standing' { worker with place := place } t :=
  follows.move (follows.phase.trans isPhase) follows.rngEngine inCall notNull kept
    (fun setsUp => absurd setsUp running) follows.submitted works

theorem callSubmit {q f : List Nat} (follows : Follows fails th names heap ⟨.outside, q, f⟩ worker t)
    (atPlace : worker.place = .outside .submit) :
    Follows fails th names heap ⟨.submitting, q, f⟩ { worker with place := .submitting } t :=
  follows.stay (by rw [atPlace]; rfl) rfl nofun (by rw [atPlace]; exact List.Perm.refl _) nofun
    nofun

/-- A step inside `submit` or `wait` that keeps the operations of the group. -/
theorem inside (follows : Follows fails th names heap standing worker t)
    (activity : standing'.activity = standing.activity)
    (kept : standing.place.Perm standing'.place) (running : ¬ worker.place.SetsUp)
    (works : worker.place.Works → standing'.queue = []) :
    Follows fails th names heap standing' worker t :=
  follows.stay rfl (by rw [activity]; exact follows.inCall) follows.notNull
    (kept.append_left _) running works

theorem submitSucceeds {q f f' : List Nat}
    (follows : Follows false th names heap ⟨.submitting, q, f⟩ worker t)
    (atPlace : worker.place = .submitting) (kept : f'.Perm (q ++ f)) :
    Follows fails th names heap ⟨.outside, [], f'⟩ { worker with place := .outside .work } t :=
  follows.stay (by rw [atPlace]; rfl) rfl nofun (by rw [atPlace]; exact kept.symm) nofun
    fun _ => rfl

theorem submitFails {q f : List Nat}
    (follows : Follows true th names heap ⟨.submitting, q, f⟩ worker t)
    (atPlace : worker.place = .submitting) :
    Follows fails th names heap ⟨.failed, q, f⟩ { worker with place := .outside .aborted } t :=
  follows.stay (by rw [atPlace]; rfl) trivial nofun (by rw [atPlace]; exact List.Perm.refl _)
    nofun nofun

theorem callWait {q f : List Nat} (follows : Follows fails th names heap ⟨.outside, q, f⟩ worker t)
    (atPlace : worker.place = .outside .work) :
    Follows fails th names heap ⟨.waiting, q, f⟩ { worker with place := .waiting } t := by
  have works := follows.works
  rw [atPlace] at works
  exact follows.stay (by rw [atPlace]; rfl) rfl nofun (by rw [atPlace]; exact List.Perm.refl _)
    nofun fun _ => works trivial

theorem waitReturns {q f f' : List Nat} {n : Nat}
    (follows : Follows fails th names heap ⟨.waiting, q, f⟩ worker t)
    (atPlace : worker.place = .waiting) (taken : f.Perm (n :: f')) :
    Follows fails th names heap ⟨.outside, q, f'⟩ { worker with place := .waited (some n) } t := by
  have works := follows.works
  rw [atPlace] at works
  refine follows.stay (by rw [atPlace]; rfl) rfl nofun ?_ nofun fun _ => works trivial
  rw [atPlace]
  exact (taken.append_left q).trans List.perm_middle

/-- The recycled operation is queued again. -/
theorem enqueue {q f : List Nat} {n : Nat}
    (follows : Follows fails th names heap ⟨.outside, q, f⟩ worker t)
    (atPlace : worker.place = .requeue n) :
    Follows fails th names heap ⟨.outside, q ++ [n], f⟩ { worker with place := .outside .submit } t := by
  refine follows.stay (by rw [atPlace]; rfl) rfl nofun ?_ nofun nofun
  rw [atPlace]
  show (n :: (q ++ f)).Perm (q ++ [n] ++ f)
  rw [List.append_assoc]
  exact List.perm_middle.symm

/-! ### The work loop -/

theorem leave (follows : Follows fails th names heap standing worker t)
    (atPlace : worker.place = .outside .work) :
    ∃ t', ThreadRun Op dist th (shared, t) (shared, t') ∧
      Follows fails th names heap standing { worker with place := .outside .ended } t' := by
  have inCall := follows.inCall
  have works := follows.works
  have phase := follows.phase_at atPlace
  rw [atPlace] at inCall works
  refine ⟨_, threadRun_step (.leave phase), ?_⟩
  exact follows.move rfl follows.rngEngine inCall nofun (by rw [atPlace]; exact List.Perm.refl _)
    nofun (fun _ => follows.submitted (Or.inl phase)) fun _ => works trivial

/-- The flight of the operation that `wait` has returned. -/
theorem flightOf (follows : Follows fails th names heap standing worker t) {n : Nat}
    (atPlace : worker.place = .waited (some n)) :
    ∃ before flight after, t.inFlight = before ++ flight :: after ∧ names[flight.op]? = some n ∧
      (({ t with inFlight := before ++ after } : ThreadState Op Engine).pendingNames names).Perm
        (standing.place.map some) := by
  have phase : t.phase = .work := follows.phase_at atPlace
  have queue := follows.submitted (Or.inl phase)
  have pending := follows.pending
  rw [atPlace] at pending
  obtain ⟨issue, isPending, found⟩ := follows.issueOf (n := n) (by rw [atPlace]; exact List.mem_cons_self)
  unfold ThreadState.pending at isPending
  rw [queue, List.nil_append] at isPending
  obtain ⟨flight, inFlight, rfl⟩ := List.mem_map.mp isPending
  obtain ⟨before, after, split⟩ := List.append_of_mem inFlight
  refine ⟨before, flight, after, split, found, ?_⟩
  have taken := (ThreadState.pending_of_inFlight split).map fun issue => names[issue.op]?
  rw [List.map_cons, found] at taken
  exact (taken.symm.trans pending).cons_inv

theorem waitLast (follows : Follows fails th names heap standing worker t) {n : Nat}
    (atPlace : worker.place = .waited (some n)) :
    ∃ t', ThreadRun Op dist th (shared, t) (shared, t') ∧
      Follows fails th names heap standing { worker with place := .outside .ended } t' := by
  obtain ⟨before, flight, after, split, _, pending⟩ := follows.flightOf atPlace
  have inCall := follows.inCall
  have works := follows.works
  have phase : t.phase = .work := follows.phase_at atPlace
  rw [atPlace] at inCall works
  have notThrottled : th.throttled t (.quiet 0) = false := rfl
  refine ⟨_, threadRun_step (.waitLast phase notThrottled split), rfl, follows.rngEngine,
    follows.results, follows.bytes, follows.named, follows.group, inCall, nofun, pending, nofun,
    fun _ => follows.submitted (Or.inl phase), fun _ => works trivial⟩

theorem fail (follows : Follows fails th names heap standing worker t) {n : Nat} {tData : TargetData}
    {err ret : Int32} (atPlace : worker.place = .waited (some n))
    (found : th.targets[getTargetData (heap n)]? = some tData)
    (wrong : err ≠ 0 ∨ ret.toInt64.toUInt64 ≠ tData.target.blockSize) :
    ∃ t', ThreadRun Op dist th (shared, t) (shared, t') ∧
      Follows fails th names heap standing { worker with place := .outside .aborted } t' := by
  obtain ⟨before, flight, after, split, isName, pending⟩ := follows.flightOf atPlace
  obtain ⟨op, isOp, same⟩ := follows.named.find isName
  have phase : t.phase = .work := follows.phase_at atPlace
  rw [getTargetData_eq, same.view, ← getTargetData_eq] at found
  have notThrottled : th.throttled t { Round.quiet 0 with err := err, ret := ret } = false := rfl
  refine ⟨_, threadRun_step (.fail phase notThrottled split isOp found wrong), rfl, follows.rngEngine,
    follows.results, follows.bytes, follows.named, follows.group, trivial, nofun, pending, nofun,
    (fun atWork => by rcases atWork with no | no <;> cases no), nofun⟩

/-- The completion is recorded alike. -/
theorem record (follows : Follows fails th names heap standing worker t) (flight : Flight) {n : Nat}
    {op : Op} (same : Unchanged op (heap n)) {tData : TargetData} {round : Round}
    {recorded : Worker Engine} (done : worker.record th (heap n) tData round = some recorded)
    (inFlight : List Flight) (submitErr : Int32) :
    ∃ t', ThreadState.record th { t with inFlight := inFlight } flight op tData
        { round with recordAtHead := false, submitErr := submitErr } = some t' ∧
      t'.results = recorded.results ∧ t'.threadBytesCount = recorded.threadBytesCount := by
  have completion : ThreadState.completion op
      { round with recordAtHead := false, submitErr := submitErr } =
        ThreadState.completion (heap n) round := by
    unfold ThreadState.completion
    rw [getType_eq, getTime_eq, getType_eq, getTime_eq, same.view]
  have target : getTargetData op = getTargetData (heap n) := by
    rw [getTargetData_eq, getTargetData_eq, same.view]
  unfold Worker.record at done
  unfold ThreadState.record
  rw [completion, target]
  split_ifs at done ⊢ with measured
  · simp only [bind, Option.bind_eq_some_iff] at done
    obtain ⟨results, found, updated, isUpdated, done⟩ := done
    cases done
    simp only [follows.results, found, isUpdated, bind, Option.bind_some]
    exact ⟨_, rfl, rfl, by rw [← follows.bytes]⟩
  · cases done
    exact ⟨_, rfl, follows.results, follows.bytes⟩

/-- A new time, offset and type. -/
theorem recycled_unchanged {op op' : Op} (same : Unchanged op op') (tData : TargetData)
    (offset : Int64) (round : Round) : Unchanged (ThreadState.recycled op tData offset round)
      (ThreadState.recycled op' tData offset round) where
  view := by
    unfold ThreadState.recycled
    simp only [view_setType, view_setOffset, view_setTime, same.view]
  inStep _ := inStep_setType _ _

variable (dist) in
/-- **A round of the work loop** up to `enqueue`; the thread of the job takes its `submit` too. -/
theorem complete (follows : Follows fails th names heap standing worker t) (linked : Linked th t)
    (distinct : names.Nodup) {n : Nat} {tData : TargetData} {round : Round} {offset : Int64}
    {state : OffsetState Engine} {recorded : Worker Engine}
    (atPlace : worker.place = .waited (some n))
    (found : th.targets[getTargetData (heap n)]? = some tData) (noError : round.err = 0)
    (size : round.ret.toInt64.toUInt64 = tData.target.blockSize) (low : 1 ≤ round.percentage)
    (high : round.percentage ≤ 100) (done : worker.record th (heap n) tData round = some recorded)
    (call : tData.target.getNextOffset dist th.relThreadId
      { interlockedOffset := shared tData.targetIndex, rngEngine := worker.rngEngine }
        (getOffset (heap n)) = some (offset, state)) :
    ∃ t', ThreadRun Op dist th (shared, t) (shared.after tData state, t') ∧
      Follows fails th names
        (Function.update heap n (ThreadState.recycled (heap n) tData offset round)) standing
        { recorded with place := .requeue n, rngEngine := state.rngEngine } t' := by
  obtain ⟨before, flight, after, split, isName, pending⟩ := follows.flightOf atPlace
  obtain ⟨op, isOp, same⟩ := follows.named.find isName
  have phase : t.phase = .work := follows.phase_at atPlace
  have inCall := follows.inCall
  rw [atPlace] at inCall
  have target : getTargetData op = getTargetData (heap n) := by
    rw [getTargetData_eq, getTargetData_eq, same.view]
  have offsets : getOffset op = getOffset (heap n) := by
    rw [getOffset_eq, getOffset_eq, same.view]
  let round' : Round := { round with recordAtHead := false, submitErr := if fails then 1 else 0 }
  obtain ⟨t₁, done', results, bytes⟩ := follows.record flight same done (before ++ after)
    (if fails then 1 else 0)
  rw [← target] at found
  rw [← follows.offsetState_eq tData, ← offsets] at call
  have taken : Step dist th shared t (shared.after tData state)
      (({ t₁ with rngEngine := state.rngEngine }.reissue flight op tData offset round').afterSubmit
        round'.submitErr) :=
    .complete phase rfl split isOp found noError size low high done' call
  have linked' : Linked th
      ({ t₁ with rngEngine := state.rngEngine }.reissue flight op tData offset round') :=
    linked.complete split isOp found low high done' state.rngEngine
  obtain ⟨isPhase, submitted, kept⟩ := settle linked' fails names rfl
  obtain ⟨_, _, _, rfl⟩ := ThreadState.record_frame done'
  refine ⟨_, threadRun_step taken, isPhase, ?_, ?_, ?_, ?_, fun j member => ?_, inCall, nofun,
    kept.trans ?_, nofun, submitted, nofun⟩
  · rw [ThreadState.afterSubmit_rngEngine]
    rfl
  · rw [ThreadState.afterSubmit_results]
    exact results
  · rw [ThreadState.afterSubmit_threadBytesCount]
    exact bytes
  · rw [ThreadState.afterSubmit_ops]
    exact follows.named.set distinct isName (recycled_unchanged same tData offset round)
  · by_cases here : j = n
    · subst here
      rw [Function.update_self]
      unfold ThreadState.recycled
      rw [view_setType, view_setOffset, view_setTime]
      exact follows.group j member
    · rw [Function.update_of_ne here]
      exact follows.group j member
  · refine ((ThreadState.reissue_pending _ flight op tData offset round').map _).trans ?_
    rw [List.map_cons, isName]
    exact pending.cons (some n)

end Follows

end Thread

/-! ### All threads -/

/-- Each thread has a group of its own. -/
def DistinctGroups (params : List ThreadParams) : Prop :=
  ∀ (j k : Nat) (th th' : ThreadParams), params[j]? = some th → params[k]? = some th' →
    th.groupId = th'.groupId → j = k

section Work

variable {Op Engine : Type} [IAsyncIop Op] [LawfulIop Op] {manager : IAsyncIOManager Op}

/-- **All threads follow the job**, and no two of them share an operation. -/
structure WorkInv (lawful : LawfulManager manager) (params : List ThreadParams)
    (names : Nat → List Nat) (st : Int32 → Standing) (s : WorkState manager Engine)
    (fails : Nat → Bool) (a : JobState Op Engine) : Prop where
  holds : lawful.Holds s.engine st
  interlocked : a.interlocked = s.interlocked
  apart : Dispatch.Apart names
  made : ∀ k, ∀ n ∈ names k, n < s.made
  groups : ∀ g, (st g).place ≠ [] → ∃ (k : Nat) (th : ThreadParams),
    params[k]? = some th ∧ th.groupId = g
  follows : ∀ (k : Nat) (th : ThreadParams), params[k]? = some th →
    Follows (fails k) th (names k) (manager.ops s.engine) (st th.groupId) (s.workers k) (a.threads k)

variable {lawful : LawfulManager manager} {dist : UniformInt Engine} {targets : List Target}
  {params : List ThreadParams} {names : Nat → List Nat} {st : Int32 → Standing}
  {s next : WorkState manager Engine} {fails fails' : Nat → Bool} {a : JobState Op Engine}
  {k : Nat} {th : ThreadParams} {worker : Worker Engine}

namespace WorkInv

/-- What a group has queued or in flight is an operation of its thread. -/
theorem named_place (inv : WorkInv lawful params names st s fails a) {g : Int32} {n : Nat}
    (member : n ∈ (st g).place) : ∃ (k : Nat) (th : ThreadParams),
      params[k]? = some th ∧ th.groupId = g ∧ n ∈ names k := by
  obtain ⟨k, th, isThread, rfl⟩ := inv.groups g (List.ne_nil_of_mem member)
  exact ⟨k, th, isThread, rfl, (inv.follows k th isThread).hasName (List.mem_append_right _ member)⟩

/-- A new name is that of no operation. -/
theorem fresh (inv : WorkInv lawful params names st s fails a) (g : Int32) :
    s.made ∉ (st g).place := fun member => by
  obtain ⟨k, _, _, _, isName⟩ := inv.named_place member
  exact absurd (inv.made k _ isName) (lt_irrefl _)

/-- The operation in a thread's hand is neither queued nor in flight. -/
theorem free (inv : WorkInv lawful params names st s fails a)
    (reached : Reachable (jobSystem Op dist targets params) a) (isThread : params[k]? = some th)
    {n : Nat} (hand : (s.workers k).place.hand = [n]) (g : Int32) : n ∉ (st g).place := by
  have follows := inv.follows k th isThread
  have nodup := follows.nodup (linked_reachable reached isThread) (inv.apart.queues k)
  have mine : n ∈ names k := follows.hasName (by rw [hand]; exact List.mem_cons_self)
  rw [hand] at nodup
  intro member
  obtain ⟨k', th', isThread', rfl, isName⟩ := inv.named_place member
  have here := inv.apart.apart k k' n mine isName
  subst here
  rw [isThread, Option.some.injEq] at isThread'
  subst isThread'
  exact (List.nodup_cons.mp nodup).1 member

/-- How the group of a thread stands, by the place of the thread. -/
theorem stands (inv : WorkInv lawful params names st s fails a) (isThread : params[k]? = some th)
    {place : Place} (atPlace : (s.workers k).place = place) {activity : Activity}
    (only : ∀ other, place.In other → other = activity) :
    ∃ q f, st th.groupId = ⟨activity, q, f⟩ := by
  have inCall := (inv.follows k th isThread).inCall
  rw [atPlace] at inCall
  exact ⟨(st th.groupId).queue, (st th.groupId).flying, by rw [← only _ inCall]⟩

/-- **One thread moves.** Its group stands as it then does, and it may have one more operation. -/
theorem step (inv : WorkInv lawful params names st s fails a) (distinct : DistinctGroups params)
    (reached : Reachable (jobSystem Op dist targets params) a) (isThread : params[k]? = some th)
    (ns : List Nat) {standing : Standing}
    (workers : next.workers = Function.update s.workers k worker)
    (sameFails : ∀ m ≠ k, fails' m = fails m)
    (holds : lawful.Holds next.engine (Function.update st th.groupId standing))
    (heap : ∀ m ≠ k, ∀ n ∈ names m, Unchanged (manager.ops s.engine n) (manager.ops next.engine n))
    (apart : Dispatch.Apart (Function.update names k ns)) (grows : s.made ≤ next.made)
    (made : ∀ n ∈ ns, n < next.made)
    (own : ∃ t, ThreadRun Op dist th (s.interlocked, a.threads k) (next.interlocked, t) ∧
      Follows (fails' k) th ns (manager.ops next.engine) standing worker t) :
    ∃ a', Reachable (jobSystem Op dist targets params) a' ∧ ∃ names st,
      WorkInv lawful params names st next fails' a' := by
  obtain ⟨t, run, own⟩ := own
  rw [← inv.interlocked] at run
  refine ⟨_, threadRun_reachable reached isThread run, _, _, holds, rfl, apart, fun m n member => ?_,
    fun g some => ?_, fun m th' isThread' => ?_⟩
  · by_cases here : m = k
    · rw [here, Function.update_self] at member
      exact made n member
    · rw [Function.update_of_ne here] at member
      exact (inv.made m n member).trans_le grows
  · by_cases here : g = th.groupId
    · exact ⟨k, th, isThread, here.symm⟩
    · rw [Function.update_of_ne here] at some
      exact inv.groups g some
  · dsimp only
    rw [workers]
    by_cases here : m = k
    · subst here
      rw [isThread, Option.some.injEq] at isThread'
      subst isThread'
      simp only [Function.update_self]
      exact own
    · have otherGroup : th'.groupId ≠ th.groupId := fun same =>
        here (distinct m k th' th isThread' isThread same)
      rw [Function.update_of_ne here, Function.update_of_ne here, Function.update_of_ne here,
        Function.update_of_ne otherGroup, sameFails m here]
      exact (inv.follows m th' isThread').unchanged (heap m here)

/-- **A call of the engine**, with the operations there are. -/
theorem call (inv : WorkInv lawful params names st s fails a) (distinct : DistinctGroups params)
    (reached : Reachable (jobSystem Op dist targets params) a) (isThread : params[k]? = some th)
    {standing : Standing} (workers : next.workers = Function.update s.workers k worker)
    (interlocked : next.interlocked = s.interlocked) (made : next.made = s.made)
    (sameFails : ∀ m ≠ k, fails' m = fails m)
    (holds : lawful.Holds next.engine (Function.update st th.groupId standing))
    (heap : ∀ n, Unchanged (manager.ops s.engine n) (manager.ops next.engine n))
    (own : Follows (fails' k) th (names k) (manager.ops s.engine) standing worker (a.threads k)) :
    ∃ a', Reachable (jobSystem Op dist targets params) a' ∧ ∃ names st,
      WorkInv lawful params names st next fails' a' :=
  inv.step distinct reached isThread (names k) workers sameFails holds (fun _ _ n _ => heap n)
    (by rw [Function.update_eq_self]; exact inv.apart) made.ge
    (fun n member => by rw [made]; exact inv.made k n member)
    ⟨_, by rw [interlocked], own.unchanged fun n _ => heap n⟩

/-- **A step outside the engine.** -/
theorem outside (inv : WorkInv lawful params names st s fails a) (distinct : DistinctGroups params)
    (reached : Reachable (jobSystem Op dist targets params) a) (isThread : params[k]? = some th)
    (workers : next.workers = Function.update s.workers k worker)
    (engine : next.engine = s.engine) (made : next.made = s.made)
    (own : ∃ t, ThreadRun Op dist th (s.interlocked, a.threads k) (next.interlocked, t) ∧
      Follows (fails k) th (names k) (manager.ops s.engine) (st th.groupId) worker t) :
    ∃ a', Reachable (jobSystem Op dist targets params) a' ∧ ∃ names st,
      WorkInv lawful params names st next fails a' :=
  inv.step distinct reached isThread (names k) workers (fun _ _ => rfl)
    (by rw [Function.update_eq_self, engine]; exact inv.holds)
    (fun _ _ _ _ => by rw [engine]; exact .refl _)
    (by rw [Function.update_eq_self]; exact inv.apart) made.ge
    (fun n member => by rw [made]; exact inv.made k n member)
    (by rw [engine]; exact own)

/-- A new operation is constructed and queued. -/
theorem construct (inv : WorkInv lawful params names st s fails a) (distinct : DistinctGroups params)
    (reached : Reachable (jobSystem Op dist targets params) a) (isThread : params[k]? = some th)
    {m : Nat} {i : UInt32} {curr : Int64} {tData : TargetData} {percentage : UInt32}
    {now uninit : UInt64} (atPlace : (s.workers k).place = .outside (.issue m i curr))
    (found : th.targets[m]? = some tData) (below : i < tData.target.overlap)
    (low : 1 ≤ percentage) (high : percentage ≤ 100) :
    ∃ a', Reachable (jobSystem Op dist targets params) a' ∧ ∃ names st, WorkInv lawful params names st
      (s.construct k (IAsyncIop.construct uninit
        (ThreadState.iopArgs th tData m i curr percentage now)) (.outside (.advance m i curr)))
      fails a' := by
  have follows := inv.follows k th isThread
  have linked := linked_reachable reached isThread
  obtain ⟨q, f, stands⟩ := inv.stands isThread atPlace fun _ is => is
  let op : Op := IAsyncIop.construct uninit (ThreadState.iopArgs th tData m i curr percentage now)
  have stored : lawful.Holds (manager.store s.engine s.made op) st :=
    lawful.store op inv.holds inv.fresh
  have isGroup : (view (manager.ops (manager.store s.engine s.made op) s.made)).groupId =
      th.groupId := by
    rw [lawful.ops_store, Function.update_self, view_construct]
    rfl
  have old : ∀ k', ∀ n ∈ names k', Unchanged (manager.ops s.engine n)
      (manager.ops (manager.enqueue (manager.store s.engine s.made op) s.made) n) := by
    intro k' n member
    have ne : n ≠ s.made := (inv.made k' n member).ne
    have same := lawful.enqueue_ops (manager.store s.engine s.made op) s.made n
    rw [lawful.ops_store, Function.update_of_ne ne] at same
    exact same
  have isNew : Unchanged op
      (manager.ops (manager.enqueue (manager.store s.engine s.made op) s.made) s.made) := by
    have same := lawful.enqueue_ops (manager.store s.engine s.made op) s.made s.made
    rw [lawful.ops_store, Function.update_self] at same
    exact same
  refine inv.step distinct reached isThread (names k ++ [s.made]) rfl (fun _ _ => rfl)
    (lawful.enqueue stored stands isGroup inv.fresh) (fun m' _ => old m') ?_
    (Nat.le_succ _) (fun n member => ?_)
    (follows.construct linked atPlace stands found below low high (old k) isNew)
  · exact inv.apart.grow (fun k' member => absurd (inv.made k' _ member) (lt_irrefl _))
      (List.perm_append_singleton _ _)
  · rcases List.mem_append.mp member with old | new
    · exact (inv.made k n old).trans (Nat.lt_succ_self _)
    · rw [List.mem_singleton.mp new]
      exact Nat.lt_succ_self _

/-- The round of a completed operation. -/
theorem complete (inv : WorkInv lawful params names st s fails a) (distinct : DistinctGroups params)
    (reached : Reachable (jobSystem Op dist targets params) a) (isThread : params[k]? = some th)
    {n : Nat} {tData : TargetData} {round : Round} {offset : Int64} {state : OffsetState Engine}
    (atPlace : (s.workers k).place = .waited (some n))
    (found : th.targets[getTargetData (manager.ops s.engine n)]? = some tData)
    (noError : round.err = 0) (size : round.ret.toInt64.toUInt64 = tData.target.blockSize)
    (low : 1 ≤ round.percentage) (high : round.percentage ≤ 100)
    (done : (s.workers k).record th (manager.ops s.engine n) tData round = some worker)
    (call : tData.target.getNextOffset dist th.relThreadId (s.offsetState k tData)
      (getOffset (manager.ops s.engine n)) = some (offset, state)) :
    ∃ a', Reachable (jobSystem Op dist targets params) a' ∧ ∃ names st, WorkInv lawful params names st
      { (s.setWorker k worker).afterOffset k tData state (.requeue n) with
        engine := manager.store s.engine n
          (ThreadState.recycled (manager.ops s.engine n) tData offset round) } fails a' := by
  have follows := inv.follows k th isThread
  have linked := linked_reachable reached isThread
  have mine : n ∈ names k := follows.hasName (by rw [atPlace]; exact List.mem_cons_self)
  have free := inv.free reached isThread (by rw [atPlace]; rfl)
  have own := follows.complete dist linked (inv.apart.queues k) atPlace found noError size
    low high done call
  rw [← lawful.ops_store] at own
  have workers : Function.update (Function.update s.workers k worker) k
      { Function.update s.workers k worker k with
        place := .requeue n, rngEngine := state.rngEngine } =
      Function.update s.workers k
        { worker with place := .requeue n, rngEngine := state.rngEngine } := by
    rw [Function.update_self, Function.update_idem]
  refine inv.step distinct reached isThread (names k) workers (fun _ _ => rfl) ?_
    (fun m other j member => ?_) ?_ le_rfl (inv.made k) own
  · rw [Function.update_eq_self]
    exact lawful.store _ inv.holds free
  · have ne : j ≠ n := fun same => other (inv.apart.apart m k n (same ▸ member) mine)
    show Unchanged _ (manager.ops (manager.store s.engine n _) j)
    rw [lawful.ops_store, Function.update_of_ne ne]
    exact .refl _
  · rw [Function.update_eq_self]
    exact inv.apart

end WorkInv

/-- **Each step of the threads or of the device** is matched by the job. Only the end of a `submit`
settles an outcome. -/
theorem workStep (distinct : DistinctGroups params) {turn : Turn}
    (step : WorkStep manager dist params s turn next) (fails : Nat → Bool) :
    ∃ before : Nat → Bool, ∀ a, Reachable (jobSystem Op dist targets params) a →
      (∃ names st, WorkInv lawful params names st s before a) →
      ∃ a', Reachable (jobSystem Op dist targets params) a' ∧
        ∃ names st, WorkInv lawful params names st next fails a' := by
  cases step with
  | startOffset isThread atPlace found call =>
    refine ⟨fails, fun a reached ⟨names, st, inv⟩ => ?_⟩
    exact inv.outside distinct reached isThread rfl rfl rfl
      ((inv.follows _ _ isThread).startOffset atPlace found call)
  | targetsDone isThread atPlace atEnd =>
    refine ⟨fails, fun a reached ⟨names, st, inv⟩ => ?_⟩
    exact inv.outside distinct reached isThread rfl rfl rfl
      ((inv.follows _ _ isThread).targetsDone (linked_reachable reached isThread) atPlace atEnd)
  | construct isThread atPlace found below low high =>
    refine ⟨fails, fun a reached ⟨names, st, inv⟩ => ?_⟩
    exact inv.construct distinct reached isThread atPlace found below low high
  | overlapDone isThread atPlace found atEnd =>
    refine ⟨fails, fun a reached ⟨names, st, inv⟩ => ?_⟩
    exact inv.outside distinct reached isThread rfl rfl rfl
      ((inv.follows _ _ isThread).overlapDone atPlace found atEnd)
  | advance isThread atPlace found call =>
    refine ⟨fails, fun a reached ⟨names, st, inv⟩ => ?_⟩
    exact inv.outside distinct reached isThread rfl rfl rfl
      ((inv.follows _ _ isThread).advance atPlace found call)
  | callSubmit isThread atPlace =>
    refine ⟨fails, fun a reached ⟨names, st, inv⟩ => ?_⟩
    obtain ⟨q, f, stands⟩ := inv.stands isThread atPlace fun _ is => is
    have follows := inv.follows _ _ isThread
    rw [stands] at follows
    exact inv.call distinct reached isThread rfl rfl rfl (fun _ _ => rfl)
      (lawful.callSubmit inv.holds stands) (lawful.callSubmit_ops _ _) (follows.callSubmit atPlace)
  | @inside k th engine isThread atPlace taken =>
    refine ⟨fails, fun a reached ⟨names, st, inv⟩ => ?_⟩
    have workers := (Function.update_eq_self k s.workers).symm
    rcases atPlace with atPlace | atPlace
    · obtain ⟨q, f, stands⟩ := inv.stands isThread atPlace fun _ is => is
      have follows := inv.follows _ _ isThread
      rw [stands] at follows
      obtain ⟨q', f', kept, _, holds⟩ := lawful.insideSubmit inv.holds stands taken
      exact inv.call distinct reached isThread workers rfl rfl (fun _ _ => rfl) holds
        (lawful.inside_ops taken)
        (follows.inside rfl kept.symm (by rw [atPlace]; exact nofun) (by rw [atPlace]; exact nofun))
    · obtain ⟨q, f, stands⟩ := inv.stands isThread atPlace fun _ is => is
      have follows := inv.follows _ _ isThread
      rw [stands] at follows
      obtain ⟨f', kept, holds⟩ := lawful.insideWait inv.holds stands taken
      exact inv.call distinct reached isThread workers rfl rfl (fun _ _ => rfl) holds
        (lawful.inside_ops taken)
        (follows.inside rfl (kept.symm.append_left q) (by rw [atPlace]; exact nofun) follows.works)
  | @submitReturns k th ret engine isThread atPlace taken =>
    -- the outcome before the call is the one that it settles
    refine ⟨Function.update fails k (decide (ret ≠ 0)), fun a reached ⟨names, st, inv⟩ => ?_⟩
    obtain ⟨q, f, stands⟩ := inv.stands isThread atPlace fun _ is => is
    have follows := inv.follows _ _ isThread
    have sameFails : ∀ m ≠ k, fails m = Function.update fails k (decide (ret ≠ 0)) m :=
      fun m other => (Function.update_of_ne other _ _).symm
    rw [stands, Function.update_self] at follows
    rcases lawful.submitReturns inv.holds stands taken with ⟨zero, f', kept, holds⟩ | ⟨failed, holds⟩
    · rw [decide_eq_false (not_not_intro zero)] at follows
      rw [if_pos zero]
      exact inv.call distinct reached isThread rfl rfl rfl sameFails holds
        (lawful.submitReturns_ops taken) (follows.submitSucceeds atPlace kept)
    · rw [decide_eq_true failed] at follows
      rw [if_neg failed]
      exact inv.call distinct reached isThread rfl rfl rfl sameFails holds
        (lawful.submitReturns_ops taken) (follows.submitFails atPlace)
  | leave isThread atPlace =>
    refine ⟨fails, fun a reached ⟨names, st, inv⟩ => ?_⟩
    exact inv.outside distinct reached isThread rfl rfl rfl
      ((inv.follows _ _ isThread).leave atPlace)
  | throttle isThread => exact ⟨fails, fun a reached related => ⟨a, reached, related⟩⟩
  | callWait isThread atPlace =>
    refine ⟨fails, fun a reached ⟨names, st, inv⟩ => ?_⟩
    obtain ⟨q, f, stands⟩ := inv.stands isThread atPlace fun _ is => is
    have follows := inv.follows _ _ isThread
    rw [stands] at follows
    exact inv.call distinct reached isThread rfl rfl rfl (fun _ _ => rfl)
      (lawful.callWait inv.holds stands) (lawful.callWait_ops _ _) (follows.callWait atPlace)
  | waitReturns isThread atPlace taken =>
    refine ⟨fails, fun a reached ⟨names, st, inv⟩ => ?_⟩
    obtain ⟨q, f, stands⟩ := inv.stands isThread atPlace fun _ is => is
    have follows := inv.follows _ _ isThread
    rw [stands] at follows
    obtain ⟨n, f', rfl, split, holds⟩ := lawful.waitReturns inv.holds stands taken
    exact inv.call distinct reached isThread rfl rfl rfl (fun _ _ => rfl) holds
      (lawful.waitReturns_ops taken) (follows.waitReturns atPlace split)
  | @waitLast k th op isThread atPlace =>
    refine ⟨fails, fun a reached ⟨names, st, inv⟩ => ?_⟩
    have follows := inv.follows _ _ isThread
    cases op with
    | none => exact absurd atPlace follows.notNull
    | some n => exact inv.outside distinct reached isThread rfl rfl rfl (follows.waitLast atPlace)
  | fail isThread atPlace _ found wrong =>
    refine ⟨fails, fun a reached ⟨names, st, inv⟩ => ?_⟩
    exact inv.outside distinct reached isThread rfl rfl rfl
      ((inv.follows _ _ isThread).fail atPlace found wrong)
  | complete isThread atPlace _ found noError size low high done call =>
    refine ⟨fails, fun a reached ⟨names, st, inv⟩ => ?_⟩
    exact inv.complete distinct reached isThread atPlace found noError size low high done call
  | @enqueue k n th isThread atPlace =>
    refine ⟨fails, fun a reached ⟨names, st, inv⟩ => ?_⟩
    obtain ⟨q, f, stands⟩ := inv.stands isThread atPlace fun _ is => is
    have follows := inv.follows _ _ isThread
    have free := inv.free reached isThread (n := n) (by rw [atPlace]; rfl)
    have isGroup := follows.group n (follows.hasName (by rw [atPlace]; exact List.mem_cons_self))
    rw [stands] at follows
    exact inv.call distinct reached isThread rfl rfl rfl (fun _ _ => rfl)
      (lawful.enqueue inv.holds stands isGroup free) (lawful.enqueue_ops _ n)
      (follows.enqueue atPlace)
  | device step =>
    refine ⟨fails, fun a reached ⟨names, st, inv⟩ => ?_⟩
    exact ⟨a, reached, names, st, lawful.device inv.holds step, inv.interlocked, inv.apart, inv.made,
      inv.groups, fun k th isThread => (inv.follows k th isThread).unchanged fun n _ =>
        lawful.device_ops step n⟩

/-! ### The refinement -/

theorem workInv_init (lawful : LawfulManager manager)
    (isInit : (workSystem manager dist targets params).init s) (fails : Nat → Bool) :
    ∃ a, (jobSystem Op dist targets params).init a ∧
      ∃ names st, WorkInv lawful params names st s fails a := by
  obtain ⟨interlocked, workers, engine, _⟩ := isInit
  let threads : Nat → ThreadState Op Engine := fun k =>
    .initial (params.getD k { threadId := 0, targets := [] }) (s.workers k).rngEngine
  have initial : ∀ (k : Nat) (th : ThreadParams), params[k]? = some th →
      threads k = .initial th (s.workers k).rngEngine := fun k th isThread => by
    dsimp only [threads]
    rw [List.getD_eq_getElem?_getD, isThread, Option.getD_some]
  refine ⟨⟨s.interlocked, threads⟩, ⟨interlocked, fun k th isThread => ⟨_, initial k th isThread⟩⟩,
    fun _ => [], fun _ => {}, lawful.init engine, rfl, .empty, nofun, fun _ some => absurd rfl some,
    fun k th isThread => ?_⟩
  obtain ⟨rngEngine, isInitial⟩ := workers k th isThread
  dsimp only
  rw [initial k th isThread, isInitial]
  exact .initial th rngEngine (fails k) _

/-- **The threads over an engine do what the job's threads do**, whatever the outcomes will be. -/
def workProphecy (lawful : LawfulManager manager) (dist : UniformInt Engine) (targets : List Target)
    (distinct : DistinctGroups params) :
    Prophecy (workSystem manager dist targets params) (jobSystem Op dist targets params)
      (Nat → Bool) where
  related s fails a := ∃ names st, WorkInv lawful params names st s fails a
  init _ isInit := workInv_init lawful isInit
  step _ _ _ step := workStep distinct step

/-- An operation in the heap: which of the thread's targets it is for, and its control block. -/
def WorkState.request (s : WorkState manager Engine) (n : Nat) : Nat × ControlBlock :=
  (getTargetData (manager.ops s.engine n), controlBlock (manager.ops s.engine n))

/-- **A state of a thread over an engine and the state of the thread of the job it stands for**, when
every `submit` that is going on will succeed. -/
structure StandsFor (th : ThreadParams) (s : WorkState manager Engine) (k : Nat)
    (t : ThreadState Op Engine) : Prop where
  phase : t.phase = (s.workers k).place.phase false
  rngEngine : t.rngEngine = (s.workers k).rngEngine
  results : t.results = (s.workers k).results
  bytes : t.threadBytesCount = (s.workers k).threadBytesCount
  /-- at the head of the work loop, in `wait` and at the end, the kernel has the requests of the flights -/
  flights : (s.workers k).place.Submitted →
    ((manager.requests s.engine th.groupId).map s.request).Perm
      (t.inFlight.map fun flight => (flight.target, flight.cb))
  /-- at any time, the requests are for different operations that are queued or in flight -/
  distinct : (manager.requests s.engine th.groupId).Nodup
  count : (manager.requests s.engine th.groupId).length ≤ t.pending.length
  /-- and each operation has one name -/
  requests : ∃ names : List Nat, ∀ n ∈ manager.requests s.engine th.groupId, ∃ issue ∈ t.pending,
    names[issue.op]? = some n ∧ ∃ op, t.ops[issue.op]? = some op ∧
      s.request n = (getTargetData op, controlBlock op)

namespace Follows

variable {fail : Bool} {ns : List Nat} {heap : Nat → Op} {standing : Standing} {t : ThreadState Op Engine}

/-- The operation of a name, with its target and its control block. -/
theorem block (follows : Follows fail th ns heap standing worker t) (linked : Linked th t) {i n : Nat}
    (found : ns[i]? = some n) : ∃ op, t.ops[i]? = some op ∧
      getTargetData (heap n) = getTargetData op ∧ controlBlock (heap n) = controlBlock op := by
  obtain ⟨op, isOp, same⟩ := follows.named.find found
  have inStep := (linked.sound op (List.mem_of_getElem? isOp)).1
  refine ⟨op, isOp, ?_, ?_⟩
  · rw [getTargetData_eq, getTargetData_eq, same.view]
  · rw [controlBlock_eq _ (same.inStep inStep), controlBlock_eq _ inStep, same.view]

/-- What is in flight has the targets and the control blocks of the flights. -/
theorem blocks (follows : Follows fail th ns heap standing worker t) (linked : Linked th t)
    (opQueue : t.opQueue = []) (hand : worker.place.hand = []) (queue : standing.queue = []) :
    (standing.flying.map fun n => (getTargetData (heap n), controlBlock (heap n))).Perm
      (t.inFlight.map fun flight => (flight.target, flight.cb)) := by
  have pending := follows.pending
  unfold ThreadState.pendingNames ThreadState.pending Standing.place at pending
  rw [opQueue, hand, queue, List.nil_append, List.nil_append, List.nil_append, List.map_map] at pending
  have blocks := (pending.map (Option.map fun n =>
    (getTargetData (heap n), controlBlock (heap n)))).symm
  rw [List.map_map, List.map_map] at blocks
  refine (List.map_perm_map_iff (Option.some_injective _)).mp ?_
  rw [List.map_map, List.map_map]
  refine blocks.trans (List.Perm.of_eq (List.map_congr_left fun flight inFlight => ?_))
  obtain ⟨before, after, split⟩ := List.append_of_mem inFlight
  obtain ⟨⟨op, isOp, target, _⟩, isBlock⟩ := linked.flight_carries split
  have below : flight.op < ns.length := by
    rw [follows.named.length]
    exact (List.getElem?_eq_some_iff.mp isOp).1
  obtain ⟨op', isOp', sameTarget, sameBlock⟩ :=
    follows.block linked (List.getElem?_eq_getElem below)
  rw [isOp, Option.some.injEq] at isOp'
  subst isOp'
  rw [isOp, Option.map_some, Option.some.injEq] at isBlock
  show (ns[flight.op]?).map _ = some (flight.target, flight.cb)
  rw [List.getElem?_eq_getElem below, Option.map_some, sameTarget, sameBlock, isBlock,
    getTargetData_eq, target]

end Follows

theorem WorkInv.standsFor (inv : WorkInv lawful params names st s fails a)
    (reached : Reachable (jobSystem Op dist targets params) a) (isThread : params[k]? = some th)
    (succeeds : fails k = false) : StandsFor th s k (a.threads k) := by
  have follows := inv.follows k th isThread
  have linked := linked_reachable reached isThread
  rw [succeeds] at follows
  have requests := lawful.requests_place (g := th.groupId) inv.holds
  refine ⟨follows.phase, follows.rngEngine, follows.results, follows.bytes, fun atPlace => ?_, ?_, ?_,
    names k, fun n request => ?_⟩
  · obtain ⟨hand, works, phase, running⟩ := atPlace.settled false
    rw [← follows.phase] at phase
    exact ((lawful.requests inv.holds (running _ follows.inCall)).map _).trans
      (follows.blocks linked (follows.submitted phase) hand (follows.works works))
  · obtain ⟨part, same, sub⟩ := requests
    exact same.nodup_iff.mp (((lawful.apart inv.holds).queues th.groupId).sublist sub)
  · have length := follows.pending.length_eq
    unfold ThreadState.pendingNames at length
    rw [List.length_map, List.length_map, List.length_append] at length
    exact requests.length_le.trans (by omega)
  · have placed := requests.subset request
    obtain ⟨issue, isPending, found⟩ := follows.issueOf (List.mem_append_right _ placed)
    obtain ⟨op, isOp, sameTarget, sameBlock⟩ := follows.block linked found
    exact ⟨issue, isPending, found, op, isOp, Prod.ext sameTarget sameBlock⟩

/-- **The state of the job that a state of the threads over an engine stands for.** -/
theorem work_refines (lawful : LawfulManager manager) (distinct : DistinctGroups params)
    (reached : Reachable (workSystem manager dist targets params) s) :
    ∃ a, Reachable (jobSystem Op dist targets params) a ∧ a.interlocked = s.interlocked ∧
      ∀ (k : Nat) (th : ThreadParams), params[k]? = some th → StandsFor th s k (a.threads k) := by
  obtain ⟨a, isReached, names, st, inv⟩ :=
    (workProphecy lawful dist targets distinct).reachable reached fun _ => false
  exact ⟨a, isReached, inv.interlocked, fun k th isThread => inv.standsFor isReached isThread rfl⟩

end Work

theorem createThreads_distinctGroups {job : JobOptions} {opened : UInt32 → Nat → JobOptions.Opened}
    {params : List ThreadParams} (created : job.createThreads opened = some params) :
    DistinctGroups params := by
  intro j k th th' isThread isThread' same
  have ids : th.threadId = th'.threadId := congrArg Int32.toUInt32 same
  rw [← createThreads_id created isThread, ← createThreads_id created isThread', ids]

/-- **Over either engine, the threads of a job only reach what the job's threads reach**: the states
agree on the shared offsets, on each thread's place, random engine and results, and on the requests that
the kernel has for it. -/
theorem jobWork_refines {Engine : Type} {job : JobOptions}
    {opened : UInt32 → Nat → JobOptions.Opened} {params : List ThreadParams}
    {dist : UniformInt Engine} {s : WorkState job.ioManager.manager Engine}
    (created : job.createThreads opened = some params)
    (reached : Reachable (job.workSystem dist params) s) :
    ∃ a, Reachable (job.system dist params) a ∧ a.interlocked = s.interlocked ∧
      ∀ (k : Nat) (th : ThreadParams), params[k]? = some th → StandsFor th s k (a.threads k) :=
  work_refines job.ioManager.lawful (createThreads_distinctGroups created) reached

/-- The threads alone, in a state with the invariants of a run of theirs. -/
theorem jobWork_alone {Engine : Type} {job : JobOptions}
    {opened : UInt32 → Nat → JobOptions.Opened} {params : List ThreadParams}
    {dist : UniformInt Engine} {s : WorkState job.ioManager.manager Engine}
    (created : job.createThreads opened = some params)
    (reached : Reachable (job.workSystem dist params) s) :
    ∃ a, Reachable (job.system dist params) a ∧
      ∀ (k : Nat) (th : ThreadParams), params[k]? = some th → StandsFor th s k (a.threads k) := by
  obtain ⟨a, isReached, _, standsFor⟩ :=
    work_refines job.ioManager.lawful (createThreads_distinctGroups created) reached
  exact ⟨a, isReached, standsFor⟩

/-! ### Two threads with two slots each -/

/-- `-t2 -w50 f` -/
def pairCalls : List (Key × Option CString) :=
  [(.option 't', some "2".toList), (.option 'w', some "50".toList), (.keyArg, some "f".toList)]

def pairTarget : Target where
  path := "f".toList
  size := 1048576
  maxSize := 1048576
  threadsPerTarget := 2
  writePercentage := 50

def pairJob : JobOptions where
  totalThreads := 2
  targets := [pairTarget]

theorem pairJob_parsed : parseCommandLine pairCalls (fun _ => .file 1048576) = .ok pairJob :=
  rfl

/-- Each thread opens the file for itself, and gets a buffer of its own. -/
def pairOpened (id : UInt32) (_ : Nat) : JobOptions.Opened where
  fd := 3 + id.toInt32
  buffer := 65536 + 196608 * id.toUInt64
  writeBuffer := 0

def pairThread (id : UInt32) : ThreadParams where
  threadId := id
  relThreadId := id
  targets := [
    { target := pairTarget
      targetIndex := 0
      fd := 3 + id.toInt32
      buffer := 65536 + 196608 * id.toUInt64
      writeBuffer := 0 }]

def pairThreads : List ThreadParams :=
  [pairThread 0, pairThread 1]

theorem pairJob_created : pairJob.createThreads pairOpened = some pairThreads :=
  rfl

def pairFirst {Engine : Type} (rngEngine : Engine) : WorkState kernelAsyncIOManager Engine where
  interlocked k := (pairJob.targets[k]?.map (·.interlockedOffset)).getD 0
  workers k := .initial (pairThread (UInt32.ofNat k)) rngEngine
  engine := ({ ops := plainOps } : KernelState)

theorem pairFirst_init {Engine : Type} (dist : UniformInt Engine) (rngEngine : Engine) :
    (pairJob.workSystem dist pairThreads).init (pairFirst rngEngine) := by
  refine ⟨fun _ => rfl, fun k th found => ?_, ⟨plainOps, rfl⟩, rfl⟩
  rcases k with _ | _ | k
  · cases found
    exact ⟨rngEngine, rfl⟩
  · cases found
    exact ⟨rngEngine, rfl⟩
  · cases found

/-- **Runs of two threads over libaio.** The first reads and the second writes. When both are at the heads
of their loops, a `wait` of the second returns its first operation; or the kernel takes only that one when
it submits. -/
theorem pairJob_works {Engine : Type} (dist : UniformInt Engine) (rngEngine : Engine) :
    ∃ s returned failed : WorkState kernelAsyncIOManager Engine,
    (Reachable (pairJob.workSystem dist pairThreads) s ∧
      (s.workers 0).place = .outside .work ∧ (s.workers 1).place = .outside .work ∧
      kernelAsyncIOManager.requests s.engine 0 = [0, 1] ∧
      kernelAsyncIOManager.requests s.engine 1 = [2, 3] ∧
      (s.request 1).2.type = .read ∧ (s.request 2).2.type = .write) ∧
    (Reachable (pairJob.workSystem dist pairThreads) returned ∧
      (returned.workers 0).place = .outside .work ∧
      (returned.workers 1).place = .waited (some 2) ∧
      kernelAsyncIOManager.requests returned.engine 1 = [3]) ∧
    Reachable (pairJob.workSystem dist pairThreads) failed ∧
      (failed.workers 1).place = .outside .aborted ∧
      kernelAsyncIOManager.requests failed.engine 1 = [2] ∧
      failed.engine.arrays.map (fun array => (array.array, array.frees)) = [([0, 1], 0), ([2, 3], 1)] := by
  have isFirst : pairThreads[0]? = some (pairThread 0) := rfl
  have isSecond : pairThreads[1]? = some (pairThread 1) := rfl
  have run := Reachable.of_init (pairFirst_init dist rngEngine)
  have run := run.step (.startOffset isFirst rfl rfl rfl)
  have run := run.step (@WorkStep.construct _ _ _ _ _ _ _ 0 0 (pairThread 0) 0 _ _ 100 0 0
    isFirst rfl rfl (by decide) (by decide) (by decide))
  have run := run.step (.advance isFirst rfl rfl rfl)
  have run := run.step (@WorkStep.construct _ _ _ _ _ _ _ 0 0 (pairThread 0) 1 _ _ 100 0 0
    isFirst rfl rfl (by decide) (by decide) (by decide))
  have run := run.step (.advance isFirst rfl rfl rfl)
  have run := run.step (.overlapDone isFirst rfl rfl (by decide))
  have run := run.step (.targetsDone isFirst rfl rfl)
  have run := run.step (.callSubmit isFirst rfl)
  -- the second thread sets up while the first is in `submit`
  have run := run.step (.startOffset isSecond rfl rfl rfl)
  have run := run.step (@WorkStep.construct _ _ _ _ _ _ _ 1 0 (pairThread 1) 0 _ _ 1 0 0
    isSecond rfl rfl (by decide) (by decide) (by decide))
  have run := run.step (.advance isSecond rfl rfl rfl)
  have run := run.step (@WorkStep.construct _ _ _ _ _ _ _ 1 0 (pairThread 1) 1 _ _ 1 0 0
    isSecond rfl rfl (by decide) (by decide) (by decide))
  have run := run.step (.advance isSecond rfl rfl rfl)
  have run := run.step (.overlapDone isSecond rfl rfl (by decide))
  have run := run.step (.targetsDone isSecond rfl rfl)
  have run := run.step (.callSubmit isSecond rfl)
  have accepted : IoSubmitReturns 2 2 := ⟨by decide, fun no => by cases no⟩
  have run := run.step (.submitReturns isFirst rfl ⟨2, fun _ => false, accepted, rfl⟩)
  have part : IoSubmitReturns 2 1 := ⟨by decide, fun no => by cases no⟩
  have failed := run.step (.submitReturns isSecond rfl ⟨1, fun _ => false, part, rfl⟩)
  have atWork := run.step (.submitReturns isSecond rfl ⟨2, fun _ => false, accepted, rfl⟩)
  have notThrottled : (pairThread 1).throttles 0 (.quiet 65536) = false := rfl
  have run := atWork.step (.callWait isSecond rfl notThrottled)
  have returned := run.step (.waitReturns isSecond rfl
    (@KernelWaitReturns.found _ _ _ [_, _] _ 65536 _ _ rfl rfl rfl))
  exact ⟨_, _, _, ⟨atWork, rfl, rfl, rfl, rfl, rfl, rfl⟩, ⟨returned, rfl, rfl, rfl⟩, failed, rfl, rfl, rfl⟩

/-- The state of the job that it stands for, with two requests of each thread. -/
theorem pairJob_refines : ∃ (s : WorkState pairJob.ioManager.manager Unit)
    (a : JobState pairJob.ioManager.Op Unit),
    pairJob.ioManager.manager.requests s.engine 0 = [0, 1] ∧
      pairJob.ioManager.manager.requests s.engine 1 = [2, 3] ∧
      Reachable (pairJob.system (fun low _ engine => (low, engine)) pairThreads) a ∧
      a.interlocked = s.interlocked ∧ StandsFor (pairThread 0) s 0 (a.threads 0) ∧
      StandsFor (pairThread 1) s 1 (a.threads 1) := by
  obtain ⟨s, _, _, ⟨reached, _, _, first, second, _⟩, _⟩ :=
    pairJob_works (fun low _ engine => (low, engine)) ()
  obtain ⟨a, isReached, shared, standsFor⟩ := jobWork_refines pairJob_created reached
  exact ⟨s, a, first, second, isReached, shared, standsFor 0 _ rfl, standsFor 1 _ rfl⟩

end DiskSpd
