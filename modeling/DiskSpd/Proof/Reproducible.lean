/-
**Random offsets from one engine.**

A thread has one random engine, from which it draws the offsets of all its targets in the order in
which it issues them.

* `ThreadParams.draw` — a draw for one of the thread's targets.
* `initialIssues` — what the initialisation of the thread issues, as a function of its engine.
* `DrawInv` — the invariant of a thread with random targets: what it has issued is the beginning of
  its initialisation, or all of it and then one draw for each round, in the order of the targets of
  the completed operations. `drawInv_step` — each step of the thread keeps it.
* `reproducible` — two runs from the same seed issue the same offsets as far as they issue them to
  the same targets; to the end of the shorter one, when the thread has one target. With two targets
  the order of the completions decides which one gets the next number (`twoRandom_differ`).
-/

import DiskSpd.Lib.Draws
import DiskSpd.Model.Buffers
import DiskSpd.Proof.Depth
import DiskSpd.Proof.ThreadOffsets

namespace DiskSpd

open IAsyncIop LawfulIop Transition

section Draw

variable {Engine : Type} (dist : UniformInt Engine)

/-- A random offset of the target. The engine is left alone where `random_offset` divides by 0. -/
def Target.draw (target : Target) (rngEngine : Engine) : Int64 × Engine :=
  (target.randomOffset dist rngEngine).getD (0, rngEngine)

/-- A draw for the thread's target with an index. -/
def ThreadParams.draw (th : ThreadParams) (t : Nat) (rngEngine : Engine) : Int64 × Engine :=
  match th.targets[t]? with
  | some tData => tData.target.draw dist rngEngine
  | none => (0, rngEngine)

def ThreadParams.overlapOf (th : ThreadParams) (t : Nat) : Nat :=
  (th.targets[t]?.map fun tData => tData.target.overlap.toNat).getD 0

/-- The overlap loop of a target, with so many rounds to go: what it issues, and the engine. -/
def overlapIssues (th : ThreadParams) (t : Nat) : Nat → Int64 → Engine → List (Nat × Int64) × Engine
  | 0, _, rngEngine => ([], rngEngine)
  | rest + 1, curr, rngEngine =>
    let next := th.draw dist t rngEngine
    let later := overlapIssues th t rest next.1 next.2
    ((t, curr) :: later.1, later.2)

/-- The initialisation of so many targets, from an index on. -/
def initialIssues (th : ThreadParams) : Nat → Nat → Engine → List (Nat × Int64) × Engine
  | 0, _, rngEngine => ([], rngEngine)
  | rest + 1, t, rngEngine =>
    let first := th.draw dist t rngEngine
    let here := overlapIssues dist th t (th.overlapOf t) first.1 first.2
    let later := initialIssues th rest (t + 1) here.2
    (here.1 ++ later.1, later.2)

/-- The rest of an overlap loop, and the targets after it. -/
def laterIssues (th : ThreadParams) (t rest : Nat) (curr : Int64) (rngEngine : Engine) :
    List (Nat × Int64) × Engine :=
  let here := overlapIssues dist th t rest curr rngEngine
  let later := initialIssues dist th (th.targets.length - (t + 1)) (t + 1) here.2
  (here.1 ++ later.1, later.2)

/-- What the initialisation has still to issue, from where the thread is. -/
def Phase.rest (th : ThreadParams) (rngEngine : Engine) : Phase → List (Nat × Int64) × Engine
  | .start t => initialIssues dist th (th.targets.length - t) t rngEngine
  | .issue t i curr => laterIssues dist th t (th.overlapOf t - i.toNat) curr rngEngine
  | .advance t i _ =>
    let next := th.draw dist t rngEngine
    laterIssues dist th t (th.overlapOf t - (i.toNat + 1)) next.1 next.2
  | _ => ([], rngEngine)

variable {th : ThreadParams} {t : Nat} {tData : TargetData} {rngEngine : Engine}

theorem overlapOf_eq (found : th.targets[t]? = some tData) :
    th.overlapOf t = tData.target.overlap.toNat := by
  unfold ThreadParams.overlapOf
  rw [found]
  rfl

theorem rest_start (below : t < th.targets.length) :
    (Phase.start t).rest dist th rngEngine = laterIssues dist th t (th.overlapOf t)
      (th.draw dist t rngEngine).1 (th.draw dist t rngEngine).2 := by
  have left : th.targets.length - t = th.targets.length - (t + 1) + 1 := by omega
  show initialIssues dist th (th.targets.length - t) t rngEngine = _
  rw [left]
  rfl

theorem rest_issue {i : UInt32} {curr : Int64} :
    (Phase.issue t i curr).rest dist th rngEngine =
      laterIssues dist th t (th.overlapOf t - i.toNat) curr rngEngine := rfl

theorem rest_advance {i : UInt32} {curr : Int64} :
    (Phase.advance t i curr).rest dist th rngEngine =
      laterIssues dist th t (th.overlapOf t - (i.toNat + 1)) (th.draw dist t rngEngine).1
        (th.draw dist t rngEngine).2 := rfl

theorem laterIssues_zero (curr : Int64) :
    laterIssues dist th t 0 curr rngEngine = (Phase.start (t + 1)).rest dist th rngEngine := rfl

theorem laterIssues_succ (rest : Nat) (curr : Int64) :
    laterIssues dist th t (rest + 1) curr rngEngine =
      ((t, curr) :: (laterIssues dist th t rest (th.draw dist t rngEngine).1
          (th.draw dist t rngEngine).2).1,
        (laterIssues dist th t rest (th.draw dist t rngEngine).1
          (th.draw dist t rngEngine).2).2) := rfl

/-! ### The calls of the thread -/

/-- The offset functions of a random target draw from the engine. -/
theorem draw_of_next (found : th.targets[t]? = some tData)
    (random : tData.target.useRandomAlignment = true) {relThreadId : UInt32}
    {state after : OffsetState Engine} {curr offset : Int64}
    (call : tData.target.getNextOffset dist relThreadId state curr = some (offset, after)) :
    th.draw dist t state.rngEngine = (offset, after.rngEngine) := by
  unfold Target.getNextOffset at call
  rw [random, if_pos rfl] at call
  obtain ⟨⟨drawn, next⟩, draw, call⟩ := Option.map_eq_some_iff.mp call
  cases call
  unfold ThreadParams.draw Target.draw
  rw [found]
  dsimp only
  rw [draw]
  rfl

theorem draw_of_start (found : th.targets[t]? = some tData)
    (random : tData.target.useRandomAlignment = true) {relThreadId : UInt32}
    {state after : OffsetState Engine} {offset : Int64}
    (call : tData.target.getStartOffset dist relThreadId state = some (offset, after)) :
    th.draw dist t state.rngEngine = (offset, after.rngEngine) := by
  have next : tData.target.getNextOffset dist relThreadId state 0 = some (offset, after) := by
    unfold Target.getStartOffset at call
    unfold Target.getNextOffset
    rw [random, if_pos rfl] at call ⊢
    exact call
  exact draw_of_next dist found random next

/-! ### What is still to come

Each step of the initialisation leaves the rest of it, less what it issues. -/

theorem rest_startOffset (found : th.targets[t]? = some tData)
    (random : tData.target.useRandomAlignment = true) {relThreadId : UInt32}
    {state after : OffsetState Engine} {offset : Int64}
    (call : tData.target.getStartOffset dist relThreadId state = some (offset, after)) :
    (Phase.issue t 0 offset).rest dist th after.rngEngine =
      (Phase.start t).rest dist th state.rngEngine := by
  have draw := draw_of_start dist found random call
  have zero : (0 : UInt32).toNat = 0 := rfl
  have below := (List.getElem?_eq_some_iff.mp found).1
  calc (Phase.issue t 0 offset).rest dist th after.rngEngine
      = laterIssues dist th t (th.overlapOf t) offset after.rngEngine := by
        rw [rest_issue, zero, Nat.sub_zero]
    _ = (Phase.start t).rest dist th state.rngEngine := by rw [rest_start dist below, draw]

theorem rest_targetsDone (none : th.targets[t]? = none) :
    Phase.submit.rest dist th rngEngine = (Phase.start t).rest dist th rngEngine := by
  have left : th.targets.length - t = 0 := by
    have := List.getElem?_eq_none_iff.mp none
    omega
  rw [Phase.rest.eq_1, left]
  rfl

theorem rest_construct {i : UInt32} {curr : Int64} (found : th.targets[t]? = some tData)
    (below : i < tData.target.overlap) :
    (Phase.issue t i curr).rest dist th rngEngine =
      ((t, curr) :: ((Phase.advance t i curr).rest dist th rngEngine).1,
        ((Phase.advance t i curr).rest dist th rngEngine).2) := by
  have left : th.overlapOf t - i.toNat = th.overlapOf t - (i.toNat + 1) + 1 := by
    rw [overlapOf_eq found]
    have := UInt32.lt_iff_toNat_lt.mp below
    omega
  rw [rest_issue, left, laterIssues_succ, rest_advance]

theorem rest_overlapDone {i : UInt32} {curr : Int64} (found : th.targets[t]? = some tData)
    (atEnd : ¬ i < tData.target.overlap) :
    (Phase.start (t + 1)).rest dist th rngEngine = (Phase.issue t i curr).rest dist th rngEngine := by
  have left : th.overlapOf t - i.toNat = 0 := by
    rw [overlapOf_eq found]
    rw [UInt32.lt_iff_toNat_lt] at atEnd
    omega
  rw [rest_issue, left, laterIssues_zero]

theorem rest_nextOffset (found : th.targets[t]? = some tData)
    (random : tData.target.useRandomAlignment = true) {relThreadId : UInt32}
    {state after : OffsetState Engine} {i : UInt32} {curr offset : Int64}
    (below : i.toNat < tData.target.overlap.toNat)
    (call : tData.target.getNextOffset dist relThreadId state curr = some (offset, after)) :
    (Phase.issue t (i + 1) offset).rest dist th after.rngEngine =
      (Phase.advance t i curr).rest dist th state.rngEngine := by
  have draw := draw_of_next dist found random call
  have next : (i + 1).toNat = i.toNat + 1 := by
    have bound := tData.target.overlap.toNat_lt
    have one : (1 : UInt32).toNat = 1 := rfl
    rw [UInt32.toNat_add, one]
    omega
  rw [rest_issue, rest_advance, next, draw]

end Draw

/-! ### The invariant -/

section Invariant

variable {Op Engine : Type}

/-- What the thread has issued: the target and the offset of each issue. -/
def ThreadState.drawn (s : ThreadState Op Engine) : List (Nat × Int64) :=
  s.issued.map fun issue => (issue.target, issue.offset)

/-- The thread has not submitted anything yet. -/
def Phase.initialising : Phase → Bool
  | .start _ => true
  | .issue _ _ _ => true
  | .advance _ _ _ => true
  | .submit => true
  | _ => false

/-- **What a thread with random targets has issued**, from the engine it started with. -/
structure DrawInv (dist : UniformInt Engine) (th : ThreadParams) (start : Engine)
    (s : ThreadState Op Engine) : Prop where
  initial : s.phase.initialising = true →
    s.drawn ++ (s.phase.rest dist th s.rngEngine).1 =
        (initialIssues dist th th.targets.length 0 start).1 ∧
      (s.phase.rest dist th s.rngEngine).2 =
        (initialIssues dist th th.targets.length 0 start).2
  later : s.phase.initialising = false → ∃ targets,
    s.drawn = (initialIssues dist th th.targets.length 0 start).1 ++ (Draws.values (th.draw dist)
        targets (initialIssues dist th th.targets.length 0 start).2).1 ∧
      (s.phase = .work → s.rngEngine = (Draws.values (th.draw dist) targets
        (initialIssues dist th th.targets.length 0 start).2).2)

variable {dist : UniformInt Engine} {th : ThreadParams} {start : Engine}
  {s s' : ThreadState Op Engine}

theorem drawInv_initial : DrawInv dist th start (.initial th start : ThreadState Op Engine) where
  initial _ := ⟨rfl, rfl⟩
  later running := by cases running

/-- A step of the initialisation. -/
theorem DrawInv.of_initial (inv : DrawInv dist th start s) (before : s.phase.initialising = true)
    (after : s'.phase.initialising = true)
    (drawn : s'.drawn ++ (s'.phase.rest dist th s'.rngEngine).1 =
      s.drawn ++ (s.phase.rest dist th s.rngEngine).1)
    (engine : (s'.phase.rest dist th s'.rngEngine).2 = (s.phase.rest dist th s.rngEngine).2) :
    DrawInv dist th start s' where
  initial _ := by
    rw [drawn, engine]
    exact inv.initial before
  later no := by
    rw [after] at no
    cases no

/-- A step of the initialisation that issues nothing leaves what is still to come. -/
theorem DrawInv.of_rest (inv : DrawInv dist th start s) (before : s.phase.initialising = true)
    (after : s'.phase.initialising = true) (issued : s'.issued = s.issued)
    (same : s'.phase.rest dist th s'.rngEngine = s.phase.rest dist th s.rngEngine) :
    DrawInv dist th start s' := by
  refine inv.of_initial before after ?_ (congrArg Prod.snd same)
  unfold ThreadState.drawn
  rw [issued, same]

/-- A step of the work loop that issues nothing. -/
theorem DrawInv.of_later (inv : DrawInv dist th start s) (before : s.phase.initialising = false)
    (after : s'.phase.initialising = false) (issued : s'.issued = s.issued)
    (stays : s'.phase = .work → s.phase = .work ∧ s'.rngEngine = s.rngEngine) :
    DrawInv dist th start s' where
  initial yes := by
    rw [after] at yes
    cases yes
  later _ := by
    obtain ⟨targets, drawn, engine⟩ := inv.later before
    refine ⟨targets, ?_, fun work => ?_⟩
    · unfold ThreadState.drawn at drawn ⊢
      rw [issued, drawn]
    · obtain ⟨working, same⟩ := stays work
      rw [same]
      exact engine working

variable [IAsyncIop Op]

/-- The first `submit`, with the initialisation done. -/
theorem drawInv_afterSubmit {s : ThreadState Op Engine} (targets : List Nat)
    (drawn : s.drawn = (initialIssues dist th th.targets.length 0 start).1 ++ (Draws.values
      (th.draw dist) targets (initialIssues dist th th.targets.length 0 start).2).1)
    (engine : s.rngEngine = (Draws.values (th.draw dist) targets
      (initialIssues dist th th.targets.length 0 start).2).2) (err : Int32) :
    DrawInv dist th start (s.afterSubmit err) := by
  refine ⟨fun initial => ?_, fun _ => ⟨targets, ?_, fun _ => ?_⟩⟩
  · rcases s.afterSubmit_phase err with phase | phase <;> rw [phase] at initial <;> cases initial
  · unfold ThreadState.drawn at drawn ⊢
    rw [ThreadState.afterSubmit_issued, drawn]
  · rw [← engine]
    unfold ThreadState.afterSubmit ThreadState.submit
    split <;> rfl

/-- **Each step of a thread keeps the invariant.** -/
theorem drawInv_step [LawfulIop Op] {interlocked interlocked' : Interlocked}
    (random : ∀ tData ∈ th.targets, tData.target.useRandomAlignment = true)
    (inOverlap : s.phase.InOverlap th) (inv : DrawInv dist th start s)
    (step : Step dist th interlocked s interlocked' s') : DrawInv dist th start s' := by
  cases step with
  | @startOffset t tData offset state phase found call =>
    have rest := rest_startOffset dist found (random tData (List.mem_of_getElem? found)) call
    refine inv.of_rest (by rw [phase]; rfl) rfl rfl ?_
    rw [phase]
    exact rest
  | targetsDone phase none =>
    refine inv.of_rest (by rw [phase]; rfl) rfl rfl ?_
    rw [phase]
    exact rest_targetsDone dist none
  | @construct t i curr tData _ now _ phase found below =>
    have rest : (Phase.issue t i curr).rest dist th s.rngEngine = _ :=
      rest_construct dist found below
    rw [← phase] at rest
    refine inv.of_initial (by rw [phase]; rfl) rfl ?_ (congrArg Prod.snd rest).symm
    rw [rest]
    show (s.issued ++ [_]).map _ ++ _ = _
    rw [List.map_append, List.append_assoc]
    rfl
  | overlapDone phase found atEnd =>
    refine inv.of_rest (by rw [phase]; rfl) rfl rfl ?_
    rw [phase]
    exact rest_overlapDone dist found atEnd
  | @advance t i curr offset tData state phase found call =>
    rw [phase] at inOverlap
    have below : i.toNat < tData.target.overlap.toNat := inOverlap tData found
    have rest := rest_nextOffset dist found (random tData (List.mem_of_getElem? found)) below call
    refine inv.of_rest (by rw [phase]; rfl) rfl rfl ?_
    rw [phase]
    exact rest
  | submit phase =>
    obtain ⟨drawn, engine⟩ := inv.initial (by rw [phase]; rfl)
    rw [phase] at drawn engine
    have whole := (List.append_nil s.drawn).symm.trans drawn
    exact drawInv_afterSubmit [] (whole.trans (List.append_nil _).symm) engine _
  | leave phase => exact inv.of_later (by rw [phase]; rfl) rfl rfl (nomatch ·)
  | throttle => exact inv
  | waitLast phase => exact inv.of_later (by rw [phase]; rfl) rfl rfl (nomatch ·)
  | fail phase => exact inv.of_later (by rw [phase]; rfl) rfl rfl (nomatch ·)
  | @complete _ round _ _ flight op tData offset state phase _ _ _ found _ _ _ _ done call =>
    have draw := draw_of_next dist found (random tData (List.mem_of_getElem? found)) call
    change th.draw dist (getTargetData op) s.rngEngine = (offset, state.rngEngine) at draw
    obtain ⟨_, _, _, rfl⟩ := ThreadState.record_frame done
    obtain ⟨targets, drawn, engine⟩ := inv.later (by rw [phase]; rfl)
    have before := engine phase
    rw [before] at draw
    refine drawInv_afterSubmit (targets ++ [getTargetData op]) ?_ ?_ _
    · rw [Draws.values_concat, draw, ← List.append_assoc, ← drawn]
      show (s.issued ++ [_]).map _ = s.drawn ++ [_]
      rw [List.map_append]
      rfl
    · rw [Draws.values_concat, draw]
      rfl

omit [IAsyncIop Op] in
/-- What the thread has issued replays its initialisation. -/
theorem DrawInv.replays (inv : DrawInv dist th start s) :
    Draws.Replays (th.draw dist) (initialIssues dist th th.targets.length 0 start).1
      (initialIssues dist th th.targets.length 0 start).2 s.drawn := by
  cases phase : s.phase.initialising with
  | true =>
    refine ⟨[], ?_⟩
    rw [Draws.values, List.append_nil, ← (inv.initial phase).1]
    exact List.prefix_append _ _
  | false =>
    obtain ⟨targets, drawn, _⟩ := inv.later phase
    exact ⟨targets, drawn ▸ List.prefix_refl _⟩

/-- **Along a run from a given engine.** -/
theorem drawInv_run [LawfulIop Op] {targets : List Target} {params : List ThreadParams} {n : Nat}
    (isThread : params[n]? = some th)
    (random : ∀ tData ∈ th.targets, tData.target.useRandomAlignment = true)
    {first last : JobState Op Engine} {labels : List Nat}
    (isInit : (jobSystem Op dist targets params).init first)
    (engine : (first.threads n).rngEngine = start)
    (run : Run (jobSystem Op dist targets params) first labels last) :
    DrawInv dist th start (last.threads n) ∧
      ∀ issue ∈ (last.threads n).issued, issue.target < th.targets.length := by
  obtain ⟨rngEngine, same⟩ := isInit.2 n th isThread
  have isStart : first.threads n = .initial th start := by
    rw [same] at engine ⊢
    exact congrArg (ThreadState.initial th) engine
  let holds : Nat → Int64 → Prop := fun t _ => t < th.targets.length
  have invs := run.invariant (H := fun state => Linked th (state.threads n) ∧
    DepthInv th (state.threads n) ∧ DrawInv dist th start (state.threads n) ∧
    OffsetsSatisfy holds (state.threads n)) ?_ ?_
  · exact ⟨invs.2.2.1, invs.2.2.2.issued⟩
  · rw [isStart]
    exact ⟨linked_initial start, depthInv_initial start, drawInv_initial,
      offsetsSatisfy_initial start⟩
  · rintro state other next before ⟨th', interlocked, thread, isOther, step, rfl⟩
    by_cases here : n = other
    · subst here
      rw [isThread, Option.some.injEq] at isOther
      subst isOther
      simp only [Function.update_self]
      obtain ⟨linked, depth, inv, satisfied⟩ := before
      exact ⟨linked_step linked step, depthInv_step linked depth step,
        drawInv_step random depth.inOverlap inv step, offsetsSatisfy_step satisfied
          (fun _ _ found _ _ _ => (List.getElem?_eq_some_iff.mp found).1)
          (fun _ _ found _ _ _ _ _ => (List.getElem?_eq_some_iff.mp found).1) step⟩
    · simp only [Function.update_of_ne here]
      exact before

end Invariant

/-! ### Two runs -/

section Runs

variable {Op Engine : Type}

/-- The offsets the thread has issued to its target with an index. -/
def ThreadState.offsetsTo (s : ThreadState Op Engine) (t : Nat) : List Int64 :=
  (s.issued.filter fun issue => issue.target == t).map (·.offset)

/-- One of the two states has issued the same offsets to each target as the other, up to where it
is. -/
def SameStreams (s s' : ThreadState Op Engine) : Prop :=
  ∀ t, s.offsetsTo t <+: s'.offsetsTo t ∨ s'.offsetsTo t <+: s.offsetsTo t

/-- The thread's first issues have the same offsets, as long as they go to the same targets. -/
def SameWhileTogether (s s' : ThreadState Op Engine) : Prop :=
  ∀ k, (s.issued.take k).map (·.target) = (s'.issued.take k).map (·.target) →
    (s.issued.take k).map (·.offset) = (s'.issued.take k).map (·.offset)

/-- **Two runs from one seed**, as the job starts its threads: any orders and times of completions, any
choices of reads and writes. -/
def Reproducible (job : JobOptions) (params : List ThreadParams) (n : Nat)
    (same : ∀ {Op Engine : Type}, ThreadState Op Engine → ThreadState Op Engine → Prop) : Prop :=
  ∀ (Engine : Type) (dist : UniformInt Engine) (seeded : UInt64 → Engine)
    (first first' last last' : JobState job.ioManager.Op Engine) (labels labels' : List Nat),
    job.Starts dist seeded params first → job.Starts dist seeded params first' →
    Run (job.system dist params) first labels last →
    Run (job.system dist params) first' labels' last' →
    same (last.threads n) (last'.threads n)

theorem DrawInv.sameWhileTogether {dist : UniformInt Engine} {th : ThreadParams} {start : Engine}
    {s s' : ThreadState Op Engine} (inv : DrawInv dist th start s)
    (inv' : DrawInv dist th start s') : SameWhileTogether s s' := by
  intro k targets
  have keys : ∀ s : ThreadState Op Engine,
      (s.drawn.take k).map Prod.fst = (s.issued.take k).map (·.target) := by
    intro s
    unfold ThreadState.drawn
    rw [← List.map_take, List.map_map]
    rfl
  have values : ∀ s : ThreadState Op Engine,
      (s.drawn.take k).map Prod.snd = (s.issued.take k).map (·.offset) := by
    intro s
    unfold ThreadState.drawn
    rw [← List.map_take, List.map_map]
    rfl
  have same : s.drawn.take k = s'.drawn.take k :=
    inv.replays.take_eq inv'.replays (by rw [keys, keys, targets])
  rw [← values, ← values, same]

theorem offsetsTo_eq (s : ThreadState Op Engine) (t : Nat) :
    s.offsetsTo t = (s.drawn.filter fun drawn => drawn.1 == t).map Prod.snd := by
  unfold ThreadState.offsetsTo ThreadState.drawn
  rw [List.filter_map, List.map_map]
  rfl

/-- What is issued to each target is in what is issued. -/
theorem offsetsTo_isPrefix {s s' : ThreadState Op Engine} (isPrefix : s.drawn <+: s'.drawn) (t : Nat) :
    s.offsetsTo t <+: s'.offsetsTo t := by
  rw [offsetsTo_eq, offsetsTo_eq]
  exact (isPrefix.filter _).map _

/-- A thread with one target issues to that one only. -/
theorem DrawInv.sameStreams {dist : UniformInt Engine} {th : ThreadParams} {start : Engine}
    {s s' : ThreadState Op Engine} (one : th.targets.length ≤ 1) (inv : DrawInv dist th start s)
    (inv' : DrawInv dist th start s') (inTargets : ∀ issue ∈ s.issued, issue.target < th.targets.length)
    (inTargets' : ∀ issue ∈ s'.issued, issue.target < th.targets.length) : SameStreams s s' := by
  let k := min s.drawn.length s'.drawn.length
  have single : ∀ s : ThreadState Op Engine, k ≤ s.drawn.length →
      (∀ issue ∈ s.issued, issue.target < th.targets.length) →
      (s.drawn.take k).map Prod.fst = List.replicate k 0 := by
    intro s upTo inTargets
    rw [List.eq_replicate_iff, List.length_map, List.length_take]
    refine ⟨Nat.min_eq_left upTo, fun t member => ?_⟩
    obtain ⟨drawn, isDrawn, rfl⟩ := List.mem_map.mp member
    obtain ⟨issue, isIssue, rfl⟩ := List.mem_map.mp (List.mem_of_mem_take isDrawn)
    have := inTargets issue isIssue
    dsimp only
    omega
  have same : s.drawn.take k = s'.drawn.take k := inv.replays.take_eq inv'.replays (by
    rw [single s (Nat.min_le_left _ _) inTargets, single s' (Nat.min_le_right _ _) inTargets'])
  intro t
  rcases Nat.le_total s.drawn.length s'.drawn.length with le | le
  · have all : k = s.drawn.length := Nat.min_eq_left le
    rw [all, List.take_length] at same
    exact Or.inl (offsetsTo_isPrefix (List.prefix_iff_eq_take.mpr same) t)
  · have all : k = s'.drawn.length := Nat.min_eq_right le
    rw [all, List.take_length] at same
    exact Or.inr (offsetsTo_isPrefix (List.prefix_iff_eq_take.mpr same.symm) t)

end Runs

/-- **Random offsets are reproducible up to the order of the targets.** From one seed a thread with
random targets issues the same offsets in two runs, as long as it issues them to the same targets; with
one target it issues the same offsets in any case. -/
theorem reproducible (job : JobOptions) (params : List ThreadParams) {n : Nat} {th : ThreadParams}
    (isThread : params[n]? = some th) (seed : job.useTimeSeed = false)
    (random : ∀ tData ∈ th.targets, tData.target.useRandomAlignment = true) :
    Reproducible job params n SameWhileTogether ∧
      (th.targets.length ≤ 1 → Reproducible job params n SameStreams) := by
  constructor
  · intro Engine dist seeded first first' last last' labels labels' starts starts' run run'
    have inv := (drawInv_run isThread random starts.1 (starts.2 seed n th isThread) run).1
    have inv' := (drawInv_run isThread random starts'.1 (starts'.2 seed n th isThread) run').1
    exact inv.sameWhileTogether inv'
  · intro one Engine dist seeded first first' last last' labels labels' starts starts' run run'
    obtain ⟨inv, inTargets⟩ :=
      drawInv_run isThread random starts.1 (starts.2 seed n th isThread) run
    obtain ⟨inv', inTargets'⟩ :=
      drawInv_run isThread random starts'.1 (starts'.2 seed n th isThread) run'
    exact inv.sameStreams one inv' inTargets inTargets'

/-! ### Two targets -/

/-- `-F1 -o1 -r f g` -/
def twoRandomCalls : List (Key × Option CString) :=
  [(.option 'F', some "1".toList), (.option 'o', some "1".toList), (.option 'r', none),
    (.keyArg, some "f".toList), (.keyArg, some "g".toList)]

def randomTarget (path : CString) : Target where
  path := path
  size := 1048576
  maxSize := 1048576
  overlap := 1
  useRandomAlignment := true
  threadsPerTarget := 0

def twoRandomJob : JobOptions where
  totalThreads := 1
  useTotalThreads := true
  targets := [randomTarget "f".toList, randomTarget "g".toList]

def randomData (path : CString) (targetIndex : Nat) : TargetData where
  target := randomTarget path
  targetIndex := targetIndex
  fd := 3
  buffer := 65536
  writeBuffer := 0

def twoRandomThread : ThreadParams where
  threadId := 0
  targets := [randomData "f".toList 0, randomData "g".toList 1]

/-- A lawful distribution whose engine counts its draws. -/
def countedValue : UniformInt Int32 := fun a b engine =>
  (if a ≤ engine ∧ engine ≤ b then engine else a, engine + 1)

section TwoRandom

/-- What holds of the thread with two targets on the way. -/
def TwoRandomInv (s : ThreadState KernelAsyncIop Int32) : Prop :=
  Linked twoRandomThread s ∧ DepthInv twoRandomThread s ∧ DrawInv countedValue twoRandomThread 0 s

theorem twoRandom_random :
    ∀ tData ∈ twoRandomThread.targets, tData.target.useRandomAlignment = true := by
  intro tData member
  rcases List.mem_cons.mp member with rfl | member
  · rfl
  · rw [List.mem_singleton.mp member]
    rfl

theorem twoRandom_can : ∀ tData ∈ twoRandomThread.targets, tData.target.CanIssue := by
  intro tData member _
  rcases List.mem_cons.mp member with rfl | member
  · decide
  · rw [List.mem_singleton.mp member]
    decide

theorem twoRandomInv_run {first last : Interlocked × ThreadState KernelAsyncIop Int32}
    (run : ThreadRun KernelAsyncIop countedValue twoRandomThread first last)
    (before : TwoRandomInv first.2) : TwoRandomInv last.2 := by
  refine threadRun_invariant (fun shared s shared' s' before step => ?_) run before
  obtain ⟨linked, depth, inv⟩ := before
  exact ⟨linked_step linked step, depthInv_step linked depth step,
    drawInv_step twoRandom_random depth.inOverlap inv step⟩

/-- The thread gets to its work loop, with one operation on each target. -/
theorem twoRandom_works (shared : Interlocked) :
    ∃ (shared' : Interlocked) (s : ThreadState KernelAsyncIop Int32),
      ThreadRun KernelAsyncIop countedValue twoRandomThread
        (shared, .initial twoRandomThread 0) (shared', s) ∧
      s.phase = .work ∧ s.issued.map (·.target) = [0, 1] := by
  have f : twoRandomThread.targets[0]? = some (randomData "f".toList 0) := rfl
  have g : twoRandomThread.targets[1]? = some (randomData "g".toList 1) := rfl
  obtain ⟨shared', s', new, run, phase, grown, target, count, _⟩ := run_target countedValue f
    (twoRandom_can _ (List.mem_of_getElem? f)) shared
    (.initial twoRandomThread 0 : ThreadState KernelAsyncIop Int32) rfl
  obtain ⟨shared'', s'', more, run', phase', grown', target', count', _⟩ := run_target countedValue g
    (twoRandom_can _ (List.mem_of_getElem? g)) shared' s' phase
  obtain ⟨first, rfl⟩ := List.length_eq_one_iff.mp count
  obtain ⟨second, rfl⟩ := List.length_eq_one_iff.mp count'
  refine ⟨shared'', s''.submit, (run.trans run').trans (run_submit shared'' s'' phase'), rfl, ?_⟩
  show s''.issued.map _ = _
  rw [grown'.issued, grown.issued]
  show [first.target, second.target] = _
  rw [target first (List.mem_singleton.mpr rfl), target' second (List.mem_singleton.mpr rfl)]

/-- The operation of either target can complete. -/
theorem twoRandom_completes (shared : Interlocked) {s : ThreadState KernelAsyncIop Int32}
    (inv : TwoRandomInv s) (phase : s.phase = .work) {t : Nat} {tData : TargetData}
    (found : twoRandomThread.targets[t]? = some tData) :
    ∃ (shared' : Interlocked) (s' : ThreadState KernelAsyncIop Int32),
      ThreadRun KernelAsyncIop countedValue twoRandomThread (shared, s) (shared', s') ∧
      s'.phase = .work ∧ s'.issued.map (·.target) = s.issued.map (·.target) ++ [t] := by
  obtain ⟨linked, depth, _⟩ := inv
  have random : ∃ path, tData.target = randomTarget path := by
    rcases List.mem_cons.mp (List.mem_of_getElem? found) with rfl | member
    · exact ⟨_, rfl⟩
    · rw [List.mem_singleton.mp member]
      exact ⟨_, rfl⟩
  obtain ⟨path, isRandom⟩ := random
  have one := atHead_of_inv linked depth phase found
  rw [isRandom] at one
  have some : 0 < s.inFlight.countP fun flight => flight.target == t := by
    rw [one]
    show 0 < (1 : UInt32).toNat
    decide
  obtain ⟨flight, inFlight, isTarget⟩ := List.countP_pos_iff.mp some
  obtain rfl := eq_of_beq isTarget
  obtain ⟨shared', s', issue, step, phase', grows, target, _⟩ := run_complete countedValue shared
    linked phase inFlight found (twoRandom_can _ (List.mem_of_getElem? found)) (by
      rw [isRandom]
      show (64 * 1024 : UInt64).toNat < 2 ^ 31
      decide)
  refine ⟨shared', s', threadRun_step step, phase', ?_⟩
  rw [grows, List.map_append, ← target]
  rfl

/-- What the thread has issued in its work loop is what its engine gives for the targets. -/
theorem twoRandom_drawn {s : ThreadState KernelAsyncIop Int32} (inv : TwoRandomInv s)
    (phase : s.phase = .work) {targets : List Nat}
    (issued : s.issued.map (·.target) = [0, 1] ++ targets) :
    s.drawn = [(0, 0), (1, 131072)] ++
      (Draws.values (twoRandomThread.draw countedValue) targets 4).1 := by
  obtain ⟨keys, drawn, _⟩ := inv.2.2.later (by rw [phase]; rfl)
  have initialised : initialIssues countedValue twoRandomThread 2 0 0 =
    ([(0, 0), (1, 131072)], 4) := by decide
  have whole : s.drawn = [(0, 0), (1, 131072)] ++
      (Draws.values (twoRandomThread.draw countedValue) keys 4).1 := by
    rw [drawn]
    show (initialIssues countedValue twoRandomThread 2 0 0).1 ++ (Draws.values _ _
      (initialIssues countedValue twoRandomThread 2 0 0).2).1 = _
    rw [initialised]
  have same : s.drawn.map Prod.fst = s.issued.map (·.target) := List.map_map
  rw [whole, List.map_append, Draws.keys_values, issued] at same
  rw [whole, List.append_cancel_left same]

/-- The first of two orders of completion: the operation on `f`. The second: the one on `g`, then the
one on `f`. -/
theorem twoRandom_orders (first : JobState KernelAsyncIop Int32)
    (start : first.threads 0 = .initial twoRandomThread 0) :
    ∃ (last last' : JobState KernelAsyncIop Int32) (labels labels' : List Nat),
      Run (jobSystem KernelAsyncIop countedValue twoRandomJob.targets [twoRandomThread]) first labels
        last ∧
      Run (jobSystem KernelAsyncIop countedValue twoRandomJob.targets [twoRandomThread]) first labels'
        last' ∧
      (last.threads 0).drawn = [(0, 0), (1, 131072), (0, 262144)] ∧
      (last'.threads 0).drawn = [(0, 0), (1, 131072), (1, 262144), (0, 327680)] := by
  have isThread : [twoRandomThread][0]? = some twoRandomThread := rfl
  have f : twoRandomThread.targets[0]? = some (randomData "f".toList 0) := rfl
  have g : twoRandomThread.targets[1]? = some (randomData "g".toList 1) := rfl
  obtain ⟨shared, s, works, phase, issued⟩ := twoRandom_works first.interlocked
  have inv : TwoRandomInv s := twoRandomInv_run works
    ⟨linked_initial 0, depthInv_initial 0, drawInv_initial⟩
  obtain ⟨sharedF, afterF, completesF, phaseF, issuedF⟩ := twoRandom_completes shared inv phase f
  obtain ⟨sharedG, afterG, completesG, phaseG, issuedG⟩ := twoRandom_completes shared inv phase g
  obtain ⟨sharedFG, afterFG, completesFG, phaseFG, issuedFG⟩ :=
    twoRandom_completes sharedG (twoRandomInv_run completesG inv) phaseG f
  rw [← start] at works
  obtain ⟨labels, run⟩ := threadRun_run twoRandomJob.targets first isThread
    (works.trans completesF)
  obtain ⟨labels', run'⟩ := threadRun_run twoRandomJob.targets first isThread
    (works.trans (completesG.trans completesFG))
  refine ⟨_, _, labels, labels', run, run', ?_, ?_⟩
  · simp only [Function.update_self]
    rw [twoRandom_drawn (twoRandomInv_run completesF inv) phaseF (issuedF.trans (by rw [issued]))]
    decide
  · simp only [Function.update_self]
    have both : afterFG.issued.map (·.target) = [0, 1] ++ [1, 0] := by
      rw [issuedFG, issuedG, issued]
      rfl
    rw [twoRandom_drawn (twoRandomInv_run (completesG.trans completesFG) inv) phaseFG both]
    decide

end TwoRandom

/-- On two files of 1 MiB, the second offset of `f` is the fifth number or the sixth. -/
theorem twoRandomJob_not_reproducible :
    parseCommandLine twoRandomCalls (fun _ => .file 1048576) = .ok twoRandomJob ∧
      twoRandomJob.createThreads (fun _ _ => ⟨3, 65536, 0⟩) = some [twoRandomThread] ∧
      twoRandomJob.useTimeSeed = false ∧
      ¬ Reproducible twoRandomJob [twoRandomThread] 0 SameStreams := by
  refine ⟨rfl, rfl, rfl, fun reproducible => ?_⟩
  obtain ⟨first, isInit, initial⟩ := exists_initial KernelAsyncIop countedValue twoRandomJob.targets
    [twoRandomThread] 0
  have start := initial 0 twoRandomThread rfl
  obtain ⟨last, last', labels, labels', run, run', drawn, drawn'⟩ := twoRandom_orders first start
  have starts : twoRandomJob.Starts countedValue (fun _ => 0) [twoRandomThread] first := by
    refine ⟨isInit, fun _ n th isThread => ?_⟩
    rw [initial n th isThread]
    obtain rfl := List.mem_singleton.mp (List.mem_of_getElem? isThread)
    rfl
  have streams : SameStreams (last.threads 0) (last'.threads 0) :=
    reproducible Int32 countedValue (fun _ => 0) first first last last' labels labels' starts starts
      run run'
  have stream := streams 0
  rw [offsetsTo_eq, offsetsTo_eq, drawn, drawn'] at stream
  exact absurd stream (by decide)

/-- `-r f` -/
def oneRandomJob : JobOptions where
  totalThreads := 1
  targets := [{ randomTarget "f".toList with overlap := 2, threadsPerTarget := 1 }]

def oneRandomThread : ThreadParams where
  threadId := 0
  targets := [{ randomData "f".toList 0 with
    target := { randomTarget "f".toList with overlap := 2, threadsPerTarget := 1 } }]

theorem oneRandomJob_reproducible :
    parseCommandLine [(.option 'r', none), (.keyArg, some "f".toList)] (fun _ => .file 1048576) =
        .ok oneRandomJob ∧
      oneRandomJob.createThreads (fun _ _ => ⟨3, 65536, 0⟩) = some [oneRandomThread] ∧
      Reproducible oneRandomJob [oneRandomThread] 0 SameWhileTogether ∧
      Reproducible oneRandomJob [oneRandomThread] 0 SameStreams := by
  have isThread : [oneRandomThread][0]? = some oneRandomThread := rfl
  have random : ∀ tData ∈ oneRandomThread.targets, tData.target.useRandomAlignment = true := by
    intro tData member
    obtain rfl := List.mem_singleton.mp member
    rfl
  obtain ⟨together, one⟩ := reproducible oneRandomJob [oneRandomThread] isThread rfl random
  exact ⟨rfl, rfl, together, one le_rfl⟩

end DiskSpd
