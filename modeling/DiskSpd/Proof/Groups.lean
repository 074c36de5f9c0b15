/-
**When creating a group is atomic.**

* `KernelGroups.Sound`, `PosixGroups.Sound` — every mutex is unlocked, each `create_group` that has returned
  false left the maps as it found them, and a call on a group that exists can look it up.
* `kernelSound_step_iff` — the libaio engine stays sound exactly as long as no `create_group` fails, since it
  then returns with its mutex locked.
* `PosixGroupInv` — in the POSIX engine a group that is being created is in the first map, and not in the
  second as long as nobody looks up a vector that is not there.
* `groupCreation_sound` — both engines are sound in every run whose steps meet their condition.
-/

import DiskSpd.Model.Groups

namespace DiskSpd

open Transition

/-- A critical section that is entered found the mutex unlocked. -/
theorem lock_bind_eq_some {β : Type} {mutex : Bool} {body : Bool → Option β} {result : β}
    (done : (lock mutex).bind body = some result) : mutex = false ∧ body true = some result := by
  cases mutex with
  | false => exact ⟨rfl, done⟩
  | true => cases done

namespace GroupMap

variable {groups : GroupMap} {g g' : Int32}

/-- A look-up of a group that is there changes nothing. -/
theorem subscript_of_contains (there : groups.contains g = true) :
    ∃ pointer, groups g = some pointer ∧ groups.subscript g = (pointer, groups) := by
  obtain ⟨pointer, found⟩ := Option.isSome_iff_exists.mp there
  refine ⟨pointer, found, ?_⟩
  unfold subscript
  rw [found]

theorem subscript_contains (there : groups.contains g' = true) :
    (groups.subscript g).2.contains g' = true := by
  unfold subscript
  split
  · exact there
  · show (Function.update groups g (some none) g').isSome = true
    by_cases here : g' = g
    · rw [here, Function.update_self]
      rfl
    · rw [Function.update_of_ne here]
      exact there

theorem assign_contains {object : Nat} :
    (groups.assign g object).contains g' = true ↔ g' = g ∨ groups.contains g' = true := by
  unfold assign contains
  by_cases here : g' = g
  · rw [here, Function.update_self]
    exact iff_of_true rfl (Or.inl rfl)
  · rw [Function.update_of_ne here]
    exact (or_iff_right here).symm

end GroupMap

/-! ### libaio -/

/-- **The engine is sound.** -/
structure KernelGroups.Sound (s : KernelGroups) : Prop where
  unlocked : s.groupsMutex = false
  failed : ∀ call ∈ s.failed, call.before = call.after
  calls : ∀ g object, s.groups g = some (some object) → s.find g = some (some object, s)

/-- The call is no `create_group` that fails: the id is new and `io_queue_init` returns 0. -/
def KernelGroupCall.Succeeds (s : KernelGroups) : KernelGroupCall → Prop
  | .create _ g _ err _ => s.groups.contains g = false ∧ err = 0
  | _ => True

section Kernel

variable {s next : KernelGroups} {call : KernelGroupCall}

theorem KernelGroups.find_some {g : Int32} {pointer : Option Nat} (done : s.find g = some (pointer, next)) :
    s.groupsMutex = false ∧ pointer = (s.groups.subscript g).1 ∧
      next = { s with groups := (s.groups.subscript g).2 } := by
  unfold KernelGroups.find at done
  obtain ⟨free, done⟩ := lock_bind_eq_some done
  cases done
  refine ⟨free, rfl, ?_⟩
  rw [free]
  rfl

/-- With the mutex unlocked, a call on a group that exists can look it up. -/
theorem KernelGroups.sound_of_unlocked (free : s.groupsMutex = false)
    (failed : ∀ call ∈ s.failed, call.before = call.after) : s.Sound := by
  refine ⟨free, failed, fun g object there => ?_⟩
  unfold KernelGroups.find GroupMap.subscript lock
  rw [free, there]
  show some (some object, { s with groupsMutex := false }) = _
  rw [← free]

/-- **`create_group`**: it succeeds and unlocks, or it fails and does not. -/
theorem KernelGroups.createGroup_some {g : Int32} {object : Nat} {err : Int32} {context : UInt64}
    {ret : Bool} (done : s.createGroup g object err context = some (ret, next)) :
    s.groupsMutex = false ∧
      (ret = true ∧ s.groups.contains g = false ∧ err = 0 ∧ next.groupsMutex = false ∧
          next.failed = s.failed ∨
        ret = false ∧ ¬ (s.groups.contains g = false ∧ err = 0) ∧ next.groupsMutex = true) := by
  unfold KernelGroups.createGroup at done
  obtain ⟨free, done⟩ := lock_bind_eq_some done
  refine ⟨free, ?_⟩
  dsimp only at done
  split_ifs at done with there failed null
  · cases done
    refine Or.inr ⟨rfl, fun both => ?_, rfl⟩
    rw [there] at both
    cases both.1
  · cases done
    exact Or.inr ⟨rfl, fun both => failed both.2, rfl⟩
  · cases done
    exact Or.inl ⟨rfl, Bool.eq_false_iff.mpr there, not_not.mp failed, rfl, rfl⟩

/-- **A step keeps the engine sound if and only if it is no failing `create_group`.** -/
theorem kernelSound_step_iff (sound : s.Sound) (step : KernelGroupStep s call next) :
    next.Sound ↔ call.Succeeds s := by
  cases step with
  | created _ done =>
    obtain ⟨_, ⟨_, new, success, unlocked, failed⟩ | ⟨no, _⟩⟩ := KernelGroups.createGroup_some done
    · exact iff_of_true (KernelGroups.sound_of_unlocked unlocked (failed ▸ sound.failed)) ⟨new, success⟩
    · cases no
  | failed _ done =>
    obtain ⟨_, ⟨no, _⟩ | ⟨_, fails, locked⟩⟩ := KernelGroups.createGroup_some done
    · cases no
    · refine iff_of_false (fun isSound => ?_) fails
      have free := isSound.unlocked
      dsimp only at free
      rw [locked] at free
      cases free
  | find _ done =>
    obtain ⟨free, _, rfl⟩ := KernelGroups.find_some done
    exact iff_of_true (KernelGroups.sound_of_unlocked free sound.failed) trivial
  | finish _ => exact iff_of_true (KernelGroups.sound_of_unlocked sound.unlocked sound.failed) trivial

theorem kernelSound_initial : ({} : KernelGroups).Sound where
  unlocked := rfl
  failed _ member := by cases member
  calls _ _ there := by cases there

/-- A failing `create_group` returns with the mutex locked. -/
theorem kernelFails_locks (fails : ¬ call.Succeeds s) (step : KernelGroupStep s call next) :
    next.groupsMutex = true := by
  cases step with
  | created _ done =>
    obtain ⟨_, ⟨_, new, success, _⟩ | ⟨no, _⟩⟩ := KernelGroups.createGroup_some done
    · exact absurd ⟨new, success⟩ fails
    · cases no
  | failed _ done =>
    obtain ⟨_, ⟨no, _⟩ | ⟨_, _, locked⟩⟩ := KernelGroups.createGroup_some done
    · cases no
    · exact locked
  | find _ _ => exact absurd trivial fails
  | finish _ => exact absurd trivial fails

theorem kernelLocked_step (locked : s.groupsMutex = true) (step : KernelGroupStep s call next) :
    next.groupsMutex = true := by
  have held : ∀ {mutex : Bool}, mutex = false → s.groupsMutex = mutex → False := fun no same => by
    rw [no, locked] at same
    cases same
  cases step with
  | created _ done => exact (held (KernelGroups.createGroup_some done).1 rfl).elim
  | failed _ done => exact (held (KernelGroups.createGroup_some done).1 rfl).elim
  | find _ done => exact (held (KernelGroups.find_some done).1 rfl).elim
  | finish _ => exact locked

/-- **After a failing `create_group` nobody gets the mutex any more.** -/
theorem kernelLocked_run {calls : List KernelGroupCall} (locked : s.groupsMutex = true)
    (run : Run kernelGroupSystem s calls next) : next.groupsMutex = true :=
  run.invariant locked fun _ _ _ locked step => kernelLocked_step locked step

end Kernel

/-! ### POSIX aio -/

/-- **The engine is sound.** -/
structure PosixGroups.Sound (s : PosixGroups) : Prop where
  queuesUnlocked : s.groupQueuesMutex = false
  suspendUnlocked : s.suspendMutex = false
  inFlightUnlocked : s.suspendInFlightMutex = false
  failed : ∀ call ∈ s.failed, call.before = call.after
  queueCalls : ∀ g object, s.groupQueues g = some (some object) →
    s.findQueue g = some (some object, s)
  vecCalls : ∀ g object, s.suspendVecs g = some (some object) → s.findVec g = some (some object, s)

/-- The call looks up no vector of a group that does not exist. -/
def PosixGroupCall.Exists (s : PosixGroups) : PosixGroupCall → Prop
  | .submitVec _ g | .wait _ g => s.suspendVecs.contains g = true
  | _ => True

section Posix

variable {s next : PosixGroups} {call : PosixGroupCall} {g : Int32} {object : Nat} {ret : Bool}

namespace PosixGroups

theorem createQueue_some (done : s.createQueue g object = some (ret, next)) :
    s.groupQueues.contains g = !ret ∧
      next = { s with
        groupQueues := if ret then s.groupQueues.assign g object else s.groupQueues } := by
  unfold createQueue at done
  obtain ⟨free, done⟩ := lock_bind_eq_some done
  split_ifs at done with there
  · cases done
    refine ⟨there, ?_⟩
    rw [free]
    rfl
  · cases done
    refine ⟨Bool.eq_false_iff.mpr there, ?_⟩
    rw [free]
    rfl

theorem createVec_some (done : s.createVec g object = some (ret, next)) :
    s.suspendVecs.contains g = !ret ∧
      next = { s with
        suspendVecs := if ret then s.suspendVecs.assign g object else s.suspendVecs } := by
  unfold createVec at done
  obtain ⟨free, done⟩ := lock_bind_eq_some done
  split_ifs at done with there
  · cases done
    refine ⟨there, ?_⟩
    rw [free]
    rfl
  · cases done
    refine ⟨Bool.eq_false_iff.mpr there, ?_⟩
    rw [free]
    rfl

theorem enqueue_some (done : s.enqueue g = some next) :
    next = { s with groupQueues := (s.groupQueues.subscript g).2 } := by
  unfold enqueue at done
  obtain ⟨free, done⟩ := lock_bind_eq_some done
  obtain ⟨_, _, done⟩ := Option.bind_eq_some_iff.mp done
  cases done
  rw [free]
  rfl

theorem findQueue_some {pointer : Option Nat} (done : s.findQueue g = some (pointer, next)) :
    next = { s with groupQueues := (s.groupQueues.subscript g).2 } := by
  unfold findQueue at done
  obtain ⟨free, done⟩ := lock_bind_eq_some done
  cases done
  rw [free]
  rfl

theorem findVec_some {pointer : Option Nat} (done : s.findVec g = some (pointer, next)) :
    next = { s with suspendVecs := (s.suspendVecs.subscript g).2 } := by
  unfold findVec at done
  obtain ⟨free, done⟩ := lock_bind_eq_some done
  cases done
  rw [free]
  rfl

theorem inFlightSection_some (done : s.inFlightSection = some next) : next = s := by
  unfold inFlightSection at done
  obtain ⟨free, done⟩ := lock_bind_eq_some done
  cases done
  rw [← free]

end PosixGroups

/-- **The invariant of the two maps.** -/
structure PosixGroupInv (s : PosixGroups) : Prop where
  unlocked : s.groupQueuesMutex = false ∧ s.suspendMutex = false ∧ s.suspendInFlightMutex = false
  failed : ∀ call ∈ s.failed, call.before = call.after
  vecs : ∀ g, s.suspendVecs.contains g = true → s.groupQueues.contains g = true
  creating : ∀ thread g before, s.pc thread = .creating g before →
    s.groupQueues.contains g = true ∧ s.suspendVecs.contains g = false
  distinct : ∀ thread thread' g before before', s.pc thread = .creating g before →
    s.pc thread' = .creating g before' → thread = thread'

namespace PosixGroupInv

/-- With the mutexes unlocked, a call on a group that exists can look it up. -/
theorem sound (inv : PosixGroupInv s) : s.Sound := by
  obtain ⟨free, freeVecs, freeFlights⟩ := inv.unlocked
  refine ⟨free, freeVecs, freeFlights, inv.failed, fun g object there => ?_, fun g object there => ?_⟩
  · unfold PosixGroups.findQueue GroupMap.subscript lock
    rw [free, there]
    show some (some object, { s with groupQueuesMutex := false }) = _
    rw [← free]
  · unfold PosixGroups.findVec GroupMap.subscript lock
    rw [freeVecs, there]
    show some (some object, { s with suspendMutex := false }) = _
    rw [← freeVecs]

/-- A thread goes on to something other than the second half of `create_group`. -/
theorem goto (inv : PosixGroupInv s) (thread : Nat) {pc : PosixGroupPc}
    (other : ∀ g before, pc ≠ .creating g before) : PosixGroupInv (s.goto thread pc) := by
  have old : ∀ thread' g before, Function.update s.pc thread pc thread' = .creating g before →
      s.pc thread' = .creating g before := by
    intro thread' g before same
    by_cases here : thread' = thread
    · rw [here, Function.update_self] at same
      exact absurd same (other g before)
    · rwa [Function.update_of_ne here] at same
  exact ⟨inv.unlocked, inv.failed, inv.vecs,
    fun t g before here => inv.creating t g before (old t g before here),
    fun t t' g b b' first second => inv.distinct t t' g b b' (old t g b first) (old t' g b' second)⟩

/-- A look-up of a queue may add an entry to the first map. -/
theorem subscriptQueue (inv : PosixGroupInv s) (g : Int32) :
    PosixGroupInv { s with groupQueues := (s.groupQueues.subscript g).2 } := by
  refine ⟨inv.unlocked, inv.failed, fun g' there => ?_, fun thread g' before here => ?_, inv.distinct⟩
  · exact GroupMap.subscript_contains (inv.vecs g' there)
  · obtain ⟨queue, vec⟩ := inv.creating thread g' before here
    exact ⟨GroupMap.subscript_contains queue, vec⟩

/-- A look-up of a vector that is there changes nothing. -/
theorem subscriptVec (inv : PosixGroupInv s) (there : s.suspendVecs.contains g = true) :
    PosixGroupInv { s with suspendVecs := (s.suspendVecs.subscript g).2 } := by
  obtain ⟨pointer, _, same⟩ := GroupMap.subscript_of_contains there
  rw [same]
  exact inv

/-- The first half of `create_group` adds the group to the first map. -/
theorem createQueue (inv : PosixGroupInv s) {thread : Nat}
    (new : s.groupQueues.contains g = false) (before : GroupMap × GroupMap) :
    PosixGroupInv (({ s with groupQueues := s.groupQueues.assign g object } : PosixGroups).goto thread
      (.creating g before)) := by
  have notVec : s.suspendVecs.contains g = false := Bool.eq_false_iff.mpr fun there => by
    rw [inv.vecs g there] at new
    cases new
  have notCreating : ∀ thread' g' before', s.pc thread' = .creating g' before' → g' ≠ g := by
    rintro thread' g' before' here rfl
    rw [(inv.creating thread' g' before' here).1] at new
    cases new
  refine ⟨inv.unlocked, inv.failed, fun g' there => ?_, fun thread' g' before' here => ?_,
    fun t t' g' b b' first second => ?_⟩
  · exact GroupMap.assign_contains.mpr (Or.inr (inv.vecs g' there))
  · show (s.groupQueues.assign g object).contains g' = true ∧ s.suspendVecs.contains g' = false
    by_cases same : thread' = thread
    · have same' : PosixGroupPc.creating g before = .creating g' before' := by
        rw [← here, same]
        exact (Function.update_self thread _ s.pc).symm
      cases same'
      exact ⟨GroupMap.assign_contains.mpr (Or.inl rfl), notVec⟩
    · have old : s.pc thread' = .creating g' before' := by
        rw [← here]
        exact (Function.update_of_ne same _ s.pc).symm
      obtain ⟨queue, vec⟩ := inv.creating thread' g' before' old
      exact ⟨GroupMap.assign_contains.mpr (Or.inr queue), vec⟩
  · have known : ∀ t b, (Function.update s.pc thread (.creating g before)) t = .creating g' b →
        t ≠ thread → s.pc t = .creating g' b := fun t b here ne => by
      rwa [Function.update_of_ne ne] at here
    have isNew : ∀ b, (Function.update s.pc thread (.creating g before)) thread = .creating g' b →
        g' = g := fun b here => by
      rw [Function.update_self] at here
      cases here
      rfl
    by_cases one : t = thread <;> by_cases two : t' = thread
    · rw [one, two]
    · subst one
      exact absurd (isNew b first) (notCreating t' g' b' (known t' b' second two))
    · subst two
      exact absurd (isNew b' second) (notCreating t g' b (known t b first one))
    · exact inv.distinct t t' g' b b' (known t b first one) (known t' b' second two)

/-- The second half of `create_group` adds the group to the second map. -/
theorem createVec (inv : PosixGroupInv s) {thread : Nat} {before : GroupMap × GroupMap}
    (here : s.pc thread = .creating g before) :
    PosixGroupInv (({ s with suspendVecs := s.suspendVecs.assign g object } : PosixGroups).goto thread
      .idle) := by
  have old : ∀ thread' g' before',
      Function.update s.pc thread .idle thread' = PosixGroupPc.creating g' before' →
      thread' ≠ thread ∧ s.pc thread' = .creating g' before' := by
    intro thread' g' before' same
    by_cases isThread : thread' = thread
    · rw [isThread, Function.update_self] at same
      cases same
    · rw [Function.update_of_ne isThread] at same
      exact ⟨isThread, same⟩
  obtain ⟨queue, _⟩ := inv.creating thread g before here
  refine ⟨inv.unlocked, inv.failed, fun g' there => ?_, fun thread' g' before' isCreating => ?_,
    fun t t' g' b b' first second =>
      inv.distinct t t' g' b b' (old t g' b first).2 (old t' g' b' second).2⟩
  · rcases GroupMap.assign_contains.mp there with rfl | there
    · exact queue
    · exact inv.vecs g' there
  · obtain ⟨other, was⟩ := old thread' g' before' isCreating
    obtain ⟨queue', vec'⟩ := inv.creating thread' g' before' was
    refine ⟨queue', Bool.eq_false_iff.mpr fun there => ?_⟩
    rcases GroupMap.assign_contains.mp there with rfl | there
    · exact other (inv.distinct thread' thread g' before' before was here)
    · rw [vec'] at there
      cases there

/-- **Each step whose call looks up an existing vector keeps the invariant.** -/
theorem step (inv : PosixGroupInv s) (there : call.Exists s) (step : PosixGroupStep s call next) :
    PosixGroupInv next := by
  cases step with
  | createQueue _ done =>
    obtain ⟨new, rfl⟩ := PosixGroups.createQueue_some done
    exact inv.createQueue new _
  | queueExists _ done =>
    obtain ⟨_, rfl⟩ := PosixGroups.createQueue_some done
    refine ⟨inv.unlocked, fun call member => ?_, inv.vecs, inv.creating, inv.distinct⟩
    rcases List.mem_append.mp member with old | new
    · exact inv.failed call old
    · rw [List.mem_singleton.mp new]
      rfl
  | created here done =>
    obtain ⟨_, rfl⟩ := PosixGroups.createVec_some done
    exact inv.createVec here
  | vecExists here done =>
    obtain ⟨exists_, _⟩ := PosixGroups.createVec_some done
    rw [(inv.creating _ _ _ here).2] at exists_
    cases exists_
  | enqueue _ done =>
    rw [PosixGroups.enqueue_some done]
    exact inv.subscriptQueue _
  | submit _ done =>
    rw [PosixGroups.findQueue_some done]
    exact (inv.subscriptQueue _).goto _ fun _ _ same => by cases same
  | submitVec _ done =>
    rw [PosixGroups.findVec_some done]
    exact (inv.subscriptVec there).goto _ fun _ _ same => by cases same
  | wait _ done =>
    rw [PosixGroups.findVec_some done]
    exact (inv.subscriptVec there).goto _ fun _ _ same => by cases same
  | inFlight _ done =>
    rw [PosixGroups.inFlightSection_some done]
    exact inv
  | finish _ => exact inv.goto _ fun _ _ same => by cases same

end PosixGroupInv

theorem posixGroupInv_initial : PosixGroupInv {} where
  unlocked := ⟨rfl, rfl, rfl⟩
  failed _ member := by cases member
  vecs _ there := by cases there
  creating _ _ _ here := by cases here
  distinct _ _ _ _ _ here := by cases here

end Posix

/-- **When creating a group is atomic and leaves no lock behind.** In the libaio engine: exactly as long
as no `create_group` fails, and never again after that. In the POSIX engine: as long as `submit` and
`wait` are called for groups that exist. -/
theorem groupCreation_sound (kernel : KernelGroups) (posix : PosixGroups) :
    ((Reachable (kernelGroupSystem.where fun s call => call.Succeeds s) kernel → kernel.Sound) ∧
      ∀ call next, kernel.Sound → kernelGroupSystem.step kernel call next →
        ¬ call.Succeeds kernel → ¬ next.Sound ∧
          ∀ calls later, Run kernelGroupSystem next calls later →
            later.groupsMutex = true ∧ ¬ later.Sound) ∧
    (Reachable (posixGroupSystem.where fun s call => call.Exists s) posix → posix.Sound) := by
  refine ⟨⟨fun reached => ?_, fun call next sound step fails => ?_⟩, fun reached => ?_⟩
  · refine reached.invariant (fun first isInit => ?_) fun s call next sound step => ?_
    · rw [show first = {} from isInit]
      exact kernelSound_initial
    · exact (kernelSound_step_iff sound step.2).mpr step.1
  · have notSound : ¬ next.Sound := fun isSound => fails ((kernelSound_step_iff sound step).mp isSound)
    have locked := kernelFails_locks fails step
    refine ⟨notSound, fun calls later run => ?_⟩
    have stays := kernelLocked_run locked run
    refine ⟨stays, fun isSound => ?_⟩
    rw [isSound.unlocked] at stays
    cases stays
  · refine PosixGroupInv.sound (reached.invariant (fun first isInit => ?_) fun s call next inv step => ?_)
    · rw [show first = {} from isInit]
      exact posixGroupInv_initial
    · exact inv.step step.1 step.2

/-! ### Group 0 -/

/-- Both engines are sound once group 0 has been created. -/
theorem groupZero_sound : (∃ s : KernelGroups, s.groups 0 = some (some 0) ∧ s.Sound) ∧
    ∃ s : PosixGroups, s.groupQueues 0 = some (some 0) ∧ s.suspendVecs 0 = some (some 1) ∧
      s.Sound := by
  have kernelStart : Reachable (kernelGroupSystem.where fun s call => call.Succeeds s) {} :=
    .of_init rfl
  have succeeds : (KernelGroupCall.create 0 0 0 0 1).Succeeds {} := ⟨rfl, rfl⟩
  have kernelCreated := kernelStart.step
    ⟨succeeds, @KernelGroupStep.created _ 0 0 0 0 1 _ rfl rfl⟩
  have posixStart : Reachable (posixGroupSystem.where fun s call => call.Exists s) {} := .of_init rfl
  have first : ∀ s, (PosixGroupCall.create 0 0 0).Exists s := fun _ => trivial
  have second : ∀ s, (PosixGroupCall.createVec 0 1).Exists s := fun _ => trivial
  have posixQueue := posixStart.step
    ⟨first _, @PosixGroupStep.createQueue _ 0 0 0 _ rfl rfl⟩
  have posixCreated := posixQueue.step
    ⟨second _, @PosixGroupStep.created _ 0 0 1 _ _ rfl rfl⟩
  obtain ⟨⟨kernelSound, -⟩, posixSound⟩ := groupCreation_sound _ _
  exact ⟨⟨_, rfl, kernelSound kernelCreated⟩, _, rfl, rfl, posixSound posixCreated⟩

/-- **A `create_group` that fails**: in the libaio engine, for a group that exists, it leaves the mutex
locked, so a later call on that group waits for ever; when `io_queue_init` fails the new group stays
besides. In the POSIX engine, after a `wait` for a group that does not exist, it leaves the group in
the first map. -/
theorem failedCreate_not_sound :
    (∃ s, Reachable kernelGroupSystem s ∧ s.groups 0 = some (some 0) ∧ s.groupsMutex = true ∧
      s.find 0 = none ∧ ¬ s.Sound) ∧
    (∃ s call, Reachable kernelGroupSystem s ∧ s.failed = [call] ∧ call.before 0 = none ∧
      call.after 0 = some (some 0) ∧ ¬ s.Sound) ∧
    ∃ s call, Reachable posixGroupSystem s ∧ s.failed = [call] ∧ call.before.1 0 = none ∧
      call.after.1 0 = some (some 0) ∧ ¬ s.Sound := by
  have kernelStart : Reachable kernelGroupSystem {} := .of_init rfl
  have kernelCreated := kernelStart.step (@KernelGroupStep.created _ 0 0 0 0 1 _ rfl rfl)
  have kernelAgain := kernelCreated.step (@KernelGroupStep.failed _ 1 0 1 0 1 _ rfl rfl)
  have kernelFailed := kernelStart.step (@KernelGroupStep.failed _ 0 0 0 (-11) 0 _ rfl rfl)
  have posixStart : Reachable posixGroupSystem {} := .of_init rfl
  have posixWaiting := posixStart.step (@PosixGroupStep.wait _ 1 0 _ _ rfl rfl)
  have posixQueue := posixWaiting.step (@PosixGroupStep.createQueue _ 0 0 0 _ rfl rfl)
  have posixFailed := posixQueue.step (@PosixGroupStep.vecExists _ 0 0 1 _ _ rfl rfl)
  refine ⟨⟨_, kernelAgain, rfl, rfl, rfl, fun sound => ?_⟩,
    ⟨_, _, kernelFailed, rfl, rfl, rfl, fun sound => ?_⟩,
    _, _, posixFailed, rfl, rfl, rfl, fun sound => ?_⟩
  · cases sound.unlocked
  · cases sound.unlocked
  · have same := congrArg (fun maps => maps.1 0) (sound.failed _ List.mem_cons_self)
    cases same

end DiskSpd
