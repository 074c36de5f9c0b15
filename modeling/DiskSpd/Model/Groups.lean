/-
**The groups of an engine and their locks** (`create_group` and the look-ups of a group in
`kernel_aio.cc` and `posix_aio.cc`).

* `GroupMap` — a `std::map` from group ids to shared pointers. `GroupMap.subscript` is its `operator[]`,
  which adds a null pointer for an id that is not there.
* `KernelGroups`, `PosixGroups` — the maps, the mutexes, and where each thread is. A mutex is locked and
  unlocked by the functions as they go; `none` is a call that waits for one.
* `kernelGroupSystem`, `posixGroupSystem` — any threads calling `create_group`, `enqueue`, `submit` and
  `wait` with any ids. What a call does with its group once it has it is one step without a lock,
  which a null pointer never takes.
-/

import DiskSpd.Lib.Transition
import Mathlib.Logic.Function.Basic

namespace DiskSpd

/-- `std::map<int, std::shared_ptr<T>>`: absent ids, null pointers, and objects. -/
abbrev GroupMap := Int32 → Option (Option Nat)

namespace GroupMap

variable (groups : GroupMap) (g : Int32)

/-- `groups.count(g)` -/
def contains : Bool := (groups g).isSome

/-- `groups[g]`, and the map with the entry it may have added. -/
def subscript : Option Nat × GroupMap :=
  match groups g with
  | some pointer => (pointer, groups)
  | none => (none, Function.update groups g (some none))

/-- `groups[g] = std::make_shared<T>()` -/
def assign (object : Nat) : GroupMap :=
  Function.update groups g (some (some object))

end GroupMap

/-- `lock()` on a mutex; `none` while it is locked. -/
def lock (mutex : Bool) : Option Bool :=
  if mutex then none else some true

/-- A call of `create_group` that has returned false: the maps when it came in and when it left. -/
structure FailedCreate (Maps : Type) where
  before : Maps
  after : Maps

/-! ### libaio -/

/-- Where a thread is: outside, or in a call with the pointer it looked up. -/
inductive GroupPc where
  | idle
  | using (pointer : Option Nat)
  deriving DecidableEq, Repr

structure KernelGroups where
  groups : GroupMap := fun _ => none
  ctx : Nat → UInt64 := fun _ => 0      -- the context of each group object
  groupsMutex : Bool := false
  pc : Nat → GroupPc := fun _ => .idle
  failed : List (FailedCreate GroupMap) := []

namespace KernelGroups

variable (s : KernelGroups) (g : Int32)

/-- `create_group`, where `io_queue_init` returns `err` and sets the context: its return value. A failed
`assert(groups[group_id]->ctx)` is `none` too. -/
def createGroup (object : Nat) (err : Int32) (context : UInt64) : Option (Bool × KernelGroups) := do
  let locked ← lock s.groupsMutex
  if s.groups.contains g then
    some (false, { s with groupsMutex := locked })
  else
    let groups := s.groups.assign g object
    if err ≠ 0 then
      some (false, { s with groups := groups, groupsMutex := locked })
    else if context = 0 then none
    else
      some (true, { s with
        groups := groups
        ctx := Function.update s.ctx object context
        groupsMutex := false })

/-- The look-up of the group in `enqueue`, `submit` and `wait`. -/
def find : Option (Option Nat × KernelGroups) := do
  let _ ← lock s.groupsMutex
  let (pointer, groups) := s.groups.subscript g
  some (pointer, { s with groups := groups, groupsMutex := false })

end KernelGroups

inductive KernelGroupCall where
  | create (thread : Nat) (g : Int32) (object : Nat) (err : Int32) (context : UInt64)
  /-- the look-up of `enqueue`, `submit` or `wait` -/
  | find (thread : Nat) (g : Int32)
  | finish (thread : Nat)

inductive KernelGroupStep (s : KernelGroups) : KernelGroupCall → KernelGroups → Prop
  | created {thread : Nat} {g : Int32} {object : Nat} {err : Int32} {context : UInt64}
      {next : KernelGroups} :
      s.pc thread = .idle → s.createGroup g object err context = some (true, next) →
      KernelGroupStep s (.create thread g object err context) next
  | failed {thread : Nat} {g : Int32} {object : Nat} {err : Int32} {context : UInt64}
      {next : KernelGroups} :
      s.pc thread = .idle → s.createGroup g object err context = some (false, next) →
      KernelGroupStep s (.create thread g object err context)
        { next with failed := s.failed ++ [⟨s.groups, next.groups⟩] }
  | find {thread : Nat} {g : Int32} {pointer : Option Nat} {next : KernelGroups} :
      s.pc thread = .idle → s.find g = some (pointer, next) →
      KernelGroupStep s (.find thread g)
        { next with pc := Function.update s.pc thread (.using pointer) }
  | finish {thread object : Nat} :
      s.pc thread = .using (some object) →
      KernelGroupStep s (.finish thread) { s with pc := Function.update s.pc thread .idle }

def kernelGroupSystem : Transition.System KernelGroups KernelGroupCall where
  init s := s = {}
  step := KernelGroupStep

/-! ### POSIX aio -/

/-- Where a thread is. In `create_group` it is between the two maps, with the maps at its start; in
`submit` it is between them with the queue it looked up; `using` it has all it needs. -/
inductive PosixGroupPc where
  | idle
  | creating (g : Int32) (before : GroupMap × GroupMap)
  | submitting (g : Int32) (queue : Option Nat)
  | using (queue vec : Option Nat)
  | waiting (vec : Option Nat)

structure PosixGroups where
  groupQueues : GroupMap := fun _ => none
  suspendVecs : GroupMap := fun _ => none
  groupQueuesMutex : Bool := false
  suspendMutex : Bool := false
  suspendInFlightMutex : Bool := false
  pc : Nat → PosixGroupPc := fun _ => .idle
  failed : List (FailedCreate (GroupMap × GroupMap)) := []

namespace PosixGroups

variable (s : PosixGroups) (g : Int32)

/-- The first half of `create_group`: whether it goes on. -/
def createQueue (object : Nat) : Option (Bool × PosixGroups) := do
  let _ ← lock s.groupQueuesMutex
  if s.groupQueues.contains g then
    some (false, { s with groupQueuesMutex := false })
  else
    some (true, { s with groupQueues := s.groupQueues.assign g object, groupQueuesMutex := false })

/-- The second half of `create_group`: its return value. -/
def createVec (object : Nat) : Option (Bool × PosixGroups) := do
  let _ ← lock s.suspendMutex
  if s.suspendVecs.contains g then
    some (false, { s with suspendMutex := false })
  else
    some (true, { s with suspendVecs := s.suspendVecs.assign g object, suspendMutex := false })

/-- `enqueue`: the look-up and the `push_back`, which a null pointer does not survive. -/
def enqueue : Option PosixGroups := do
  let _ ← lock s.groupQueuesMutex
  let (pointer, groupQueues) := s.groupQueues.subscript g
  let _ ← pointer
  some { s with groupQueues := groupQueues, groupQueuesMutex := false }

/-- The look-up of the queue in `submit`. -/
def findQueue : Option (Option Nat × PosixGroups) := do
  let _ ← lock s.groupQueuesMutex
  let (pointer, groupQueues) := s.groupQueues.subscript g
  some (pointer, { s with groupQueues := groupQueues, groupQueuesMutex := false })

/-- The look-up of the vector in `submit` and `wait`. -/
def findVec : Option (Option Nat × PosixGroups) := do
  let _ ← lock s.suspendMutex
  let (pointer, suspendVecs) := s.suspendVecs.subscript g
  some (pointer, { s with suspendVecs := suspendVecs, suspendMutex := false })

/-- The section of `submit` and `wait` under `suspend_in_flight_mutex`. -/
def inFlightSection : Option PosixGroups := do
  let _ ← lock s.suspendInFlightMutex
  some { s with suspendInFlightMutex := false }

def goto (thread : Nat) (pc : PosixGroupPc) : PosixGroups :=
  { s with pc := Function.update s.pc thread pc }

def fail (before : GroupMap × GroupMap) : PosixGroups :=
  { s with failed := s.failed ++ [⟨before, (s.groupQueues, s.suspendVecs)⟩] }

end PosixGroups

inductive PosixGroupCall where
  | create (thread : Nat) (g : Int32) (object : Nat)
  | createVec (thread : Nat) (object : Nat)
  | enqueue (thread : Nat) (g : Int32)
  | submit (thread : Nat) (g : Int32)
  | submitVec (thread : Nat) (g : Int32)
  | wait (thread : Nat) (g : Int32)
  | inFlight (thread : Nat)
  | finish (thread : Nat)

inductive PosixGroupStep (s : PosixGroups) : PosixGroupCall → PosixGroups → Prop
  | createQueue {thread : Nat} {g : Int32} {object : Nat} {next : PosixGroups} :
      s.pc thread = .idle → s.createQueue g object = some (true, next) →
      PosixGroupStep s (.create thread g object)
        (next.goto thread (.creating g (s.groupQueues, s.suspendVecs)))
  | queueExists {thread : Nat} {g : Int32} {object : Nat} {next : PosixGroups} :
      s.pc thread = .idle → s.createQueue g object = some (false, next) →
      PosixGroupStep s (.create thread g object) (next.fail (s.groupQueues, s.suspendVecs))
  | created {thread : Nat} {g : Int32} {object : Nat} {before : GroupMap × GroupMap}
      {next : PosixGroups} :
      s.pc thread = .creating g before → s.createVec g object = some (true, next) →
      PosixGroupStep s (.createVec thread object) (next.goto thread .idle)
  | vecExists {thread : Nat} {g : Int32} {object : Nat} {before : GroupMap × GroupMap}
      {next : PosixGroups} :
      s.pc thread = .creating g before → s.createVec g object = some (false, next) →
      PosixGroupStep s (.createVec thread object) ((next.fail before).goto thread .idle)
  | enqueue {thread : Nat} {g : Int32} {next : PosixGroups} :
      s.pc thread = .idle → s.enqueue g = some next → PosixGroupStep s (.enqueue thread g) next
  | submit {thread : Nat} {g : Int32} {queue : Option Nat} {next : PosixGroups} :
      s.pc thread = .idle → s.findQueue g = some (queue, next) →
      PosixGroupStep s (.submit thread g) (next.goto thread (.submitting g queue))
  | submitVec {thread : Nat} {g : Int32} {queue vec : Option Nat} {next : PosixGroups} :
      s.pc thread = .submitting g queue → s.findVec g = some (vec, next) →
      PosixGroupStep s (.submitVec thread g) (next.goto thread (.using queue vec))
  | wait {thread : Nat} {g : Int32} {vec : Option Nat} {next : PosixGroups} :
      s.pc thread = .idle → s.findVec g = some (vec, next) →
      PosixGroupStep s (.wait thread g) (next.goto thread (.waiting vec))
  | inFlight {thread object : Nat} {pointer : Option Nat} {next : PosixGroups} :
      s.pc thread = .using (some object) pointer ∨ s.pc thread = .waiting (some object) →
      s.inFlightSection = some next → PosixGroupStep s (.inFlight thread) next
  | finish {thread object : Nat} {pointer : Option Nat} :
      s.pc thread = .using (some object) pointer ∨ s.pc thread = .waiting (some object) →
      PosixGroupStep s (.finish thread) (s.goto thread .idle)

def posixGroupSystem : Transition.System PosixGroups PosixGroupCall where
  init s := s = {}
  step := PosixGroupStep

end DiskSpd
