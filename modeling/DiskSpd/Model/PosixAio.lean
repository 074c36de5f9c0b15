/-
**The POSIX engine** (`_PosixAsyncIOManager` in `posix_aio.cc`).

* `PosixPc`, `PosixGroup` — where the thread of a group is inside the engine, and what the engine keeps
  for the group. An `aiocb` is named by the operation that owns it.
* `PosixState` — the heap, which control blocks are in progress, the groups, and the map of flight ids
  and the counter that all groups share.
* `enqueue`, `start`, `register`, `scan`, `take` — what the calls do between two points where another
  thread can come in; `advance` puts them in program order.
* `posixSystem` — any interleaving of the threads, while requests complete in any order.
-/

import DiskSpd.Lib.IdPool
import DiskSpd.Lib.Transition
import DiskSpd.Model.AsyncIo

namespace DiskSpd

open IdPool

/-- Where a thread is inside the engine. -/
inductive PosixPc where
  | idle
  | submitting                              -- while (queue->size())
  | registering (op : Nat)                  -- suspend_in_flight_mutex.lock(), in submit
  | suspending                              -- aio_suspend
  | scanning (place : Nat)                  -- for (auto it = vec->cbegin(); it != vec->cend(); )
  | taking (cb : Nat) (flightId : UInt32)   -- suspend_in_flight_mutex.lock(), in wait
  | noCompletedIops                         -- exit(1)
  | suspendError                            -- exit(1)
  deriving DecidableEq, Repr

structure PosixGroup where
  pc : PosixPc := .idle
  queue : List Nat := []
  suspendVec : List Nat := []
  /-- the operations that `aio_read` and `aio_write` have accepted, in order -/
  accepted : List Nat := []
  /-- what `submit` and `wait` have returned, in order -/
  submitted : List Int32 := []
  returned : List (Option Nat) := []

namespace PosixGroup

variable (group : PosixGroup)

/-- The control blocks that `aio_suspend` gets; their number is converted to `int`. -/
def listed : List Nat :=
  group.suspendVec.take (Int32.ofNat group.suspendVec.length).toInt.toNat

/-- The operations in flight: those in the vector, and the one `wait` is about to return. -/
def flying : List Nat :=
  match group.pc with
  | .taking cb _ => cb :: group.suspendVec
  | _ => group.suspendVec

end PosixGroup

structure PosixState where
  ops : Nat → PosixAsyncIop
  inProgress : Nat → Bool := fun _ => false   -- aio_error(&op->cb) == EINPROGRESS
  groups : Int32 → PosixGroup := fun _ => {}
  suspendInFlight : AList (fun _ : UInt32 => Nat) := ∅
  nextFlightId : UInt32 := 0

namespace PosixState

variable (s : PosixState) (g : Int32)

def setGroup (group : PosixGroup) : PosixState :=
  { s with groups := Function.update s.groups g group }

def goto (pc : PosixPc) : PosixState :=
  s.setGroup g { s.groups g with pc := pc }

/-- `group_queues[a->group_id]->push_back(a)` -/
def enqueue (op : Nat) : PosixState :=
  let group := s.groups (s.ops op).groupId
  s.setGroup (s.ops op).groupId { group with queue := group.queue ++ [op] }

/-- A round of the loop of `submit` up to its critical section, where `aio_read` or `aio_write` returns
`ret`. -/
def start (ret : Int32) : PosixState :=
  let group := s.groups g
  match group.queue.getLast? with
  | none => s.setGroup g { group with submitted := group.submitted ++ [0], pc := .idle }
  | some op =>
    let group := { group with queue := group.queue.dropLast }
    if ret ≠ 0 then
      s.setGroup g { group with submitted := group.submitted ++ [ret], pc := .idle }
    else
      { s.setGroup g { group with
          suspendVec := group.suspendVec ++ [op]
          accepted := group.accepted ++ [op]
          pc := .registering op } with
        inProgress := Function.update s.inProgress op true }

/-- The critical section of `submit`. -/
def register (op : Nat) : Option PosixState :=
  (findFree (· + 1) s.suspendInFlight.keys (s.suspendInFlight.keys.length + 1)
    s.nextFlightId).map fun id => { s.goto g .submitting with
      ops := Function.update s.ops op { s.ops op with
        cb := { (s.ops op).cb with sivalInt := id.toInt32 } }
      suspendInFlight := s.suspendInFlight.insert id op
      nextFlightId := id + 1 }

/-- The flight id that `wait` reads from a control block. -/
def flightId (cb : Nat) : UInt32 :=
  (s.ops cb).cb.sivalInt.toUInt32

/-- A round of the loop of `wait`. -/
def scan (place : Nat) : PosixState :=
  let group := s.groups g
  match group.suspendVec[place]? with
  | none => s.goto g .noCompletedIops
  | some cb =>
    if s.inProgress cb then s.goto g (.scanning (place + 1))
    else s.setGroup g { group with
      suspendVec := group.suspendVec.eraseIdx place
      pc := .taking cb (s.flightId cb) }

/-- The critical section of `wait`, and its return. -/
def take (flightId : UInt32) : PosixState :=
  let group := s.groups g
  { s.setGroup g { group with
      returned := group.returned ++ [s.suspendInFlight.lookup flightId]
      pc := .idle } with
    suspendInFlight := s.suspendInFlight.erase flightId }

/-- What the thread of a group does next, where a system call of this step returns `ret`. -/
def advance (ret : Int32) : Option PosixState :=
  match (s.groups g).pc with
  | .submitting => some (s.start g ret)
  | .registering op => s.register g op
  | .suspending => some (s.goto g (if ret ≠ 0 then .suspendError else .scanning 0))
  | .scanning place => some (s.scan g place)
  | .taking _ flightId => some (s.take g flightId)
  | _ => none

/-- The loop of `submit`, without other threads, where the system calls return `rets` one after the
other: its return value. -/
def submit : List Int32 → PosixState → Option (Int32 × PosixState)
  | [], _ => none
  | ret :: rets, s =>
    let next := s.start g ret
    match (next.groups g).pc with
    | .registering op => (next.register g op).bind (submit rets)
    | _ => (next.groups g).submitted.getLast?.map fun ret => (ret, next)

/-- The operation is neither queued nor in flight. -/
def Idle (op : Nat) : Prop :=
  ∀ g, op ∉ (s.groups g).queue ∧ op ∉ (s.groups g).flying

end PosixState

inductive PosixCall where
  | enqueue (op : Nat)
  | submit (g : Int32)
  | wait (g : Int32)
  | advance (g : Int32) (ret : Int32)
  /-- a request is no longer in progress -/
  | complete (op : Nat)
  /-- the owner of an idle operation sets its fields -/
  | set (op : Nat) (fields : PosixAsyncIop)

/-- **The steps of the threads and of the kernel.** `aio_suspend` returns 0 only when one of the control
blocks it got is no longer in progress. -/
inductive PosixStep (s : PosixState) : PosixCall → PosixState → Prop
  | enqueue {op : Nat} : s.Idle op → (s.groups (s.ops op).groupId).pc = .idle →
      PosixStep s (.enqueue op) (s.enqueue op)
  | submit {g : Int32} :
      (s.groups g).pc = .idle → PosixStep s (.submit g) (s.goto g .submitting)
  | wait {g : Int32} :
      (s.groups g).pc = .idle → PosixStep s (.wait g) (s.goto g .suspending)
  | advance {g ret : Int32} {next : PosixState} :
      ((s.groups g).pc = .suspending → ret = 0 → ∃ cb ∈ (s.groups g).listed, s.inProgress cb = false) →
      s.advance g ret = some next → PosixStep s (.advance g ret) next
  | complete {op : Nat} :
      PosixStep s (.complete op) { s with inProgress := Function.update s.inProgress op false }
  | set {op : Nat} {fields : PosixAsyncIop} : s.Idle op →
      PosixStep s (.set op fields) { s with ops := Function.update s.ops op fields }

def posixSystem : Transition.System PosixState PosixCall where
  init s := ∃ ops, s = { ops }
  step := PosixStep

end DiskSpd
