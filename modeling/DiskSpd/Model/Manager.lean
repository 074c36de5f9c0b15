/-
**The interface of an engine** (`IAsyncIOManager` in `async_io.h`, and its two classes).

* `IAsyncIOManager` — the calls of the interface, cut where another thread or the device can come in:
  a call is entered, takes steps inside, and returns.
* `kernelAsyncIOManager`, `posixSuspendAsyncIOManager` — the two classes that forward each call to their
  engine, with what the system calls under it may return.
* `IoEngine.manager` — the engine a job uses.

The threads make each operation under a name of its own: the object is the name, whatever its address.
A call that ends the program with `exit` takes no further step. `start` and `create_group` come before
the calls here.
-/

import DiskSpd.Model.KernelAio
import DiskSpd.Model.PosixAio

namespace DiskSpd

/-- **The calls of an engine** by the threads that share it. -/
structure IAsyncIOManager (Op : Type) where
  State : Type
  init : State → Prop
  /-- the operations, by their names -/
  ops : State → Nat → Op
  /-- the object of a name is made, or its setters are called -/
  store : State → Nat → Op → State
  enqueue : State → Nat → State
  /-- `submit` and `wait` are entered for a group -/
  callSubmit : State → Int32 → State
  callWait : State → Int32 → State
  /-- a step inside a call of the group, which goes on after it -/
  inside : State → Int32 → State → Prop
  submitReturns : State → Int32 → Int32 → State → Prop
  /-- `none` is a null pointer -/
  waitReturns : State → Int32 → Option Nat → State → Prop
  /-- what `get_errno` and `get_ret` say about an operation that `wait` returned -/
  outcome : State → Nat → Int32 → Int32 → Prop
  /-- the device gets on with the requests it has -/
  device : State → State → Prop
  /-- the call of the group has come to an `exit` -/
  exits : State → Int32 → Prop
  /-- the operations whose requests for a group are accepted and not yet returned -/
  requests : State → Int32 → List Nat

/-! ### libaio -/

/-- What `io_submit` may return for an array: the number of control blocks it accepted from the front,
and 0 only for an empty array, or an error. -/
def IoSubmitReturns (size : Nat) (err : Int32) : Prop :=
  err.toInt ≤ size ∧ (err = 0 → size = 0)

/-- The requests of the kernel for the context of a group. -/
def KernelState.requestsFor (s : KernelState) (g : Int32) : List KernelRequest :=
  s.held.filter (·.group = g)

/-- **`wait`** on an event for any request of the group. An id that is not in the map inserts a null
pointer there. -/
inductive KernelWaitReturns (s : KernelState) (g : Int32) : Option Nat → KernelState → Prop
  | found {r : KernelRequest} {before after : List KernelRequest} {res : Int64} {op : Nat}
      {next : KernelState} :
      s.held = before ++ r :: after → r.group = g → s.complete g r.data res = some (op, next) →
      KernelWaitReturns s g (some op)
        { next with
          held := before ++ after
          returned := s.returned ++ [{ r with op := op }] }
  | null {r : KernelRequest} {before after : List KernelRequest} {res : Int64} :
      s.held = before ++ r :: after → r.group = g → s.complete g r.data res = none →
      KernelWaitReturns s g none { s with held := before ++ after }

/-- The calls take no lock across a point where the state of a group can change, so `submit` and `wait`
are one step each. -/
def kernelAsyncIOManager : IAsyncIOManager KernelAsyncIop where
  State := KernelState
  init s := ∃ ops, s = { ops }
  ops := KernelState.ops
  store s n op := { s with ops := Function.update s.ops n op }
  enqueue := KernelState.enqueue
  callSubmit s _ := s
  callWait s _ := s
  inside _ _ _ := False
  submitReturns s g ret next := ∃ err cancelled,
    IoSubmitReturns (s.groups g).opQueue.length err ∧ s.submit g err cancelled = some (ret, next)
  waitReturns := KernelWaitReturns
  outcome s n err ret := err = (s.ops n).err ∧ ret = (s.ops n).result
  device _ _ := False
  exits _ _ := False
  requests s g := (s.requestsFor g).map (·.op)

/-! ### POSIX aio -/

/-- `aio_suspend` returns 0 only when one of the control blocks it got is no longer in progress. -/
def PosixState.SuspendSound (s : PosixState) (g ret : Int32) : Prop :=
  (s.groups g).pc = .suspending → ret = 0 → ∃ cb ∈ (s.groups g).listed, s.inProgress cb = false

def posixSuspendAsyncIOManager : IAsyncIOManager PosixAsyncIop where
  State := PosixState
  init s := ∃ ops, s = { ops }
  ops := PosixState.ops
  store s n op := { s with ops := Function.update s.ops n op }
  enqueue := PosixState.enqueue
  callSubmit s g := s.goto g .submitting
  callWait s g := s.goto g .suspending
  inside s g next := ∃ ret, s.SuspendSound g ret ∧ s.advance g ret = some next ∧
    (next.groups g).pc ≠ .idle
  submitReturns s g ret next := ∃ aioRet, (s.groups g).pc = .submitting ∧
    s.advance g aioRet = some next ∧ (next.groups g).pc = .idle ∧
    (next.groups g).submitted.getLast? = some ret
  waitReturns s g op next := ∃ ret cb flightId, (s.groups g).pc = .taking cb flightId ∧
    s.advance g ret = some next ∧ (next.groups g).returned.getLast? = some op
  -- `aio_error` and `aio_return` of a request that is not in progress
  outcome s n _ _ := s.inProgress n = false
  device s next := ∃ n, next = { s with inProgress := Function.update s.inProgress n false }
  exits s g := (s.groups g).pc = .suspendError ∨ (s.groups g).pc = .noCompletedIops
  requests s g := (s.groups g).flying

/-- The engine a job uses. -/
def IoEngine.manager : (engine : IoEngine) → IAsyncIOManager engine.Op
  | .kernelAio => kernelAsyncIOManager
  | .posixAio => posixSuspendAsyncIOManager

end DiskSpd
