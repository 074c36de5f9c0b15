/-
**The libaio engine** (`_KernelAsyncIOManager` in `kernel_aio.cc`).

* `CbArray`, `Group` — an array of control blocks with the count of its unfinished requests, and what
  the engine keeps for a group. Operations and arrays are named by their place in the heap.
* `KernelRequest` — what the kernel holds for a control block it accepted: the context it is for, the
  operation it belongs to and the copy of its `data` field.
* `enqueue`, `submit`, `complete` — the three calls. `none` is a search for an id that does not end, or
  a lookup of an unknown one.
* `kernelSystem` — any sequence of calls on any number of groups, while `io_submit` accepts everything
  and `io_getevents` returns the accepted requests in any order; in `kernelFaultSystem` it may fail.

The set `arrays` of a group is left out: the code erases from it but never inserts.
-/

import DiskSpd.Lib.IdPool
import DiskSpd.Lib.Transition
import DiskSpd.Model.AsyncIo

namespace DiskSpd

open IdPool

structure CbArray where
  size : Nat
  array : List Nat      -- the operations whose control blocks it points to
  itemsLeft : Nat
  /-- how often `free(array->array)` has been called -/
  frees : Nat := 0
  deriving DecidableEq, Repr

structure Group where
  opQueue : List Nat := []
  inFlight : AList (fun _ : UInt64 => Nat) := ∅
  nextFlight : UInt64 := 0

/-- A control block the kernel has accepted. -/
structure KernelRequest where
  group : Int32
  op : Nat
  data : UInt64
  /-- which of all accepted requests it is -/
  submission : Nat
  deriving DecidableEq, Repr

structure KernelState where
  ops : Nat → KernelAsyncIop
  arrays : List CbArray := []
  groups : Int32 → Group := fun _ => {}
  /-- the requests accepted and not yet returned -/
  held : List KernelRequest := []
  /-- every request the kernel has accepted, in order -/
  accepted : List KernelRequest := []
  /-- every request whose completion `wait` has taken, with the operation that `wait` returned -/
  returned : List KernelRequest := []

namespace KernelState

variable (s : KernelState)

/-- `group->op_queue.push_back(a)` -/
def enqueue (op : Nat) : KernelState :=
  let id := (s.ops op).groupId
  let group := s.groups id
  { s with groups := Function.update s.groups id { group with opQueue := group.opQueue ++ [op] } }

/-- What the loop of `submit` changes. -/
structure Filling where
  ops : Nat → KernelAsyncIop
  inFlight : AList (fun _ : UInt64 => Nat)
  nextFlight : UInt64
  array : List Nat := []

/-- A round of the loop over `op_queue`: the operation gets its array and a unique id. -/
def fill (array : Nat) (filling : Filling) (op : Nat) : Option Filling :=
  (findFree (· + 1) filling.inFlight.keys (filling.inFlight.keys.length + 1)
    filling.nextFlight).map fun id =>
      { ops := Function.update filling.ops op { filling.ops op with
          cbArray := some array
          cb := { (filling.ops op).cb with data := id } }
        inFlight := filling.inFlight.insert id op
        nextFlight := id + 1
        array := filling.array ++ [op] }

/-- The requests the kernel makes of the first control blocks of an array. -/
def requests (groupId : Int32) (ops : Nat → KernelAsyncIop) (array : List Nat) :
    List KernelRequest :=
  (array.zipIdx s.accepted.length).map fun (op, submission) =>
    { group := groupId, op := op, data := (ops op).cb.data, submission := submission }

/-- `submit`, where `io_submit` returns `err` after it accepted that many control blocks, and
`cancelled` tells which calls of `io_cancel` succeed. -/
def submit (groupId : Int32) (err : Int32) (cancelled : Nat → Bool) :
    Option (Int32 × KernelState) := do
  let group := s.groups groupId
  let size := group.opQueue.length
  let filled ← group.opQueue.foldlM (fill s.arrays.length)
    { ops := s.ops, inFlight := group.inFlight, nextFlight := group.nextFlight }
  let array : CbArray := { size := size, array := filled.array, itemsLeft := size }
  let requests := s.requests groupId filled.ops (filled.array.take err.toInt.toNat)
  let left := { s with ops := filled.ops, accepted := s.accepted ++ requests }
  if err.toInt ≠ size then
    let inFlight := filled.array.foldl (fun pool op => pool.erase (filled.ops op).cb.data)
      filled.inFlight
    let kept := (requests.zipIdx.filter fun request => !cancelled request.2).map (·.1)
    some (err, { left with
      arrays := s.arrays ++ [{ array with frees := 1 }]
      groups := Function.update s.groups groupId
        { group with inFlight := inFlight, nextFlight := filled.nextFlight }
      held := s.held ++ kept })
  else
    some (0, { left with
      arrays := s.arrays ++ [array]
      groups := Function.update s.groups groupId
        { opQueue := [], inFlight := filled.inFlight, nextFlight := filled.nextFlight }
      held := s.held ++ requests })

/-- The array after one more of its requests has finished. -/
def finishOne (array : CbArray) : CbArray :=
  { array with
    itemsLeft := array.itemsLeft - 1
    frees := if array.itemsLeft - 1 = 0 then array.frees + 1 else array.frees }

/-- `wait` on an event: the operation it returns. -/
def complete (groupId : Int32) (data : UInt64) (res : Int64) : Option (Nat × KernelState) := do
  let group := s.groups groupId
  let op ← group.inFlight.lookup data
  let a ← (s.ops op).cbArray
  let array ← s.arrays[a]?
  some (op, { s with
    ops := Function.update s.ops op { s.ops op with result := res.toInt32 }
    arrays := s.arrays.set a (finishOne array)
    groups := Function.update s.groups groupId
      { group with inFlight := group.inFlight.erase data } })

/-- The operation is neither queued nor in flight. -/
def Idle (op : Nat) : Prop :=
  ∀ groupId, op ∉ (s.groups groupId).opQueue ∧
    ∀ data, (s.groups groupId).inFlight.lookup data ≠ some op

end KernelState

inductive KernelCall where
  | enqueue (op : Nat)
  | submit (groupId : Int32) (err : Int32)
  | wait (request : KernelRequest) (res : Int64) (op : Nat)
  /-- the owner of an idle operation sets its fields -/
  | set (op : Nat) (fields : KernelAsyncIop)

/-- **The calls on the engine**, one after the other, when `io_submit` accepts every control block. -/
inductive KernelStep (s : KernelState) : KernelCall → KernelState → Prop
  | enqueue {op : Nat} : s.Idle op → KernelStep s (.enqueue op) (s.enqueue op)
  | submit {groupId err : Int32} {cancelled : Nat → Bool} {ret : Int32} {next : KernelState} :
      err.toInt = (s.groups groupId).opQueue.length →
      s.submit groupId err cancelled = some (ret, next) → KernelStep s (.submit groupId err) next
  | wait {request : KernelRequest} {before after : List KernelRequest} {res : Int64} {op : Nat}
      {next : KernelState} :
      s.held = before ++ request :: after →
      s.complete request.group request.data res = some (op, next) →
      KernelStep s (.wait request res op)
        { next with
          held := before ++ after
          returned := s.returned ++ [{ request with op := op }] }
  | set {op : Nat} {fields : KernelAsyncIop} :
      s.Idle op → fields.cb.data = (s.ops op).cb.data → fields.cbArray = (s.ops op).cbArray →
      fields.result = (s.ops op).result →
      KernelStep s (.set op fields) { s with ops := Function.update s.ops op fields }

def kernelSystem : Transition.System KernelState KernelCall where
  init s := ∃ ops, s = { ops }
  step := KernelStep

/-- **The calls when `io_submit` may fail**: it may also accept fewer control blocks, or return an
error, and each `io_cancel` may fail. -/
inductive KernelFaultStep (s : KernelState) : KernelCall → KernelState → Prop
  | call {call : KernelCall} {next : KernelState} :
      KernelStep s call next → KernelFaultStep s call next
  | fail {groupId err : Int32} {cancelled : Nat → Bool} {ret : Int32} {next : KernelState} :
      err.toInt < (s.groups groupId).opQueue.length →
      s.submit groupId err cancelled = some (ret, next) →
      KernelFaultStep s (.submit groupId err) next

def kernelFaultSystem : Transition.System KernelState KernelCall where
  init s := ∃ ops, s = { ops }
  step := KernelFaultStep

end DiskSpd
