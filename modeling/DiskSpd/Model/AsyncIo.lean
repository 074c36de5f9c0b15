/-
**Operations** (`async_io.h`, the op classes of `kernel_aio.cc` and `posix_aio.cc`).

* `ControlBlock` — what the kernel is asked to do for one flight of an operation.
* `IAsyncIop` — the interface of an operation, with the constructor the manager's `construct`
  calls, and the control block `submit` hands over for it.
* `KernelAsyncIop`, `PosixAsyncIop` — the two implementations.
* `IoEngine.Op` — the operations of the engine a job uses.

The constructor takes the value that memory holds for the field `time`, which no constructor sets.
-/

import DiskSpd.Model.Profile
import DiskSpd.Model.Results

namespace DiskSpd

/-- A request to the kernel: direction, file, buffer, length and offset. -/
structure ControlBlock where
  type : IopType
  fd : Int32
  buf : UInt64
  nbytes : UInt64
  offset : Int64
  deriving DecidableEq, Repr

/-- The arguments of `construct`. -/
structure IopArgs where
  type : IopType
  fd : Int32
  offset : Int64
  readBuf : UInt64
  writeBuf : UInt64
  nbytes : UInt64
  groupId : Int32
  targetData : Nat
  timeStamp : UInt64

/-- `t == READ ? read_buf : write_buf` -/
def IopType.buffer (t : IopType) (readBuf writeBuf : UInt64) : UInt64 :=
  match t with
  | .read => readBuf
  | .write => writeBuf

/-- The interface of an operation. -/
class IAsyncIop (Op : Type) where
  construct : UInt64 → IopArgs → Op
  getType : Op → IopType
  setType : IopType → Op → Op
  getFd : Op → Int32
  setFd : Int32 → Op → Op
  getOffset : Op → Int64
  setOffset : Int64 → Op → Op
  getNbytes : Op → UInt64
  setNbytes : UInt64 → Op → Op
  getGroupId : Op → Int32
  setGroupId : Int32 → Op → Op
  getTime : Op → UInt64
  setTime : UInt64 → Op → Op
  getTargetData : Op → Nat
  setTargetData : Nat → Op → Op
  /-- The request the kernel gets when the operation is submitted. -/
  controlBlock : Op → ControlBlock

/-! ### libaio -/

/-- `IO_CMD_PREAD` and `IO_CMD_PWRITE` -/
inductive Opcode where
  | ioCmdPread
  | ioCmdPwrite
  deriving DecidableEq, Repr

/-- The fields of an `iocb` that the code sets. -/
structure Iocb where
  data : UInt64 := 0
  aioLioOpcode : Opcode
  aioFildes : Int32
  buf : UInt64
  nbytes : UInt64
  offset : Int64
  deriving DecidableEq, Repr

/-- `t == READ ? IO_CMD_PREAD : IO_CMD_PWRITE` -/
def IopType.opcode : IopType → Opcode
  | .read => .ioCmdPread
  | .write => .ioCmdPwrite

/-- What the kernel does for an opcode. -/
def Opcode.type : Opcode → IopType
  | .ioCmdPread => .read
  | .ioCmdPwrite => .write

structure KernelAsyncIop where
  type : IopType := .read
  groupId : Int32 := 0
  cb : Iocb
  err : Int32 := 0
  result : Int32 := 0
  cbArray : Option Nat := none
  targetData : Nat
  time : UInt64
  readBuf : UInt64
  writeBuf : UInt64
  deriving DecidableEq, Repr

/-- The constructor; `io_prep_pread` and `io_prep_pwrite` clear the rest of the `iocb`. -/
def KernelAsyncIop.construct (uninit : UInt64) (args : IopArgs) : KernelAsyncIop where
  type := args.type
  groupId := args.groupId
  cb := {
    aioLioOpcode := args.type.opcode
    aioFildes := args.fd
    buf := args.type.buffer args.readBuf args.writeBuf
    nbytes := args.nbytes
    offset := args.offset }
  targetData := args.targetData
  time := uninit
  readBuf := args.readBuf
  writeBuf := args.writeBuf

instance : IAsyncIop KernelAsyncIop where
  construct := KernelAsyncIop.construct
  getType op := op.type
  setType t op := { op with
    type := t
    cb := { op.cb with aioLioOpcode := t.opcode, buf := t.buffer op.readBuf op.writeBuf } }
  getFd op := op.cb.aioFildes
  setFd fd op := { op with cb := { op.cb with aioFildes := fd } }
  getOffset op := op.cb.offset
  setOffset o op := { op with cb := { op.cb with offset := o } }
  getNbytes op := op.cb.nbytes
  setNbytes n op := { op with cb := { op.cb with nbytes := n } }
  getGroupId op := op.groupId
  setGroupId id op := { op with groupId := id }
  getTime op := op.time
  setTime timeStamp op := { op with time := timeStamp }
  getTargetData op := op.targetData
  setTargetData tData op := { op with targetData := tData }
  controlBlock op := {
    type := op.cb.aioLioOpcode.type
    fd := op.cb.aioFildes
    buf := op.cb.buf
    nbytes := op.cb.nbytes
    offset := op.cb.offset }

/-! ### POSIX aio -/

/-- The fields of an `aiocb` that the code sets. -/
structure Aiocb where
  aioOffset : Int64
  aioFildes : Int32
  aioBuf : UInt64
  aioNbytes : UInt64
  sivalInt : Int32 := 0
  deriving DecidableEq, Repr

structure PosixAsyncIop where
  type : IopType := .read
  groupId : Int32 := 0
  cb : Aiocb
  targetData : Nat
  time : UInt64
  readBuf : UInt64
  writeBuf : UInt64
  deriving DecidableEq, Repr

def PosixAsyncIop.construct (uninit : UInt64) (args : IopArgs) : PosixAsyncIop where
  type := args.type
  groupId := args.groupId
  cb := {
    aioOffset := args.offset
    aioFildes := args.fd
    aioBuf := args.type.buffer args.readBuf args.writeBuf
    aioNbytes := args.nbytes }
  targetData := args.targetData
  time := uninit
  readBuf := args.readBuf
  writeBuf := args.writeBuf

/-- `submit` calls `aio_read` or `aio_write` on the control block by the type of the operation. -/
instance : IAsyncIop PosixAsyncIop where
  construct := PosixAsyncIop.construct
  getType op := op.type
  setType t op := { op with
    type := t
    cb := { op.cb with aioBuf := t.buffer op.readBuf op.writeBuf } }
  getFd op := op.cb.aioFildes
  setFd fd op := { op with cb := { op.cb with aioFildes := fd } }
  getOffset op := op.cb.aioOffset
  setOffset o op := { op with cb := { op.cb with aioOffset := o } }
  getNbytes op := op.cb.aioNbytes
  setNbytes n op := { op with cb := { op.cb with aioNbytes := n } }
  getGroupId op := op.groupId
  setGroupId id op := { op with groupId := id }
  getTime op := op.time
  setTime timeStamp op := { op with time := timeStamp }
  getTargetData op := op.targetData
  setTargetData tData op := { op with targetData := tData }
  controlBlock op := {
    type := op.type
    fd := op.cb.aioFildes
    buf := op.cb.aioBuf
    nbytes := op.cb.aioNbytes
    offset := op.cb.aioOffset }

/-! ### The engine of a job -/

/-- The operations of an engine. -/
def IoEngine.Op : IoEngine → Type
  | .kernelAio => KernelAsyncIop
  | .posixAio => PosixAsyncIop

instance (engine : IoEngine) : IAsyncIop engine.Op :=
  match engine with
  | .kernelAio => inferInstanceAs (IAsyncIop KernelAsyncIop)
  | .posixAio => inferInstanceAs (IAsyncIop PosixAsyncIop)

end DiskSpd
