/-
**Both operation classes implement one record.**

An operation of either engine behaves as the record of its constructor arguments, with the current
time in the place of the time stamp:

* `IopArgs.controlBlock` — the request a record stands for: its type, and the buffer of that type.
* `LawfulIop` — the getters of the work loop read the record, every setter updates it, and as long as
  the control block is in step with the type (`InStep`), it is the request of the record. The
  constructor and every setter keep it in step.
* `Setter`, `request_setters` — so after any setters the control block has the operation's type, with
  the buffer of that type.
* The instances: `KernelAsyncIop`, `PosixAsyncIop`, and so the operations of any engine.
-/

import DiskSpd.Model.AsyncIo

namespace DiskSpd

open IAsyncIop

/-- The request a record stands for. -/
def IopArgs.controlBlock (args : IopArgs) : ControlBlock where
  type := args.type
  fd := args.fd
  buf := args.type.buffer args.readBuf args.writeBuf
  nbytes := args.nbytes
  offset := args.offset

/-- **An implementation of the record.** -/
class LawfulIop (Op : Type) [IAsyncIop Op] where
  view : Op → IopArgs
  InStep : Op → Prop
  getType_eq (op : Op) : getType op = (view op).type
  getOffset_eq (op : Op) : getOffset op = (view op).offset
  getTime_eq (op : Op) : getTime op = (view op).timeStamp
  getTargetData_eq (op : Op) : getTargetData op = (view op).targetData
  view_construct (uninit : UInt64) (args : IopArgs) :
    view (construct uninit args : Op) = { args with timeStamp := uninit }
  view_setType (t : IopType) (op : Op) : view (setType t op) = { view op with type := t }
  view_setOffset (o : Int64) (op : Op) : view (setOffset o op) = { view op with offset := o }
  view_setTime (time : UInt64) (op : Op) : view (setTime time op) = { view op with timeStamp := time }
  view_setFd (fd : Int32) (op : Op) : view (setFd fd op) = { view op with fd := fd }
  view_setNbytes (n : UInt64) (op : Op) : view (setNbytes n op) = { view op with nbytes := n }
  view_setGroupId (id : Int32) (op : Op) : view (setGroupId id op) = { view op with groupId := id }
  view_setTargetData (tData : Nat) (op : Op) :
    view (setTargetData tData op) = { view op with targetData := tData }
  inStep_construct (uninit : UInt64) (args : IopArgs) : InStep (construct uninit args : Op)
  inStep_setType (t : IopType) (op : Op) : InStep (setType t op)
  inStep_setOffset (o : Int64) (op : Op) : InStep op → InStep (setOffset o op)
  inStep_setTime (time : UInt64) (op : Op) : InStep op → InStep (setTime time op)
  inStep_setFd (fd : Int32) (op : Op) : InStep op → InStep (setFd fd op)
  inStep_setNbytes (n : UInt64) (op : Op) : InStep op → InStep (setNbytes n op)
  inStep_setGroupId (id : Int32) (op : Op) : InStep op → InStep (setGroupId id op)
  inStep_setTargetData (tData : Nat) (op : Op) : InStep op → InStep (setTargetData tData op)
  controlBlock_eq (op : Op) : InStep op → controlBlock op = (view op).controlBlock

attribute [simp] LawfulIop.getType_eq LawfulIop.getOffset_eq LawfulIop.getTime_eq
  LawfulIop.getTargetData_eq LawfulIop.view_construct LawfulIop.view_setType
  LawfulIop.view_setOffset LawfulIop.view_setTime LawfulIop.view_setFd LawfulIop.view_setNbytes
  LawfulIop.view_setGroupId LawfulIop.view_setTargetData

/-! ### Any setters -/

inductive Setter where
  | setType (t : IopType)
  | setFd (fd : Int32)
  | setOffset (o : Int64)
  | setNbytes (n : UInt64)
  | setGroupId (id : Int32)
  | setTime (timeStamp : UInt64)
  | setTargetData (tData : Nat)

def Setter.apply {Op : Type} [IAsyncIop Op] (op : Op) : Setter → Op
  | .setType t => IAsyncIop.setType t op
  | .setFd fd => IAsyncIop.setFd fd op
  | .setOffset o => IAsyncIop.setOffset o op
  | .setNbytes n => IAsyncIop.setNbytes n op
  | .setGroupId id => IAsyncIop.setGroupId id op
  | .setTime timeStamp => IAsyncIop.setTime timeStamp op
  | .setTargetData tData => IAsyncIop.setTargetData tData op

/-- **After any setters the request has the type of the operation**, and the buffer of that type. -/
theorem request_setters {Op : Type} [IAsyncIop Op] [LawfulIop Op] (uninit : UInt64) (args : IopArgs)
    (setters : List Setter) :
    (controlBlock (setters.foldl Setter.apply (construct uninit args : Op))).type =
        getType (setters.foldl Setter.apply (construct uninit args : Op)) ∧
      (controlBlock (setters.foldl Setter.apply (construct uninit args : Op))).buf =
        (getType (setters.foldl Setter.apply (construct uninit args : Op))).buffer args.readBuf
          args.writeBuf := by
  have sound : ∀ op : Op, LawfulIop.InStep op → (LawfulIop.view op).readBuf = args.readBuf →
      (LawfulIop.view op).writeBuf = args.writeBuf →
      LawfulIop.InStep (setters.foldl Setter.apply op) ∧
        (LawfulIop.view (setters.foldl Setter.apply op)).readBuf = args.readBuf ∧
        (LawfulIop.view (setters.foldl Setter.apply op)).writeBuf = args.writeBuf := by
    induction setters with
    | nil => exact fun op inStep readBuf writeBuf => ⟨inStep, readBuf, writeBuf⟩
    | cons setter rest ih =>
      intro op inStep readBuf writeBuf
      refine ih _ ?_ ?_ ?_
      · cases setter with
        | setType t => exact LawfulIop.inStep_setType t op
        | setFd fd => exact LawfulIop.inStep_setFd fd op inStep
        | setOffset o => exact LawfulIop.inStep_setOffset o op inStep
        | setNbytes n => exact LawfulIop.inStep_setNbytes n op inStep
        | setGroupId id => exact LawfulIop.inStep_setGroupId id op inStep
        | setTime time => exact LawfulIop.inStep_setTime time op inStep
        | setTargetData tData => exact LawfulIop.inStep_setTargetData tData op inStep
      · cases setter <;> simpa [Setter.apply] using readBuf
      · cases setter <;> simpa [Setter.apply] using writeBuf
  obtain ⟨inStep, readBuf, writeBuf⟩ := sound _ (LawfulIop.inStep_construct uninit args)
    (by rw [LawfulIop.view_construct]) (by rw [LawfulIop.view_construct])
  rw [LawfulIop.controlBlock_eq _ inStep, LawfulIop.getType_eq]
  exact ⟨rfl, by rw [← readBuf, ← writeBuf]; rfl⟩

/-! ### The two engines -/

theorem IopType.opcode_type (t : IopType) : t.opcode.type = t := by
  cases t <;> rfl

instance : LawfulIop KernelAsyncIop where
  view op := {
    type := op.type
    fd := op.cb.aioFildes
    offset := op.cb.offset
    readBuf := op.readBuf
    writeBuf := op.writeBuf
    nbytes := op.cb.nbytes
    groupId := op.groupId
    targetData := op.targetData
    timeStamp := op.time }
  InStep op := op.cb.aioLioOpcode = op.type.opcode ∧
    op.cb.buf = op.type.buffer op.readBuf op.writeBuf
  getType_eq _ := rfl
  getOffset_eq _ := rfl
  getTime_eq _ := rfl
  getTargetData_eq _ := rfl
  view_construct _ _ := rfl
  view_setType _ _ := rfl
  view_setOffset _ _ := rfl
  view_setTime _ _ := rfl
  view_setFd _ _ := rfl
  view_setNbytes _ _ := rfl
  view_setGroupId _ _ := rfl
  view_setTargetData _ _ := rfl
  inStep_construct _ _ := ⟨rfl, rfl⟩
  inStep_setType _ _ := ⟨rfl, rfl⟩
  inStep_setOffset _ _ inStep := inStep
  inStep_setTime _ _ inStep := inStep
  inStep_setFd _ _ inStep := inStep
  inStep_setNbytes _ _ inStep := inStep
  inStep_setGroupId _ _ inStep := inStep
  inStep_setTargetData _ _ inStep := inStep
  controlBlock_eq op inStep := by
    show ControlBlock.mk op.cb.aioLioOpcode.type _ op.cb.buf _ _ = _
    rw [inStep.1, inStep.2, IopType.opcode_type]
    rfl

instance : LawfulIop PosixAsyncIop where
  view op := {
    type := op.type
    fd := op.cb.aioFildes
    offset := op.cb.aioOffset
    readBuf := op.readBuf
    writeBuf := op.writeBuf
    nbytes := op.cb.aioNbytes
    groupId := op.groupId
    targetData := op.targetData
    timeStamp := op.time }
  InStep op := op.cb.aioBuf = op.type.buffer op.readBuf op.writeBuf
  getType_eq _ := rfl
  getOffset_eq _ := rfl
  getTime_eq _ := rfl
  getTargetData_eq _ := rfl
  view_construct _ _ := rfl
  view_setType _ _ := rfl
  view_setOffset _ _ := rfl
  view_setTime _ _ := rfl
  view_setFd _ _ := rfl
  view_setNbytes _ _ := rfl
  view_setGroupId _ _ := rfl
  view_setTargetData _ _ := rfl
  inStep_construct _ _ := rfl
  inStep_setType _ _ := rfl
  inStep_setOffset _ _ inStep := inStep
  inStep_setTime _ _ inStep := inStep
  inStep_setFd _ _ inStep := inStep
  inStep_setNbytes _ _ inStep := inStep
  inStep_setGroupId _ _ inStep := inStep
  inStep_setTargetData _ _ inStep := inStep
  controlBlock_eq op inStep := by
    show ControlBlock.mk op.type _ op.cb.aioBuf _ _ = _
    rw [inStep]
    rfl

instance (engine : IoEngine) : LawfulIop engine.Op :=
  match engine with
  | .kernelAio => inferInstanceAs (LawfulIop KernelAsyncIop)
  | .posixAio => inferInstanceAs (LawfulIop PosixAsyncIop)

end DiskSpd
