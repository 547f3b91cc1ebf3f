import TfDml.Core.Common
import Mathlib.Algebra.BigOperators.Group.List.Basic

/-! # Tensors and the context of an invocation

Shapes, tensors on the device and on the host, and what an op kernel finds in
its context: its inputs, the variables that its resource inputs name, and what
the device answers while the invocation runs.
-/

namespace TfDml

inductive DataType where
  | float | double | half | bfloat16
  | int8 | int16 | int32 | int64
  | uint8 | uint16 | uint32 | uint64
  | qint8 | quint8 | qint16 | quint16 | qint32
  | bool | complex64 | complex128
  | string | resource | variant
  deriving DecidableEq, Repr, Inhabited

def dataTypeString : DataType → String
  | .float => "float" | .double => "double" | .half => "half" | .bfloat16 => "bfloat16"
  | .int8 => "int8" | .int16 => "int16" | .int32 => "int32" | .int64 => "int64"
  | .uint8 => "uint8" | .uint16 => "uint16" | .uint32 => "uint32" | .uint64 => "uint64"
  | .qint8 => "qint8" | .quint8 => "quint8" | .qint16 => "qint16" | .quint16 => "quint16"
  | .qint32 => "qint32"
  | .bool => "bool" | .complex64 => "complex64" | .complex128 => "complex128"
  | .string => "string" | .resource => "resource" | .variant => "variant"

/-- The sizes of the dimensions, outermost first. -/
abbrev TensorShape := List Nat

namespace TensorShape

def numElements (shape : TensorShape) : Nat := shape.prod

def isScalar (shape : TensorShape) : Bool := shape.isEmpty

def isVectorOrHigher (shape : TensorShape) : Bool := !shape.isEmpty

def debugString (shape : TensorShape) : String := "[" ++ ",".intercalate (shape.map toString) ++ "]"

end TensorShape

abbrev BufferId := Nat

structure Tensor where
  buffer : BufferId
  shape : TensorShape
  dtype : DataType
  deriving DecidableEq, Repr, Inhabited

/-- A tensor in host memory, with its bytes. -/
structure HostTensor where
  shape : TensorShape
  dtype : DataType
  data : List UInt8
  deriving DecidableEq

abbrev Handle := Nat

/-- An input is in host memory, on the device, or a handle of a variable. -/
inductive Input where
  | host (tensor : HostTensor)
  | device (tensor : Tensor)
  | resource (handle : Handle)
  deriving DecidableEq

namespace Input

def shape : Input → TensorShape
  | .host tensor => tensor.shape
  | .device tensor => tensor.shape
  | .resource _ => []

def dtype : Input → DataType
  | .host tensor => tensor.dtype
  | .device tensor => tensor.dtype
  | .resource _ => .resource

end Input

/-- What the device and the runtime answer during one invocation: the status of
    `DmlKernel::Initialize`, of allocating each output, and of executing the operator. They
    run out of memory, but do not judge the arguments. -/
structure DeviceResponses where
  initialization : Status
  allocateOutput : Nat → TensorShape → Status
  execution : Except Status DmlGpuEvent
  initialization_valid : initialization.isInvalidArgument = false
  allocateOutput_valid : ∀ index shape, (allocateOutput index shape).isInvalidArgument = false
  execution_valid : ∀ status, execution = .error status → status.isInvalidArgument = false

/-- No allocation and no execution fails. -/
structure DeviceResponses.AllOk (device : DeviceResponses) : Prop where
  initialization : device.initialization = .ok
  allocateOutput : ∀ index shape, device.allocateOutput index shape = .ok
  execution : ∃ gpuEvent, device.execution = .ok gpuEvent

/-- A device that refuses nothing. -/
def DeviceResponses.granted : DeviceResponses where
  initialization := .ok
  allocateOutput := fun _ _ => .ok
  execution := .ok ⟨1, 0⟩
  initialization_valid := rfl
  allocateOutput_valid := fun _ _ => rfl
  execution_valid := by simp

/-- `getInputTensorFromVariable` is what the runtime answers for the variable of a handle:
    its tensor or, if there is none, an error. -/
structure OpKernelContext where
  inputs : List Input
  numOutputs : Nat
  getInputTensorFromVariable : Handle → Except Status Tensor
  device : DeviceResponses

def OpKernelContext.input (ctx : OpKernelContext) (index : Nat) : Option Input := ctx.inputs[index]?

def OpKernelContext.deviceInput (ctx : OpKernelContext) (index : Nat) : Tensor :=
  match ctx.input index with
  | some (.device tensor) => tensor
  | _ => default

/-- `OP_REQUIRES`: without the condition, the function returns with the status. -/
def opRequires (condition : Bool) (status : Status) : Except Status Unit :=
  if condition then .ok () else .error status

@[simp] theorem opRequires_eq_ok {cond : Bool} {status : Status} {result : Unit} :
    opRequires cond status = .ok result ↔ cond = true := by
  cases cond with
  | true => simp [opRequires]
  | false => simp [opRequires]

theorem bind_eq_ok {ε α β : Type} {x : Except ε α} {f : α → Except ε β} {b : β} :
    (x >>= f) = .ok b ↔ ∃ a, x = .ok a ∧ f a = .ok b := by
  cases x with
  | error e => simp [bind, Except.bind]
  | ok a => simp [bind, Except.bind]

theorem requires_eq_error {β : Type} {cond : Bool} {required : Status}
    {f : Unit → Except Status β} {status : Status} :
    (opRequires cond required >>= f) = .error status ↔
      cond = false ∧ status = required ∨ cond = true ∧ f () = .error status := by
  cases cond with
  | true => simp [opRequires, bind, Except.bind]
  | false => simp [opRequires, bind, Except.bind, eq_comm]

end TfDml
