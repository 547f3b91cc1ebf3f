import TfDml.Core.NoOpKernel
import TfDml.Kernels.AxisView

/-! # Concat and ConcatV2

The axis comes before the tensors or after them. Empty inputs are filtered out before the
operator is built.
-/

namespace TfDml.ConcatOp

open Lib
open StridedSlice (IndexTensor i32)
open DmlTensorDesc

inductive AxisArgumentName where
  | nameIsAxis
  | nameIsConcatDim
  deriving DecidableEq

/-- What `ConcatInitHelper` keeps. -/
structure Init where
  concatAxis : Int
  outputConcatDimSize : Nat
  firstInputShape : TensorShape

/-- The loop body for the input at position `i`. -/
def checkInput (first : TensorShape) (concatAxis : Nat) (outputConcatDimSize : Nat)
    (entry : TensorShape × Nat) : Except Status Nat := do
  let (input, i) := entry
  opRequires (input.length == first.length)
    (.invalidArgument ("ConcatOp : Ranks of all input tensors should match: shape[0] = " ++
      first.debugString ++ " vs. shape[" ++ toString i ++ "] = " ++ input.debugString))
  (List.range input.length).forM fun j =>
    if j = concatAxis then .ok ()
    else
      opRequires (input.getD j 0 == first.getD j 0)
        (.invalidArgument ("ConcatOp : Dimensions of inputs should match: shape[0] = " ++
          first.debugString ++ " vs. shape[" ++ toString i ++ "] = " ++ input.debugString))
  .ok (outputConcatDimSize + input.getD concatAxis 0)

variable {w : Nat}

/-- The constructor of `ConcatInitHelper`. -/
def initHelper (concatDimTensor : IndexTensor w) (first : TensorShape) (rest : List TensorShape) :
    Except Status Init := do
  opRequires concatDimTensor.shape.isScalar (.invalidArgument "axis must be scalar")
  let concatDim := concatDimTensor.flat 0
  let concatAxis := if concatDim < 0 then concatDim + first.length else concatDim
  opRequires (0 ≤ concatAxis && concatAxis < first.length)
    (.invalidArgument ("ConcatOp : Expected concatenating dimensions in the range [" ++
      toString (-(first.length : Int)) ++ ", " ++ toString first.length ++ "), but got " ++
      toString concatDim))
  let size ← (rest.zipIdx 1).foldlM (checkInput first concatAxis.toNat)
    (first.getD concatAxis.toNat 0)
  .ok ⟨concatAxis, size, first⟩

/-- `GetOutputShapes` -/
def getOutputShape (init : Init) : TensorShape :=
  init.firstInputShape.set init.concatAxis.toNat init.outputConcatDimSize

/-- Concat is only a no-op if all input tensors, aside from the axis, are empty. -/
def isNoOpKernel (inputs : List TensorShape) : Bool :=
  inputs.all fun shape => shape.numElements == 0

structure Value (α : Type) where
  shape : TensorShape
  values : List α

variable {α : Type}

/-- The inputs of the kernel; nothing stands for the axis. -/
def kernelInputs (axisArgName : AxisArgumentName) (tensors : List (Value α)) :
    List (Option (Value α)) :=
  match axisArgName with
  | .nameIsConcatDim => none :: tensors.map some
  | .nameIsAxis => tensors.map some ++ [none]

def operatorInputs (output : TensorShape) (concatAxis : Nat) (inputs : List (Option (Value α))) :
    Option (List TensorInfo) :=
  (inputs.zipIdx.filterMap fun input =>
      input.1.bind fun tensor =>
        if tensor.shape.numElements = 0 then none else some (tensor.shape, input.2)).mapM
    fun input => do
      let shape ← collapse output concatAxis (i32 (input.1.getD concatAxis 0))
      let desc ← create shape shape
      some ⟨input.2, desc⟩

def boundInput (inputs : List (Option (Value α))) (info : TensorInfo) :
    Option (DmlTensorDesc × List α) := do
  let input ← inputs[info.kernelIndex]?
  let tensor ← input
  some (info.desc, tensor.values)

/-- `DmlConcatKernel`. Without a result, a `CHECK` ends the process. -/
def runKernel (init : Init) (inputs : List (Option (Value α))) : Option (List (Option α)) := do
  let concatAxis := init.concatAxis.toNat
  let outputShape := getOutputShape init
  -- At least two tensors are concatenated, and another one is the axis.
  if inputs.length < 3 then none
  else do
    let shape ← collapse outputShape concatAxis (i32 (outputShape.getD concatAxis 0))
    let outputDesc ← create shape shape
    let infos ← operatorInputs outputShape concatAxis inputs
    if infos.isEmpty then none
    else do
      let bound ← infos.mapM (boundInput inputs)
      dmlJoin bound outputDesc nchwAxis

def compute [Zero α] (axisArgName : AxisArgumentName) (concatDimTensor : IndexTensor w)
    (first : Value α) (rest : List (Value α)) :
    Except Status (TensorShape × Option (List (Option α))) := do
  let tensors := first :: rest
  let init ← initHelper concatDimTensor first.shape (rest.map Value.shape)
  let outputShape := getOutputShape init
  .ok (outputShape,
    if isNoOpKernel (tensors.map Value.shape) then some (NoOpKernel.zeroed outputShape)
    else runKernel init (kernelInputs axisArgName tensors))

end TfDml.ConcatOp
