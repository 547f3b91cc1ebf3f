import TfDml.Core.NoOpKernel
import TfDml.Kernels.AxisView
import Mathlib.Data.BitVec

/-! # The Slice operator

The shape helper checks the window with `CHECK`s, after begin and size have been narrowed to 32
bits, and the kernel is skipped by the default rule.
-/

namespace TfDml.SliceOp

open Lib
open StridedSlice (IndexTensor u32)
open DmlTensorDesc

/-- Why the process ends: a `CHECK` fails, or a vector is read behind its end. -/
inductive Crash where
  | check
  | outOfRange
  deriving DecidableEq

inductive Outcome (β : Type) where
  | crashed (crash : Crash)
  | reported (status : Status)
  | finished (result : β)

structure Arguments (w : Nat) where
  input : TensorShape
  begin_ : IndexTensor w
  size : IndexTensor w

variable {w : Nat}

def requires (condition : Bool) : Except Crash Unit := if condition then .ok () else .error .check

def inVector {β : Type} (found : Option β) : Except Crash β :=
  match found with
  | none => .error .outOfRange
  | some x => .ok x

/-- `IntTensorToVec` with elements of `uint32_t`. -/
def intTensorToVec (tensor : IndexTensor w) : List Nat :=
  tensor.values.map fun value => u32 value.toInt

/-- `GetSliceSizes`, for a dimension and its index. -/
def getSliceSize (size : IndexTensor w) (offsets : List Nat) (entry : Nat × Nat) :
    Except Crash Nat := do
  let size ← inVector size.values[entry.2]?
  if size.toInt = -1 then
    let offset ← inVector offsets[entry.2]?
    return u32 (entry.1 - offset)
  else return u32 size.toInt

def getSliceSizes (size : IndexTensor w) (input : TensorShape) (offsets : List Nat) :
    Except Crash (List Nat) :=
  input.zipIdx.mapM (getSliceSize size offsets)

def windowFits (dim sliceOffset sliceSize : Nat) : Bool :=
  if dim = 0 then sliceOffset = 0 ∧ sliceSize = 0
  else sliceOffset ≤ dim ∧ sliceOffset + sliceSize ≤ dim

/-- The loop of the shape helper, for a dimension and its index. -/
def outputDim (offsets sizes : List Nat) (entry : Nat × Nat) : Except Crash Nat := do
  let sliceOffset ← inVector offsets[entry.2]?
  let sliceSize ← inVector sizes[entry.2]?
  requires (windowFits entry.1 sliceOffset sliceSize)
  return sliceSize

/-- `SliceShapeHelper::GetOutputShapes` -/
def getOutputShape (args : Arguments w) : Except Crash TensorShape := do
  let offsets := intTensorToVec args.begin_
  let sizes ← getSliceSizes args.size args.input offsets
  args.input.zipIdx.mapM (outputDim offsets sizes)

/-- `DML_OPERATOR_SLICE1` with strides of one. The window has to be inside the input. -/
def dmlSlice {α : Type} (input : DmlTensorDesc) (offsets sizes : List Nat) (values : List α) :
    Option (List (Option α)) :=
  if offsets.length = input.sizes.length ∧ sizes.length = input.sizes.length ∧
      ∀ d < input.sizes.length, offsets.getD d 0 + sizes.getD d 0 ≤ input.sizes.getD d 0 then
    some ((indices sizes).map fun index =>
      values[address input.strides (List.zipWith (· + ·) offsets index)]?)
  else none

/-- `DML_OPERATOR_ELEMENT_WISE_IDENTITY` -/
def dmlIdentity {α : Type} (input : DmlTensorDesc) (values : List α) : List (Option α) :=
  (indices input.sizes).map fun index => values[address input.strides index]?

/-- What the compiled operator writes. There is no result if a descriptor or the operator is not
    valid. -/
def execute {α : Type} (input outputShape : TensorShape) (offsets sizes : List Nat)
    (values : List α) : Option (List (Option α)) := do
  let inputDesc ← create input input
  let _ ← create outputShape outputShape
  let isIdentity := offsets.all (· == 0) && sizes == input
  if isIdentity then some (dmlIdentity inputDesc values)
  else
    let padAmount := kNchwDimensionCount - sizes.length
    dmlSlice inputDesc (List.replicate padAmount 0 ++ offsets)
      (List.replicate padAmount 1 ++ sizes) values

/-- `DmlSliceKernel` -/
def runKernel {α : Type} (args : Arguments w) (outputShape : TensorShape) (values : List α) :
    Except Crash (List (Option α)) := do
  let inputDims := args.input.length
  requires args.begin_.isVector
  requires (args.begin_.numElements = inputDims)
  requires args.size.isVector
  requires (args.size.numElements = inputDims)
  let offsets := intTensorToVec args.begin_
  let sizes ← getSliceSizes args.size args.input offsets
  match execute args.input outputShape offsets sizes values with
  | none => .error .check
  | some output => .ok output

def computeOutput {α : Type} [Zero α] (args : Arguments w) (values : List α) :
    Except Crash (TensorShape × List (Option α)) := do
  let outputShape ← getOutputShape args
  let inputShapes := [args.input, args.begin_.shape, args.size.shape]
  if NoOpKernel.isNoOpKernel inputShapes [outputShape] then
    return (outputShape, NoOpKernel.zeroed outputShape)
  else
    let output ← runKernel args outputShape values
    return (outputShape, output)

/-- `Compute`. Nothing in the kernel reports a status. -/
def compute {α : Type} [Zero α] (args : Arguments w) (values : List α) :
    Outcome (TensorShape × List (Option α)) :=
  match computeOutput args values with
  | .error crash => .crashed crash
  | .ok output => .finished output

end TfDml.SliceOp
