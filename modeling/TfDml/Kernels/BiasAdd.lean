import TfDml.Core.DmlElementWise
import TfDml.Core.NoOpKernel
import TfDml.Core.Stop
import TfDml.Optimizer.TensorProto

/-! # `BiasAdd` and `BiasAddGrad`

A bias has one value for each channel of a tensor. The op broadcasts the bias to the shape of its
input, the gradient reduces what comes back, as a tensor of up to three dimensions.
-/

namespace TfDml.BiasAdd

open Lib DmlGraph Optimizer
open DmlTensorDesc (BufferTensorSize createLayout createShape kNcdhwDimensionCount
  kNchwDimensionCount)
open Expression NoOpKernel

def channelDim (format : TensorFormat) (rank : Nat) : Nat := if format = .nchw then 1 else rank - 1

/-- `BiasAddInitHelper`: the shape of the bias that is to be broadcast. -/
def biasAddInitHelper (format : TensorFormat) (input bias : TensorShape) :
    Except Stop TensorShape := do
  Stop.require (2 ≤ input.length)
    (.invalidArgument ("Input tensor must be at least 2D: " ++ input.debugString))
  Stop.require (bias.length = 1)
    (.invalidArgument ("Biases must be 1D: " ++ bias.debugString))
  let channelCount := toInt32 (input.getD (channelDim format input.length) 0 : Nat)
  Stop.require ((bias.getD 0 0 : Nat) = channelCount)
    (.invalidArgument ("Must provide as many biases as the last dimension of the input tensor: " ++
      bias.debugString ++ " vs. " ++ input.debugString))
  if format = .nchw then
    -- the broadcasting starts at the last dimension, so the trailing ones are added by hand
    let biasShape := [channelCount.toNat, 1, 1]
    if input.length = kNcdhwDimensionCount then .ok (biasShape ++ [1]) else .ok biasShape
  else .ok bias

/-- The shape of the output, which gets trailing dimensions too. -/
def outputShape (format : TensorFormat) (input : TensorShape) : TensorShape :=
  if format = .nchw ∧ input.length < kNchwDimensionCount then
    input ++ List.replicate (kNchwDimensionCount - input.length) 1
  else input

section Kernel

variable {R : Type}

/-- `DmlBiasAddKernel`. -/
def biasAddKernel [Add R] (helper : BufferTensorSize) (dataType : DataType)
    (outputShape physical : TensorShape) (x b : List R) : Option (List (Option R)) := do
  let input ← ofShape helper dataType outputShape outputShape x
  let bias ← ofShape helper dataType outputShape physical b
  let output ← createShape helper dataType outputShape outputShape
  let sum ← elementWise₂ (· + ·) input bias output.desc
  return sum.buffer

/-- A kernel that is made, unless a `CHECK` fails. -/
def made {α : Type} : Option α → Except Stop α
  | some a => .ok a
  | none => .error .fatal

def biasAdd [Add R] [Zero R] (helper : BufferTensorSize) (dataType : DataType)
    (format : TensorFormat) (input bias : TensorShape) (x b : List R) :
    Except Stop (List (Option R)) := do
  let physical ← biasAddInitHelper format input bias
  if isNoOpKernel [input, bias] [input] then .ok (zeroed input)
  else made (biasAddKernel helper dataType (outputShape format input) physical x b)

end Kernel

def product32 (a b : Int) : Except Stop Int :=
  if -2 ^ 31 ≤ a * b ∧ a * b < 2 ^ 31 then .ok (a * b) else .error .overflow

/-- `TensorShape::dim_size` of a shape that may have fewer dimensions. -/
def dimSize (shape : TensorShape) (index : Nat) : Except Stop Int :=
  match shape[index]? with
  | some size => .ok (toInt32 size)
  | none => .error .outOfRange

def trailingDim (shape : TensorShape) (index : Nat) : Except Stop Int :=
  if index < shape.length then dimSize shape index else .ok 1

/-- What `BiasAddGradInitHelper` keeps of a shape. -/
structure GradSizes where
  batch : Int
  height : Int
  width : Int
  depth : Int
  channel : Int

def biasAddGradInitHelper (format : TensorFormat) (outputBackprop : TensorShape) :
    Except Stop GradSizes := do
  Stop.require (2 ≤ outputBackprop.length)
    (.invalidArgument ("Input tensor must be at least 2D: " ++ outputBackprop.debugString))
  Stop.require (outputBackprop.numElements < 2 ^ 31 - 1)
    (.invalidArgument "BiasGrad requires tensor size <= int32_t max")
  match format with
  | .nhwc => do
    let channelDim := outputBackprop.length - 1
    let channel ← dimSize outputBackprop channelDim
    let batch ← (outputBackprop.take channelDim).foldlM
      (fun batch (size : Nat) => product32 batch (toInt32 size)) 1
    .ok ⟨batch, 1, 1, 1, channel⟩
  | .nchw => do
    let batch ← dimSize outputBackprop 0
    let channel ← dimSize outputBackprop 1
    let height ← dimSize outputBackprop 2
    let width ← trailingDim outputBackprop 3
    let depth ← trailingDim outputBackprop 4
    .ok ⟨batch, height, width, depth, channel⟩
  | _ => .ok ⟨1, 1, 1, 1, 1⟩

/-- The dimensions that are reduced, and their layout. -/
def gradView (format : TensorFormat) (sizes : GradSizes) :
    Except Stop (List Int × DmlTensorLayout) :=
  if format = .nhwc then do
    let first ← product32 sizes.batch sizes.height
    let second ← product32 first sizes.width
    let batch ← product32 second sizes.depth
    .ok ([batch, sizes.channel], [.n, .c])
  else do
    Stop.check (format = .nchw)
    let first ← product32 sizes.height sizes.width
    let height ← product32 first sizes.depth
    .ok ([sizes.batch, sizes.channel, height], [.n, .c, .h])

/-- `NarrowTensorShape` of sizes that may be negative. -/
def narrowSizes (sizes : List Int) : Option TensorShape :=
  if ∀ size ∈ sizes, 0 ≤ size ∧ size < 2 ^ 32 then some (sizes.map Int.toNat) else none

section Kernel

variable {R : Type}

/-- `DmlBiasAddGradKernel` -/
def biasAddGradKernel [AddMonoid R] (helper : BufferTensorSize) (dataType : DataType)
    (sizes : List Int) (layout : DmlTensorLayout) (outputShape : TensorShape) (dy : List R) :
    Option (List (Option R)) := do
  let inputShape ← narrowSizes sizes
  let input ← ofLayout helper dataType inputShape layout dy
  let output ← createLayout helper dataType outputShape outputShape [.c]
  let sums ← reduceSums input [0, 2, 3] output.desc
  return sums.buffer

def biasAddGrad [AddMonoid R] (helper : BufferTensorSize) (dataType : DataType)
    (format : TensorFormat) (outputBackprop : TensorShape) (dy : List R) :
    Except Stop (List (Option R)) := do
  let sizes ← biasAddGradInitHelper format outputBackprop
  let outputShape := [sizes.channel.toNat]
  if isNoOpKernel [outputBackprop] [outputShape] then
    .ok (zeroed outputShape)
  else do
    let view ← gradView format sizes
    made (biasAddGradKernel helper dataType view.1 view.2 outputShape dy)

end Kernel

end TfDml.BiasAdd
