import TfDml.Kernels.RangeOp
import TfDml.Kernels.ScatterNdArithmetic
import TfDml.Kernels.SimplifyPad
import Mathlib.Data.List.DropRight

/-! # Shapes for SpaceToBatch and BatchToSpace

Both helpers combine leading and trailing block dimensions that change nothing with the batch
and with the depth. They compute in `int64_t`, so that a size may be negative.
-/

namespace TfDml.SpaceBatch

open RangeOp (i64)
open StridedSlice (IndexTensor)

/-- One block dimension with its paddings, or with its crops. -/
structure BlockDim where
  dim : Nat
  size : Nat
  block : Int
  before : Int
  after : Int

/-- Nothing is padded or cropped, and the block has one element. -/
def BlockDim.combines (d : BlockDim) : Bool := d.before == 0 && d.after == 0 && d.block == 1

def kMaxSpaceToBatchBlockDims : Nat := 3

variable {w : Nat}

def blockDims (input : TensorShape) (amounts : IndexTensor w) (blockShape : List Int) :
    List BlockDim :=
  (List.range blockShape.length).map fun d =>
    ⟨d, input.getD (d + 1) 0, blockShape.getD d 0, Pad.before amounts d, Pad.after amounts d⟩

def removedPrefix (dims : List BlockDim) : List BlockDim := dims.takeWhile BlockDim.combines

def removedSuffix (dims : List BlockDim) : List BlockDim :=
  (dims.dropWhile BlockDim.combines).rtakeWhile BlockDim.combines

def internalDims (dims : List BlockDim) : List BlockDim :=
  (dims.dropWhile BlockDim.combines).rdropWhile BlockDim.combines

def product64 (start : Int) (factors : List Int) : Int :=
  factors.foldl (fun p factor => i64 (p * factor)) start

def sizes (dims : List BlockDim) : List Int := dims.map fun d => (d.size : Int)

def remaining (input : TensorShape) (dims : List BlockDim) : List Int :=
  (input.drop (dims.length - (removedSuffix dims).length + 1)).map fun size : Nat => (size : Int)

structure Init where
  internalInputShape : List Int
  internalOutputShape : List Int
  outputShape : List Int
  internalDims : List BlockDim

def checkShapes (amountsName : String) (input : TensorShape) (amounts : IndexTensor w)
    (blockShape : List Int) : Except Status Unit := do
  opRequires (1 + blockShape.length ≤ input.length)
    (.invalidArgument ("input rank should be >= " ++ toString (1 + blockShape.length) ++
      " instead of " ++ toString input.length))
  opRequires (amounts.shape.length == 2 && amounts.shape.getD 0 0 == blockShape.length &&
      amounts.shape.getD 1 0 == 2)
    (.invalidArgument (amountsName ++ " should have shape [" ++ toString blockShape.length ++
      ", 2] instead of " ++ amounts.shape.debugString))
  opRequires (0 < product64 1 blockShape)
    (.invalidArgument ("Product of block sizes must be positive, got " ++
      toString (product64 1 blockShape)))

def checkInternalDims (count : Nat) : Except Status Unit :=
  opRequires (count ≤ kMaxSpaceToBatchBlockDims)
    (.invalidArgument ("Maximum number of non-combined block dimensions is " ++ toString count ++
      " but must not exceed " ++ toString kMaxSpaceToBatchBlockDims))

def paddedDim (d : BlockDim) : Except Status Int := do
  opRequires (0 ≤ d.before && 0 ≤ d.after) (.invalidArgument "Paddings must be non-negative")
  let paddedSize := i64 (d.size + d.before + d.after)
  opRequires (paddedSize.tmod d.block == 0)
    (.invalidArgument ("padded_shape[" ++ toString d.dim ++ "]=" ++ toString paddedSize ++
      " is not divisible by block_shape[" ++ toString d.dim ++ "]=" ++ toString d.block))
  .ok (paddedSize.tdiv d.block)

/-- `BaseSpaceToBatchInitHelper::Initialize` -/
def initializeSpaceToBatch (input : TensorShape) (paddings : IndexTensor w)
    (blockShape : List Int) : Except Status Init := do
  checkShapes "paddings" input paddings blockShape
  let dims := blockDims input paddings blockShape
  let inner := internalDims dims
  checkInternalDims inner.length
  let blockShapeProduct := product64 1 blockShape
  let outputSizes ← inner.mapM paddedDim
  let batch : Int := input.getD 0 0
  let inputBatchSize := product64 batch (sizes (removedPrefix dims))
  let depth := product64 1 (remaining input dims)
  .ok {
    internalInputShape := inputBatchSize :: sizes inner ++ [depth]
    internalOutputShape := i64 (inputBatchSize * blockShapeProduct) :: outputSizes ++ [depth]
    outputShape := i64 (batch * blockShapeProduct) :: sizes (removedPrefix dims) ++ outputSizes ++
      remaining input dims
    internalDims := inner }

def croppedDim (d : BlockDim) : Except Status Int := do
  opRequires (0 ≤ d.before && 0 ≤ d.after) (.invalidArgument "Crops must be non-negative")
  let croppedSize := i64 (d.size * d.block - d.before - d.after)
  opRequires (0 ≤ croppedSize)
    (.invalidArgument ("cropped_shape[" ++ toString d.dim ++ "]=" ++ toString croppedSize ++
      " must be non-negative"))
  .ok croppedSize

/-- `BaseBatchToSpaceInitHelper::Initialize` -/
def initializeBatchToSpace (input : TensorShape) (crops : IndexTensor w)
    (blockShape : List Int) : Except Status Init := do
  checkShapes "crops" input crops blockShape
  let blockShapeProduct := product64 1 blockShape
  let batch : Int := input.getD 0 0
  opRequires (batch.tmod blockShapeProduct == 0)
    (.invalidArgument ("Input batch dimension (" ++ toString batch ++
      ") is not divisible by product of block sizes (" ++ toString blockShapeProduct ++ ")"))
  let dims := blockDims input crops blockShape
  let inner := internalDims dims
  checkInternalDims inner.length
  let outputSizes ← inner.mapM croppedDim
  let inputBatchSize := product64 batch (sizes (removedPrefix dims))
  let depth := product64 1 (remaining input dims)
  .ok {
    internalInputShape := inputBatchSize :: sizes inner ++ [depth]
    internalOutputShape := inputBatchSize.tdiv blockShapeProduct :: outputSizes ++ [depth]
    outputShape := batch.tdiv blockShapeProduct :: sizes (removedPrefix dims) ++ outputSizes ++
      remaining input dims
    internalDims := inner }

inductive Direction where
  | spaceToBatch
  | batchToSpace
  deriving DecidableEq

def initializeFor : Direction → TensorShape → IndexTensor w → List Int → Except Status Init
  | .spaceToBatch => initializeSpaceToBatch
  | .batchToSpace => initializeBatchToSpace

/-- SpaceToBatch and BatchToSpace have a block size as an attribute; SpaceToBatchND and
    BatchToSpaceND have a tensor. -/
inductive BlockShape where
  | attribute (blockSize : BitVec 32)
  | int32 (blockShape : IndexTensor 32)
  | int64 (blockShape : IndexTensor 64)

def blockShapeOfTensor (tensor : IndexTensor w) : Except Status (List Int) := do
  opRequires tensor.isVector
    (.invalidArgument ("block_shape rank should be 1 instead of " ++ toString tensor.shape.length))
  .ok (tensor.values.map BitVec.toInt)

def BlockShape.values (input : TensorShape) : BlockShape → Except Status (List Int)
  | .attribute blockSize => do
    opRequires (1 < blockSize.toInt)
      (.invalidArgument ("Block size should be > 1: " ++ toString blockSize.toInt))
    opRequires (input.length == 4)
      (.invalidArgument ("Input rank should be: 4instead of: " ++ toString input.length))
    .ok [blockSize.toInt, blockSize.toInt]
  | .int32 blockShape => blockShapeOfTensor blockShape
  | .int64 blockShape => blockShapeOfTensor blockShape

def initHelper (direction : Direction) (input : TensorShape) (blockShape : BlockShape)
    (amounts : IndexTensor w) : Except Status Init := do
  let values ← blockShape.values input
  initializeFor direction input amounts values

end TfDml.SpaceBatch
