import TfDml.Core.WindowSums
import TfDml.Kernels.Conv2DDimension

/-! # The dimensions of a depthwise convolution

What `DepthwiseConv2dNative` checks of its attributes and of the shapes of its inputs, and the
sizes and paddings that it computes from them.
-/

namespace TfDml.DepthwiseConv2D

open Conv2D Optimizer Optimizer.Remapper

/-- The attributes of the op; `padding` has one of the three allowed values. -/
structure Conv2DNode where
  strides : List Int
  dilations : List Int
  dataFormat : String
  padding : Padding
  explicitPaddings : List Int

structure Attributes where
  dataFormat : TensorFormat
  padding : Padding
  strideH : Int
  strideW : Int
  dilationH : Int
  dilationW : Int
  explicitPaddings : List Int

/-- The error of a stride, and of a dilation, in the batch and depth dimensions. -/
def stridesNotSupported : Status :=
  .invalidArgument ("Current implementation does not yet support strides in the batch and depth " ++
    "dimensions.")

def attributes (node : Conv2DNode) : Except Status Attributes :=
  match formatFromString node.dataFormat with
  | none => .error (.invalidArgument "Invalid data format")
  | some dataFormat => do
    opRequires (node.strides.length = 4)
      (.invalidArgument "Sliding window strides field must specify 4 dimensions")
    opRequires (node.dilations.length = 4)
      (.invalidArgument "Sliding window dilations field must specify 4 dimensions")
    let strideOf := getTensorDim node.strides dataFormat
    opRequires (strideOf DimIndices.n = 1 && strideOf DimIndices.c = 1) stridesNotSupported
    -- the source reads the dilations of these two dimensions from the strides, too
    let dilationN := strideOf DimIndices.n
    let dilationC := strideOf DimIndices.c
    opRequires (dilationN = 1 && dilationC = 1) stridesNotSupported
    checkValidPadding node.padding node.explicitPaddings 4 dataFormat
    .ok {
      dataFormat := dataFormat
      padding := node.padding
      strideH := strideOf DimIndices.h
      strideW := strideOf DimIndices.w
      dilationH := getTensorDim node.dilations dataFormat DimIndices.h
      dilationW := getTensorDim node.dilations dataFormat DimIndices.w
      explicitPaddings := node.explicitPaddings }

structure Dimensions where
  filterRows : Int
  filterCols : Int
  batch : Int
  outRows : Int
  outCols : Int
  inDepth : Int
  outDepth : Int
  groupCount : Int
  padRowsBefore : Int
  padColsBefore : Int
  padRowsAfter : Int
  padColsAfter : Int
  deriving DecidableEq

/-- The window of a spatial dimension; `EXPLICIT` reads the paddings of the dimension. -/
def window (attr : Attributes) (input : TensorShape) (filterSize dilation stride : Int)
    (dimension : DimIndices → Nat) : Except Stop WindowedOutput :=
  let index := dimension (getTensorDimIndices attr.dataFormat)
  Stop.windowed (getTensorDim input attr.dataFormat dimension : Nat) filterSize dilation stride
    attr.padding (attr.explicitPaddings.getD (2 * index) 0)
    (attr.explicitPaddings.getD (2 * index + 1) 0)

/-- `DepthwiseConv2DNativeInitHelper`. -/
def dimensions (attr : Attributes) (input filter : TensorShape) : Except Stop Dimensions := do
  Stop.require (input.length = 4)
    (.invalidArgument ("input must be 4-dimensional" ++ input.debugString))
  Stop.require (filter.length = 4)
    (.invalidArgument ("filter must be 4-dimensional: " ++ filter.debugString))
  let inDepth := getTensorDim input attr.dataFormat DimIndices.c
  Stop.require (inDepth = filter.getD 2 0)
    (.invalidArgument ("input and filter must have the same depth: " ++ toString inDepth ++
      " vs " ++ toString (filter.getD 2 0)))
  let outDepth ← Stop.int64 (inDepth * toInt32 (filter.getD 3 0 : Nat))
  Stop.require (getTensorDim input attr.dataFormat DimIndices.h < intMax)
    (.invalidArgument "Input rows too large")
  Stop.require (getTensorDim input attr.dataFormat DimIndices.w < intMax)
    (.invalidArgument "Input cols too large")
  let filterRows := toInt32 (filter.getD 0 0 : Nat)
  let filterCols := toInt32 (filter.getD 1 0 : Nat)
  let rows ← window attr input filterRows attr.dilationH attr.strideH DimIndices.h
  let columns ← window attr input filterCols attr.dilationW attr.strideW DimIndices.w
  .ok {
    filterRows := filterRows
    filterCols := filterCols
    batch := (input.getD 0 0 : Nat)
    outRows := rows.outputSize
    outCols := columns.outputSize
    inDepth := inDepth
    outDepth := outDepth
    groupCount := toInt32 (filter.getD 2 0 : Nat)
    padRowsBefore := rows.paddingBefore
    padColsBefore := columns.paddingBefore
    padRowsAfter := rows.paddingAfter
    padColsAfter := columns.paddingAfter }

end TfDml.DepthwiseConv2D
