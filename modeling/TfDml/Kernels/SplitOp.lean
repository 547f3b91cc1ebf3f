import TfDml.Kernels.AxisView
import TfDml.Kernels.RangeOp

/-! # Split and SplitV

SplitV has the sizes of its outputs in a tensor, where one of them may be -1; Split has outputs
of equal size. Empty outputs are filtered out before the operator is built.
-/

namespace TfDml.SplitOp

open Lib
open RangeOp (i64)
open StridedSlice (IndexTensor i32)
open DmlTensorDesc

/-- What `SplitInitHelper` keeps. -/
structure Init where
  splitDim : Int
  splitSizes : List Int
  deriving DecidableEq

/-- The loop that determines the sizes, with the position of a -1 and the sum of the others. -/
def visitSize (found : Option Nat × Int) (entry : Int × Nat) : Except Status (Option Nat × Int) :=
  if entry.1 = -1 then do
    opRequires found.1.isNone (.invalidArgument "There can only be one -1 in the input.")
    .ok (some entry.2, found.2)
  else .ok (found.1, i64 (found.2 + entry.1))

/-- Without a -1 the sizes must make up the axis; otherwise that size is what is left. -/
def fits (negOneDim : Option Nat) (determinedSize inputSizeSplitDim : Int) : Bool :=
  match negOneDim with
  | none => determinedSize == inputSizeSplitDim
  | some _ => determinedSize ≤ inputSizeSplitDim

def resolve (negOneDim : Option Nat) (determinedSize inputSizeSplitDim : Int) (sizes : List Int) :
    List Int :=
  match negOneDim with
  | none => sizes
  | some d => sizes.set d (i64 (inputSizeSplitDim - determinedSize))

def checkSize (entry : Int × Nat) : Except Status Unit :=
  opRequires (0 ≤ entry.1) (.invalidArgument ("Split size at index " ++ toString entry.2 ++
    " must be >= 0. Got: " ++ toString entry.1))

def splitVSizes (sizes : List Int) (inputSizeSplitDim : Int) : Except Status (List Int) := do
  let (negOneDim, determinedSize) ← sizes.zipIdx.foldlM visitSize (none, 0)
  opRequires (fits negOneDim determinedSize inputSizeSplitDim)
    (.invalidArgument ("Determined shape must either match input shape along split_dim " ++
      "exactly if fully specified, or be less than the size of the input along split_dim if " ++
      "not fully specified.  Got: " ++ toString determinedSize))
  let splitSizes := resolve negOneDim determinedSize inputSizeSplitDim sizes
  splitSizes.zipIdx.forM checkSize
  .ok splitSizes

variable {w : Nat}

/-- The constructor of `SplitInitHelper`; SplitV is the one with a tensor of sizes. -/
def initHelper (input : TensorShape) (splitDimTensor : IndexTensor 32)
    (splitTensor : Option (IndexTensor w)) (numOutputs : Nat) : Except Status Init := do
  opRequires splitDimTensor.shape.isScalar
    (.invalidArgument ("split_dim must be a scalar but has rank " ++
      toString splitDimTensor.shape.length))
  let splitDimOrig := splitDimTensor.flat 0
  let splitDim := if splitDimOrig < 0 then splitDimOrig + input.length else splitDimOrig
  opRequires (0 ≤ splitDim && splitDim < input.length)
    (.invalidArgument ("-input rank(-" ++ toString input.length ++
      ") <= split_dim < input rank (" ++ toString input.length ++ "), but got " ++
      toString splitDimOrig))
  opRequires (0 < numOutputs)
    (.invalidArgument ("Number of ways to split should be > 0, but got " ++ toString numOutputs))
  let inputSizeSplitDim := i32 (input.getD splitDim.toNat 0)
  match splitTensor with
  | some split => do
    opRequires (split.shape.length == 1 && split.numElements == numOutputs)
      (.invalidArgument ("size of the split_tensor must be 1-D and have the same elements as " ++
        "outputs got " ++ toString split.shape.length ++ " -D and " ++
        toString split.numElements ++ " elements"))
    let splitSizes ← splitVSizes (split.values.map BitVec.toInt) inputSizeSplitDim
    .ok ⟨splitDim, splitSizes⟩
  | none => do
    opRequires (inputSizeSplitDim.tmod numOutputs == 0)
      (.invalidArgument ("Number of ways to split should evenly divide the split dimension, " ++
        "but got split_dim " ++ toString splitDim ++ " (size = " ++
        toString inputSizeSplitDim ++ ") and num_split " ++ toString numOutputs))
    .ok ⟨splitDim, List.replicate numOutputs (inputSizeSplitDim.tdiv numOutputs)⟩

def getOutputShapes (input : TensorShape) (init : Init) : List TensorShape :=
  init.splitSizes.map fun splitSize => input.set init.splitDim.toNat splitSize.toNat

/-- Split is only a no-op if all output tensors are empty. -/
def isNoOpKernel (outputShapes : List TensorShape) : Bool :=
  outputShapes.all fun shape => shape.numElements == 0

/-- The outputs that are not empty. -/
def kernelOutputs (input : TensorShape) (splitDim : Nat) (outputShapes : List TensorShape) :
    Option (List TensorInfo) :=
  (outputShapes.zipIdx.filter fun output => output.1.numElements != 0).mapM fun output => do
    let shape ← collapse input splitDim (i32 (output.1.getD splitDim 0))
    let desc ← create shape shape
    some ⟨output.2, desc⟩

variable {α : Type}

/-- What the operator writes to the outputs of the kernel that are bound to its own. -/
def bindOutputs (infos : List TensorInfo) (results : List (List (Option α))) (count : Nat) :
    List (List (Option α)) :=
  (List.range count).map fun i =>
    ((infos.zip results).find? fun bound => bound.1.kernelIndex == i).elim [] Prod.snd

/-- `DmlSplitKernel`. Without a result, a `CHECK` ends the process. -/
def runKernel (input : TensorShape) (init : Init) (outputShapes : List TensorShape)
    (values : List α) : Option (List (List (Option α))) := do
  let splitDim := init.splitDim.toNat
  let inputShape ← collapse input splitDim (i32 (input.getD splitDim 0))
  let inputDesc ← create inputShape inputShape
  let infos ← kernelOutputs input splitDim outputShapes
  let results ← dmlSplit inputDesc (infos.map TensorInfo.desc)
    nchwAxis values
  some (bindOutputs infos results outputShapes.length)

def compute [Zero α] (input : TensorShape) (splitDimTensor : IndexTensor 32)
    (splitTensor : Option (IndexTensor w)) (numOutputs : Nat) (values : List α) :
    Except Status (List TensorShape × Option (List (List (Option α)))) := do
  let init ← initHelper input splitDimTensor splitTensor numOutputs
  let outputShapes := getOutputShapes input init
  .ok (outputShapes, if isNoOpKernel outputShapes then some (outputShapes.map NoOpKernel.zeroed)
    else runKernel input init outputShapes values)

end TfDml.SplitOp
