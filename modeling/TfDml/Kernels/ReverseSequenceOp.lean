import TfDml.Core.TensorDescCreate
import TfDml.Core.TensorShapeUtils
import TfDml.Kernels.SliceOp
import TfDml.Lib.Grouping

/-! # ReverseSequence

The first elements along one dimension are reversed, as many as a vector says for the index along
another one. All other dimensions are collapsed, so that five are left.
-/

namespace TfDml.ReverseSequence

open Lib
open StridedSlice (IndexTensor)
open DmlTensorDesc (Addressed address packedStrides)

structure Attributes where
  batchDim : Int
  seqDim : Int
  deriving DecidableEq

structure Arguments (w : Nat) where
  attr : Attributes
  input : TensorShape
  seqLens : IndexTensor w

structure SimplifiedReverseSequence where
  inputOutputSizes : List Nat
  seqLengthsSizes : List Nat
  nonBroadcastSeqLengthsSizes : List Nat
  seqDim : Nat
  deriving DecidableEq

/-- A loop that multiplies dimensions, in 32 bits. -/
def dimProduct (inputShape : TensorShape) (first last : Int) : Option Nat :=
  (List.range (last - first).toNat).foldlM (fun (product k : Nat) =>
    (inputShape.dimSize (first + k)).map fun dim => product * dim % 2 ^ 32) 1

/-- Without a result, a dimension that does not exist is read. -/
def simplifyReverseSequence (inputShape : TensorShape) (batchDim seqDim : Int) :
    Option SimplifiedReverseSequence := do
  let lowerIndex := min batchDim seqDim
  let upperIndex := max batchDim seqDim
  let dimBefore ← dimProduct inputShape 0 lowerIndex
  let dimBetween ← dimProduct inputShape (lowerIndex + 1) upperIndex
  let dimAfter ← dimProduct inputShape (upperIndex + 1) inputShape.length
  let lowerSize ← inputShape.dimSize lowerIndex
  let upperSize ← inputShape.dimSize upperIndex
  let newBatchDim := if batchDim < seqDim then 1 else 3
  let batchSize ← inputShape.dimSize batchDim
  return {
    inputOutputSizes := [dimBefore, lowerSize % 2 ^ 32, dimBetween, upperSize % 2 ^ 32, dimAfter]
    seqLengthsSizes := [dimBefore, 1, dimBetween, 1, dimAfter].set newBatchDim (batchSize % 2 ^ 32)
    nonBroadcastSeqLengthsSizes := [1, 1, 1, 1, 1].set newBatchDim (batchSize % 2 ^ 32)
    seqDim := if seqDim < batchDim then 1 else 3 }

def notVector (dims : Nat) : Status := .invalidArgument s!"seq_lens input must be 1-dim, not {dims}"

def sameDim (seqDim : Int) : Status := .invalidArgument s!"batch_dim == seq_dim == {seqDim}"

def dimTooLarge (name : String) (dim : Int) (dims : Nat) : Status :=
  .invalidArgument (name ++ s!" must be < input.dims()( {dim} vs. {dims})")

def differentLength (batchDim : Int) (count size : Nat) : Status :=
  .invalidArgument s!"len(seq_lens) != input.dims({batchDim}), ({count} vs. {size})"

variable {w : Nat}

def checkDims (args : Arguments w) : Except Status Unit := do
  opRequires (args.seqLens.shape.length = 1) (notVector args.seqLens.shape.length)
  opRequires (args.attr.batchDim ≠ args.attr.seqDim) (sameDim args.attr.seqDim)
  opRequires (args.attr.seqDim < args.input.length)
    (dimTooLarge "seq_dim" args.attr.seqDim args.input.length)
  opRequires (args.attr.batchDim < args.input.length)
    (dimTooLarge "batch_dim" args.attr.batchDim args.input.length)

/-- `ReverseSequenceInitHelper`. Without a result, a dimension that does not exist is read. -/
def construct (args : Arguments w) : Option (Except Status SimplifiedReverseSequence) :=
  match checkDims args with
  | .error status => some (.error status)
  | .ok () => do
    let size ← args.input.dimSize args.attr.batchDim
    if args.seqLens.numElements = size then
      let simplified ←
        simplifyReverseSequence args.input args.attr.batchDim args.attr.seqDim
      return .ok simplified
    else return .error (differentLength args.attr.batchDim args.seqLens.numElements size)

/-- The first `len` elements in reverse. -/
def reverseWithin (len s : Nat) : Nat := if s < len then len - 1 - s else s

/-- `DML_OPERATOR_REVERSE_SUBSEQUENCES`. The lengths have one element along the axis, and otherwise
    the sizes of the input. -/
def dmlReverseSubsequences {α : Type} (input seqLengths : DmlTensorDesc) (axis : Nat)
    (lengths : List Nat) (values : List α) : Option (List (Option α)) :=
  if seqLengths.sizes = input.sizes.set axis 1 then
    some ((indices input.sizes).map fun index =>
      (lengths[address seqLengths.strides (index.set axis 0)]?).bind fun len =>
        values[address input.strides (index.modify axis (reverseWithin len))]?)
  else none

def execute {α : Type} (simplified : SimplifiedReverseSequence) (seqLens : IndexTensor w)
    (values : List α) : Option (List (Option α)) := do
  let input ← DmlTensorDesc.create simplified.inputOutputSizes simplified.inputOutputSizes
  let seqLengths ← DmlTensorDesc.create simplified.seqLengthsSizes
    simplified.nonBroadcastSeqLengthsSizes
  dmlReverseSubsequences input seqLengths simplified.seqDim
    (seqLens.values.map BitVec.toNat) values

def compute {α : Type} [Zero α] (args : Arguments w) (values : List α) :
    SliceOp.Outcome (List (Option α)) :=
  match construct args with
  | none => .crashed .outOfRange
  | some (.error status) => .reported status
  | some (.ok simplified) =>
    if NoOpKernel.isNoOpKernel [args.input, args.seqLens.shape] [args.input] then
      .finished (NoOpKernel.zeroed args.input)
    else
      match execute simplified args.seqLens values with
      | none => .crashed .check
      | some output => .finished output

namespace Arguments

variable (args : Arguments w)

def ValidDims : Prop :=
  (0 ≤ args.attr.batchDim ∧ args.attr.batchDim < args.input.length) ∧
    (0 ≤ args.attr.seqDim ∧ args.attr.seqDim < args.input.length) ∧
    args.attr.batchDim ≠ args.attr.seqDim

def batch : Nat := args.attr.batchDim.toNat

def seq : Nat := args.attr.seqDim.toNat

def ValidLens : Prop :=
  args.seqLens.shape = [args.input.getD args.batch 0] ∧
    ∀ len ∈ args.seqLens.values, 0 ≤ len.toInt ∧ len.toInt ≤ args.input.getD args.seq 0

def source (index : List Nat) : List Nat :=
  index.modify args.seq
    (reverseWithin ((args.seqLens.values.getD (index.getD args.batch 0) 0).toInt.toNat))

/-- Valid sequences are reversed, and other dimensions are reported. -/
def Reverses : Prop :=
  (args.ValidDims → args.ValidLens →
    ∀ (α : Type) [Zero α] (values : List α), values.length = args.input.numElements →
      compute args values = .finished (gather args.input args.source values)) ∧ (¬args.ValidDims →
    ∀ (α : Type) [Zero α] (values : List α), ∃ status, compute args values = .reported status)

def lower : Nat := min args.batch args.seq

def upper : Nat := max args.batch args.seq

def groups : List (List Nat) :=
  [args.input.take args.lower, [args.input.getD args.lower 0],
    (args.input.drop (args.lower + 1)).take (args.upper - (args.lower + 1)),
    [args.input.getD args.upper 0], args.input.drop (args.upper + 1)]

/-- The sizes of the five dimensions, without a bound. -/
def collapsedSizes : List Nat := args.groups.map List.prod

end Arguments

end TfDml.ReverseSequence
