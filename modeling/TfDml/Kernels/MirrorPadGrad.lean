import TfDml.Core.TensorDesc
import TfDml.Kernels.ScatterNdArithmetic
import TfDml.Kernels.SimplifyPad
import TfDml.Lib.NdArray

/-! # The gradient of a mirrored padding

`MirrorPadGrad` folds the borders of a tensor onto its inside. For each dimension, the border
before and then the border after the elements is cut off, filled up with zeros to the size of
the rest, reversed and added to the rest.
-/

namespace TfDml.MirrorPadGrad

open Lib
open Lib.NdArray (along)
open GatherNd (IndexType)
open ScatterNd (indexWidth)
open StridedSlice (IndexTensor u32)

inductive MirrorPadMode where
  | reflect
  | symmetric
  deriving DecidableEq

/-- `offset_`, by which elements of the border are not mirrored. -/
def MirrorPadMode.offset : MirrorPadMode → Nat
  | .reflect => 1
  | .symmetric => 0

def kNcdhwDimensionCount : Nat := 5

structure Init where
  outputShape : TensorShape
  isIdentity : Bool

def checkMode (mode : MirrorPadMode) (before after outSize : Int) : Except Status Unit :=
  match mode with
  | .symmetric =>
    opRequires (before ≤ outSize && after ≤ outSize)
      (.invalidArgument ("paddings must be no greater than the output dimension size: " ++
        toString before ++ ", " ++ toString after ++ " greater than " ++ toString outSize))
  | .reflect =>
    opRequires (before < outSize && after < outSize)
      (.invalidArgument ("paddings must be less than the output dimension size: " ++
        toString before ++ ", " ++ toString after ++ " not less than " ++ toString outSize))

variable {w : Nat}

/-- `in0.dim_size(d) - (before + after)`, where the sum has the type of the paddings. -/
def outSize (w dimSize : Nat) (before after : Int) : Int :=
  (dimSize - (before + after).bmod (2 ^ w)).bmod (2 ^ 64)

/-- The loop body for the dimension `d`, with the size that `AddDim` gets. -/
def outDim (mode : MirrorPadMode) (input : TensorShape) (paddings : IndexTensor w) (d : Nat) :
    Except Status Nat := do
  let before := Pad.before paddings d
  let after := Pad.after paddings d
  opRequires (0 ≤ before && 0 ≤ after)
    (.invalidArgument ("Paddings must be non-negative: " ++ toString before ++ ", " ++
      toString after))
  let outSize := outSize w (input.getD d 0) before after
  checkMode mode before after outSize
  .ok outSize.toNat

/-- The constructor of `MirrorPadGradInitHelper`. -/
def initHelper (mode : MirrorPadMode) (input : TensorShape) (paddings : IndexTensor w) :
    Except Status Init := do
  opRequires (input.length ≤ kNcdhwDimensionCount)
    (.unimplemented ("DML doesn't support more than 5D for MirrorPadGrad, but found " ++
      toString input.length))
  opRequires (input.length ≤ 5)
    (.unimplemented ("inputs rank not in [0,5]: " ++ toString input.length))
  opRequires (paddings.shape.length == 2 && paddings.shape.getD 1 0 == 2)
    (.invalidArgument ("paddings must be a matrix with 2 columns: " ++ paddings.shape.debugString))
  opRequires (input.length == paddings.shape.getD 0 0)
    (.invalidArgument ("The first dimension of paddings must be the rank of inputs" ++
      paddings.shape.debugString ++ " " ++ input.debugString))
  let outputShape ← (List.range input.length).mapM (outDim mode input paddings)
  .ok ⟨outputShape, outputShape == input⟩

section Kernel

variable {R : Type*} [CommRing R]

/-- The tensor that is folded, with the numbers that were converted to sizes and paddings so
    far. -/
structure Folding (R : Type*) where
  result : NdArray R
  used : List Int

inductive Side where
  | before
  | after
  deriving DecidableEq

def padBorder (offset : Nat) (axis : Nat) (side : Side) (neededPadding : Nat)
    (border : NdArray R) : NdArray R :=
  if neededPadding = 0 then border
  else
    let rank := border.sizes.length
    let inner := along rank axis (u32 (neededPadding - offset))
    let outer := along rank axis offset
    match side with
    | .before => border.pad 0 inner outer
    | .after => border.pad 0 outer inner

def reverseBorder (axis : Nat) (border : NdArray R) : NdArray R :=
  let size := border.sizes.getD axis 0
  if 1 < size then border.reverse (.const (border.sizes.set axis 1) size) axis else border

def Side.sliceOffset (size padding : Int) : Side → Int
  | .before => 0
  | .after => size - padding

def Side.resultOffset (padding : Int) : Side → Int
  | .before => padding
  | .after => 0

def usedSizes (offset : Nat) (side : Side) (size padding : Int) (neededPadding : Nat) : List Int :=
  [side.sliceOffset size padding, padding, size - padding * 2] ++
    (if neededPadding = 0 then [] else [(neededPadding : Int) - offset, (offset : Int)]) ++
    [side.resultOffset padding, size - padding]

def fold (offset : Nat) (axis : Nat) (side : Side) (padding : Int) (state : Folding R) :
    Option (Folding R) := do
  if 0 < padding then
    let result := state.result
    let rank := result.sizes.length
    let size := result.sizes.getD axis 0
    let border ← result.slice (along rank axis (u32 (side.sliceOffset size padding)))
      (result.sizes.set axis (u32 padding))
    let neededPadding := u32 (size - padding * 2)
    let border := reverseBorder axis (padBorder offset axis side neededPadding border)
    let rest ← result.slice (along rank axis (u32 (side.resultOffset padding)))
      (result.sizes.set axis (u32 (size - padding)))
    let sum ← rest.add border
    some ⟨sum, state.used ++ usedSizes offset side size padding neededPadding⟩
  else some state

/-- What is appended in front of the dimensions, up to four. -/
def padDimStart (rank : Nat) : Nat := DmlTensorDesc.kNchwDimensionCount - rank

def padding (paddings : IndexTensor w) (padDimStart axis : Nat) : Side → Int
  | .before => if axis < padDimStart then 0 else Pad.before paddings (axis - padDimStart)
  | .after => if axis < padDimStart then 0 else Pad.after paddings (axis - padDimStart)

def foldAxis (offset : Nat) (padding : Nat → Side → Int) (state : Folding R) (axis : Nat) :
    Option (Folding R) := do
  let state ← fold offset axis .before (padding axis .before) state
  fold offset axis .after (padding axis .after) state

def inflate (count : Nat) (t : NdArray R) : NdArray R :=
  ⟨List.replicate count 1 ++ t.sizes, fun index => t.entry (index.drop count)⟩

/-- The graph of `DmlMirrorPadGradKernel`, from an input to the output that is bound. -/
def kernel (mode : MirrorPadMode) (paddings : IndexTensor w) (init : Init) (input : NdArray R) :
    Option (Folding R) := do
  if init.isIdentity then some ⟨input, []⟩
  else
    let start := padDimStart input.sizes.length
    let x := inflate start input
    let folded ← (List.range x.sizes.length).foldlM
      (foldAxis mode.offset (padding paddings start)) ⟨x, []⟩
    if folded.result.sizes = List.replicate start 1 ++ init.outputShape then
      some ⟨⟨init.outputShape, fun index => folded.result.entry (List.replicate start 0 ++ index)⟩,
        folded.used⟩
    else none

/-- The wrapper skips the kernel if there is nothing to compute; a dimension that does not fit
    in 32 bits ends the process. -/
def compute (mode : MirrorPadMode) (input : TensorShape) (paddings : IndexTensor w) (init : Init)
    (dy : List Nat → R) : Option (Folding R) :=
  if NoOpKernel.isNoOpKernel [input, paddings.shape] [init.outputShape] then
    some ⟨.const init.outputShape 0, []⟩
  else
    (DmlTensorDesc.narrowTensorShape input).bind fun inputSizes =>
      (DmlTensorDesc.narrowTensorShape init.outputShape).bind fun _ =>
        kernel mode paddings init ⟨inputSizes, dy⟩

end Kernel

end TfDml.MirrorPadGrad
