import TfDml.Core.DmlGraph
import TfDml.Core.NoOpKernel
import TfDml.Kernels.SimplifySlice

/-! # ExtractImagePatches and ExtractVolumePatches

Both operators check their attributes and compute the windows in `int`. The patches are gathered
with indices that are built axis by axis, from the innermost one out, and then permuted.
-/

namespace TfDml.ExtractPatches

open Lib
open DmlGraph (Expression)
open DmlTensorDesc (Addressed address create narrowTensorShape packedStrides)
open StridedSlice (i32 u32)

inductive Op where
  | image
  | volume
  deriving DecidableEq

def Op.spatialDims : Op → Nat
  | .image => 2
  | .volume => 3

inductive Rejection where
  | unimplemented (message : String)
  | outOfRange (message : String)
  | reported (status : Status)
  deriving DecidableEq

structure Arguments where
  op : Op
  ksizes : List Int
  strides : List Int
  rates : List Int
  padding : Padding
  input : TensorShape

def middle {β : Type} (l : List β) : List β := l.tail.dropLast

def requires (condition : Bool) (rejection : Rejection) : Except Rejection Unit :=
  if condition then .ok () else .error rejection

/-- `ParseAttributeVec4` and `ParseAttributeVec5`, for a vector of as many entries. -/
def parseAttributeVec (attrName : String) (attr : List Int) : Except Rejection (List Nat) := do
  requires (attr.head? = some 1 && attr.getLast? = some 1)
    (.unimplemented s!"Only support {attrName} across space.")
  requires ((middle attr).all (1 ≤ ·)) (.outOfRange s!"{attrName} is out of range.")
  return attr.map u32

structure Attributes where
  ksizes : List Nat
  strides : List Nat
  rates : List Nat
  deriving DecidableEq

/-- The constructors of the attributes. Volumes have no rates. -/
def attributes (args : Arguments) : Except Rejection Attributes := do
  let ksizes ← parseAttributeVec "ksizes" args.ksizes
  let strides ← parseAttributeVec "strides" args.strides
  match args.op with
  | .image => do
    let rates ← parseAttributeVec "rates" args.rates
    return ⟨ksizes, strides, rates⟩
  | .volume => return ⟨ksizes, strides, [1, 1, 1, 1, 1]⟩

/-- An `int` result; nothing on signed overflow. -/
def int (n : Int) : Option Int := if -2 ^ 31 ≤ n ∧ n < 2 ^ 31 then some n else none

/-- `ksize_rows_eff` and `ksize_cols_eff` -/
def ksizeEff (ksize rate : Int) : Option Int := do
  let reach ← int (ksize - 1)
  let gap ← int (rate - 1)
  let holes ← int (reach * gap)
  int (ksize + holes)

/-- The size of a window; volumes have no rates. -/
def filterSize (op : Op) (ksize rate : Nat) : Option Int :=
  match op with
  | .image => ksizeEff (i32 ksize) (i32 rate)
  | .volume => some (i32 ksize)

/-- `GetWindowedOutputSizeVerbose` of an axis, for the size of its windows. -/
def windowedOutput (padding : Padding) (axis : (Nat × Nat) × Int) :
    Option (Except Status WindowedOutput) :=
  getWindowedOutputSizeVerboseV2 (i32 axis.1.1) axis.2 1 (i32 axis.1.2) padding 0 0

/-- The windows of all axes, up to the first error. -/
def windowedOutputs (padding : Padding) :
    List ((Nat × Nat) × Int) → Option (Except Status (List WindowedOutput))
  | [] => some (.ok [])
  | axis :: rest => do
    match ← windowedOutput padding axis with
    | .error status => return .error status
    | .ok windowed =>
      match ← windowedOutputs padding rest with
      | .error status => return .error status
      | .ok others => return .ok (windowed :: others)

structure Init where
  outputShape : List Int
  startPadding : List Nat
  endPadding : List Nat
  deriving DecidableEq

def wrongRank (op : Op) (input : TensorShape) : Status :=
  .invalidArgument s!"input must be {op.spatialDims + 2}-dimensional{input.debugString}"

/-- `ExtractImagePatchesInitHelper` and `ExtractVolumePatchesInitHelper` -/
def initHelper (args : Arguments) (attr : Attributes) : Option (Except Status Init) :=
  if args.input.length ≠ args.op.spatialDims + 2 then
    some (.error (wrongRank args.op args.input))
  else do
    let batch := i32 (args.input.getD 0 0)
    let depth := i32 (args.input.getD (args.op.spatialDims + 1) 0)
    let ksizes := middle attr.ksizes
    let filters ← (ksizes.zip (middle attr.rates)).mapM fun axis =>
      filterSize args.op axis.1 axis.2
    match ← windowedOutputs args.padding
        (((middle args.input).zip (middle attr.strides)).zip filters) with
    | .error status => return .error status
    | .ok windows =>
      let channels ← (ksizes.map (fun ksize : Nat => i32 ksize) ++ [depth]).foldlM
        (fun (n : Int) k => int (n * k)) 1
      return .ok
        ⟨[batch] ++ windows.map WindowedOutput.outputSize ++ [channels],
          [0] ++ windows.map (fun window => u32 window.paddingBefore) ++ [0],
          [0] ++ windows.map (fun window => u32 window.paddingAfter) ++ [0]⟩

structure PatchAxis where
  windowSize : Nat
  windowStride : Nat
  windowRate : Nat
  outSize : Nat
  paddedSize : Nat

/-- `global_indices` of an axis. -/
def PatchAxis.globalIndices (stepMultiplier : Nat) (axis : PatchAxis) : Option (Expression Nat) :=
  let patchStep := stepMultiplier * axis.windowStride % 2 ^ 32
  let elementStep := stepMultiplier * axis.windowRate % 2 ^ 32
  if 1 < axis.outSize ∧ 1 < axis.windowSize then do
    let patchIndices := Expression.sequence patchStep [1, 1, axis.outSize, 1]
    let patchIndices := patchIndices.tile [1, 1, 1, axis.windowSize]
    let relativeElementIndices := Expression.sequence elementStep [1, 1, 1, axis.windowSize]
    let relativeElementIndices ← relativeElementIndices.reinterpret
      [1, 1, axis.outSize, axis.windowSize] (some [0, 0, 0, 1])
    patchIndices.add relativeElementIndices
  else if 1 < axis.outSize then some (Expression.sequence patchStep [1, 1, axis.outSize, 1])
  else if 1 ≤ axis.windowSize then some (Expression.sequence elementStep [1, 1, 1, axis.windowSize])
  else none

/-- The first loop, with `step_multiplier` after it. -/
def globalIndices : List PatchAxis → Option (List (Expression Nat) × Nat)
  | [] => some ([], 1)
  | axis :: inner => do
    let (rest, stepMultiplier) ← globalIndices inner
    let indices ← axis.globalIndices stepMultiplier
    return (indices :: rest, stepMultiplier * axis.paddedSize % 2 ^ 32)

structure Broadcasted where
  sizes : List Nat
  strides : List Nat
  runningStride : Nat
  indices : Option (Expression Nat)

def Broadcasted.visit (dimCount i : Nat) (indices : Expression Nat) (b : Broadcasted) :
    Option Broadcasted := do
  let length := indices.sizes.getD 3 0 * indices.sizes.getD 2 0 % 2 ^ 32
  let sizes := b.sizes.set (i + 1) length
  let strides := (List.replicate dimCount 0).set (i + 1) 1
  let broadcasted ← indices.reinterpret sizes (some strides)
  let sum ← match b.indices with
    | none => some broadcasted
    | some inner => do
      let inner ← inner.reinterpret sizes (some b.strides)
      inner.add broadcasted
  return ⟨sizes, b.strides.set (i + 1) b.runningStride, b.runningStride * length % 2 ^ 32, some sum⟩

/-- The second loop, from the innermost axis out. -/
def broadcastIndices (dimCount : Nat) : Nat → List (Expression Nat) → Option Broadcasted
  | _, [] => some ⟨List.replicate dimCount 1, List.replicate dimCount 0, 1, none⟩
  | i, indices :: inner => do
    let b ← broadcastIndices dimCount (i + 1) inner
    b.visit dimCount i indices

/-- `broadcasted_global_indices` as one row, and its length. -/
def gatherIndices (axes : List PatchAxis) : Option (Expression Nat × Nat) := do
  let (indices, _) ← globalIndices axes
  let b ← broadcastIndices (axes.length + 2) 0 indices
  let row ← (← b.indices).reinterpret [1, 1, 1, b.runningStride] none
  return (row, b.runningStride)

def everySecond {β : Type} : List β → List β
  | x :: _ :: rest => x :: everySecond rest
  | l => l

/-- `perm_sizes` and `perm_strides`: the output axes, before the windows' ones. -/
def permute (l : List Nat) : List Nat :=
  l.take 1 ++ everySecond (middle l) ++ everySecond (middle l).tail ++ l.drop (l.length - 1)

def isIdentity (windowSizes windowStrides : List Nat) : Bool :=
  windowSizes.all (· == 1) && windowStrides.all (· == 1)

def needPadding (startPadding endPadding : List Nat) : Bool :=
  startPadding.any (· != 0) || endPadding.any (· != 0)

def patchAxes (attr : Attributes) (outputSizes paddedSizes : List Nat) : List PatchAxis :=
  (List.range (attr.ksizes.length - 2)).map fun i =>
    ⟨attr.ksizes.getD (i + 1) 0, attr.strides.getD (i + 1) 0, attr.rates.getD (i + 1) 0,
      outputSizes.getD (i + 1) 0, paddedSizes.getD (i + 1) 0⟩

section Patches

variable {α : Type} [Zero α]

/-- The part of `dml::ExtractPatches` after the padding. -/
def gatherPatches (input : Expression α) (axes : List PatchAxis) : Option (Expression α) := do
  let front := input.sizes.headD 0
  let back := input.sizes.getLastD 0
  let (row, runningStride) ← gatherIndices axes
  let spatialInputSize := (middle input.sizes).foldl (fun n size => n * size % 2 ^ 32) 1
  let reshapedInput ← input.reinterpret [1, front, spatialInputSize, back] none
  let positions ← row.reinterpret [1, front, runningStride, back] (some [0, 0, 1, 0])
  let gathered := reshapedInput.gatherElements positions 2
  let sizes := [front] ++ axes.flatMap (fun axis => [axis.outSize, axis.windowSize]) ++ [back]
  let permuted ← gathered.reinterpret (permute sizes) (some (permute (packedStrides sizes)))
  return permuted.identity

def extractPatches (input : Expression α) (attr : Attributes) (startPadding endPadding : List Nat)
    (outputSizes : List Nat) : Option (Expression α) :=
  if isIdentity attr.ksizes attr.strides then some input.identity
  else do
    let input ←
      if needPadding startPadding endPadding then input.padding 0 startPadding endPadding
      else some input
    gatherPatches input (patchAxes attr outputSizes input.sizes)

/-- `DmlExtractImagePatchesKernel` and `DmlExtractVolumePatchesKernel` -/
def kernel (input output : TensorShape) (attr : Attributes) (init : Init) (values : List α) :
    Option (Expression α) := do
  let outputSizes ← narrowTensorShape output
  let desc ← create input input
  let _ ← create output output
  extractPatches ⟨desc.sizes, some desc.strides, values.map some⟩ attr init.startPadding
    init.endPadding outputSizes

/-- The constructors. Without a result, an `int` overflows. -/
def construct (args : Arguments) : Option (Except Rejection (Attributes × Init)) :=
  match attributes args with
  | .error rejection => some (.error rejection)
  | .ok attr => do
    match ← initHelper args attr with
    | .error status => return .error (.reported status)
    | .ok init => return .ok (attr, init)

/-- `Compute`. Without a result, an `int` overflows, no tensor has the output's shape, or a `CHECK`
    fails. -/
def compute (args : Arguments) (values : List α) : Option (Except Rejection (List (Option α))) := do
  match ← construct args with
  | .error rejection => return .error rejection
  | .ok (attr, init) =>
    if init.outputShape.all (0 ≤ ·) then
      let output : TensorShape := init.outputShape.map Int.toNat
      if NoOpKernel.isNoOpKernel [args.input] [output] then
        return .ok (NoOpKernel.zeroed output)
      else
        let result ← kernel args.input output attr init values
        return .ok result.buffer
    else none

end Patches

end TfDml.ExtractPatches
