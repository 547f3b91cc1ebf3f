import TfDml.Core.NoOpKernel
import TfDml.Core.TensorShapeUtils
import TfDml.Kernels.ConvValidation

/-! # The dimensions of the gradients of a convolution

How the gradient ops verify the shapes of the forward input, of the filter and of the gradient that
comes back, and the paddings that they hand to DirectML.
-/

namespace TfDml.ConvBackprop

open Conv2D Conv3D Optimizer Optimizer.Remapper
open StridedSlice (u32)
open Stop

/-- Information about a single spatial dimension for a convolution backpropagation. The expanded
    output size and the paddings of the gradient are stored with it, but nothing reads them. -/
structure SpatialDimension where
  inputSize : Int
  filterSize : Int
  outputSize : Int
  stride : Int
  dilation : Int
  deriving DecidableEq, Inhabited

structure Dimensions where
  spatialDims : List SpatialDimension
  batchSize : Int
  inDepth : Int
  outDepth : Nat

def Dimensions.spatialDim (dims : Dimensions) (index : Nat) : SpatialDimension :=
  dims.spatialDims.getD index default

/-- `SpatialPadding`: the padding of both sides, as an `int`. -/
def SpatialDimension.padding (dim : SpatialDimension) (padding : Padding) : Int :=
  if padding = .valid then 0
  else max 0 (toInt32 ((dim.outputSize - 1) * dim.stride + (dim.filterSize - 1) * dim.dilation + 1 -
    dim.inputSize))

def entry (values : List Int) (index : Nat) : Except Stop Int :=
  match values[index]? with
  | some value => .ok value
  | none => .error .outOfRange

def getTensorSpatialDims (numDims : Nat) : TensorFormat → Nat
  | .nhwc | .nchw | .hwnc | .hwcn => numDims - 2
  | .nchwVectC | .nhwcVectW => numDims - 3

def getTensorSpatialDimIndex (numDims : Nat) (format : TensorFormat) (spatialDim : Nat) :
    Except Stop Nat := do
  check (spatialDim < getTensorSpatialDims numDims format)
  match format with
  | .nhwc | .nhwcVectW => .ok (spatialDim + 1)
  | .nchw | .nchwVectC => .ok (spatialDim + 2)
  | .hwnc | .hwcn => .ok spatialDim

/-- The three shapes of a call, and the attributes that it verifies them with. The sizes of the
    input may be negative where they come from a tensor of two values. -/
structure Shapes where
  label : String
  input : List Int
  filter : TensorShape
  outBackprop : TensorShape
  dilations : List Int
  strides : List Int
  padding : Padding
  explicitPaddings : List Int
  dataFormat : TensorFormat

/-- `ConvBackpropExtractAndVerifyDimension`; the lists have an entry for each dimension. -/
def extractAndVerifyDimension (s : Shapes) (paddingBefore paddingAfter : Int)
    (spatialDim filterSpatialDim : Nat) : Except Stop SpatialDimension := do
  let dim : SpatialDimension := {
    inputSize := s.input.getD spatialDim 0
    filterSize := (s.filter.getD filterSpatialDim 0 : Nat)
    outputSize := (s.outBackprop.getD spatialDim 0 : Nat)
    stride := s.strides.getD spatialDim 0
    dilation := s.dilations.getD spatialDim 0 }
  let windowed ← Stop.windowed dim.inputSize dim.filterSize dim.dilation dim.stride s.padding
    paddingBefore paddingAfter
  Stop.require (dim.outputSize = windowed.outputSize)
    (.invalidArgument (s.label ++ ": Size of out_backprop doesn't match computed: actual = " ++
      toString dim.outputSize ++ ", computed = " ++ toString windowed.outputSize ++
      " spatial_dim: " ++ toString spatialDim ++ " input: " ++ toString dim.inputSize ++
      " filter: " ++ toString dim.filterSize ++ " output: " ++ toString dim.outputSize ++
      " stride: " ++ toString dim.stride ++ " dilation: " ++ toString dim.dilation))
  .ok dim

def verifySpatialDim (s : Shapes) (numDims spatialDim : Nat) : Except Stop SpatialDimension := do
  let imageDim ← getTensorSpatialDimIndex numDims s.dataFormat spatialDim
  if s.padding = .explicit then do
    let paddingBefore ← entry s.explicitPaddings (2 * imageDim)
    let paddingAfter ← entry s.explicitPaddings (2 * imageDim + 1)
    extractAndVerifyDimension s paddingBefore paddingAfter imageDim spatialDim
  else extractAndVerifyDimension s (-1) (-1) imageDim spatialDim

/-- The checks of `ConvBackpropComputeDimensionsV2` before the spatial dimensions. -/
def verifyShapes (s : Shapes) (numSpatialDims : Nat) : Except Stop Unit := do
  let numDims := numSpatialDims + 2
  Stop.require (s.input.length = numDims)
    (.invalidArgument (s.label ++ ": input must be " ++ toString numDims ++ "-dimensional"))
  Stop.require (s.filter.length = numDims)
    (.invalidArgument (s.label ++ ": filter must be " ++ toString numDims ++ "-dimensional"))
  Stop.require (s.outBackprop.length = numDims)
    (.invalidArgument (s.label ++ ": out_backprop must be " ++ toString numDims ++ "-dimensional"))
  let batchDim := getTensorBatchDimIndex numDims s.dataFormat
  let batchSize := s.input.getD batchDim 0
  Stop.require (batchSize = (s.outBackprop.getD batchDim 0 : Nat))
    (.invalidArgument (s.label ++ ": input and out_backprop must have the same batch size." ++
      " Input batch: " ++ toString batchSize ++ ", outbackprop batch: " ++
      toString (s.outBackprop.getD batchDim 0) ++ ", batch_dim: " ++ toString batchDim))
  let featureDim := getTensorFeatureDimIndex numDims s.dataFormat
  let inDepth := s.input.getD featureDim 0
  let filterDepth := s.filter.getD (numDims - 2) 0
  Stop.require (0 < filterDepth)
    (.invalidArgument (s.label ++ ": filter depth must be strictly greated than zero"))
  let rest ← remainder inDepth filterDepth
  Stop.require (rest = 0)
    (.invalidArgument (s.label ++ ": input depth must be evenly divisible by filter depth"))
  Stop.require (s.filter.getD (numDims - 1) 0 = s.outBackprop.getD featureDim 0)
    (.invalidArgument (s.label ++ ": filter and out_backprop must have the same out_depth"))

/-- `ConvBackpropComputeDimensionsV2`. -/
def computeDimensionsV2 (s : Shapes) (numSpatialDims : Nat) : Except Stop Dimensions := do
  verifyShapes s numSpatialDims
  let numDims := numSpatialDims + 2
  let spatialDims ← (List.range numSpatialDims).mapM (verifySpatialDim s numDims)
  .ok {
    spatialDims := spatialDims
    batchSize := s.input.getD (getTensorBatchDimIndex numDims s.dataFormat) 0
    inDepth := s.input.getD (getTensorFeatureDimIndex numDims s.dataFormat) 0
    outDepth := s.filter.getD (numDims - 1) 0 }

def imageDim (format : TensorFormat) (spatialDim : Nat) : Nat :=
  match format with
  | .nhwc | .nhwcVectW => spatialDim + 1
  | .nchw | .nchwVectC => spatialDim + 2
  | .hwnc | .hwcn => spatialDim

theorem getTensorSpatialDimIndex_eq_ok {numDims spatialDim index : Nat} {format : TensorFormat} :
    getTensorSpatialDimIndex numDims format spatialDim = .ok index ↔
      spatialDim < getTensorSpatialDims numDims format ∧ imageDim format spatialDim = index := by
  simp only [getTensorSpatialDimIndex, bind_eq_ok, check_eq_ok, decide_eq_true_eq, exists_const]
  cases format with
  | nhwc | nhwcVectW | nchw | nchwVectC | hwnc | hwcn => simp [imageDim]

namespace Shapes

variable (s : Shapes)

def dimAt (spatialDim : Nat) : SpatialDimension where
  inputSize := s.input.getD (imageDim s.dataFormat spatialDim) 0
  filterSize := (s.filter.getD spatialDim 0 : Nat)
  outputSize := (s.outBackprop.getD (imageDim s.dataFormat spatialDim) 0 : Nat)
  stride := s.strides.getD (imageDim s.dataFormat spatialDim) 0
  dilation := s.dilations.getD (imageDim s.dataFormat spatialDim) 0

def window (spatialDim : Nat) : Except Stop WindowedOutput :=
  Stop.windowed (s.dimAt spatialDim).inputSize (s.dimAt spatialDim).filterSize
    (s.dimAt spatialDim).dilation (s.dimAt spatialDim).stride s.padding
    (s.explicitPaddings.getD (2 * imageDim s.dataFormat spatialDim) 0)
    (s.explicitPaddings.getD (2 * imageDim s.dataFormat spatialDim + 1) 0)

/-- The dimension exists, and the gradient has the size of the forward output in it. -/
def Verified (numDims spatialDim : Nat) : Prop :=
  spatialDim < getTensorSpatialDims numDims s.dataFormat ∧ (s.padding = .explicit →
      2 * imageDim s.dataFormat spatialDim + 1 < s.explicitPaddings.length) ∧
    ∃ windowed, s.window spatialDim = .ok windowed ∧
      (s.dimAt spatialDim).outputSize = windowed.outputSize

end Shapes

theorem entry_eq_ok {values : List Int} {index : Nat} {value : Int} :
    entry values index = .ok value ↔ index < values.length ∧ values.getD index 0 = value := by
  rw [entry, List.getD_eq_getElem?_getD]
  cases got : values[index]? with
  | none => simp [List.getElem?_eq_none_iff.mp got]
  | some other =>
    obtain ⟨lt, -⟩ := List.getElem?_eq_some_iff.mp got
    simp [lt]

theorem extractAndVerifyDimension_eq_ok {s : Shapes} {paddingBefore paddingAfter : Int}
    {spatialDim : Nat} {dim : SpatialDimension} :
    extractAndVerifyDimension s paddingBefore paddingAfter (imageDim s.dataFormat spatialDim)
      spatialDim = .ok dim ↔
      (∃ win, Stop.windowed (s.dimAt spatialDim).inputSize (s.dimAt spatialDim).filterSize
        (s.dimAt spatialDim).dilation (s.dimAt spatialDim).stride s.padding paddingBefore
        paddingAfter = .ok win ∧ (s.dimAt spatialDim).outputSize = win.outputSize) ∧
      s.dimAt spatialDim = dim := by
  simp only [extractAndVerifyDimension, bind_eq_ok, Stop.require_eq_ok, exists_const]
  constructor
  · rintro ⟨win, isWindowed, same, ⟨⟩⟩
    exact ⟨⟨win, isWindowed, of_decide_eq_true same⟩, rfl⟩
  · rintro ⟨⟨win, isWindowed, same⟩, rfl⟩
    exact ⟨win, isWindowed, decide_eq_true same, rfl⟩

theorem verifySpatialDim_eq_ok {s : Shapes} {numDims : Nat} (spatialDim : Nat)
    (dim : SpatialDimension) : verifySpatialDim s numDims spatialDim = .ok dim ↔
      s.Verified numDims spatialDim ∧ s.dimAt spatialDim = dim := by
  simp only [verifySpatialDim, bind_eq_ok, getTensorSpatialDimIndex_eq_ok]
  by_cases explicit : s.padding = .explicit
  · simp only [if_pos explicit, bind_eq_ok, entry_eq_ok]
    constructor
    · rintro ⟨-, ⟨lt, rfl⟩, pre, ⟨-, rfl⟩, after, ⟨enough, rfl⟩, verified⟩
      obtain ⟨window, made⟩ := extractAndVerifyDimension_eq_ok.mp verified
      exact ⟨⟨lt, fun _ => enough, window⟩, made⟩
    · rintro ⟨⟨lt, enough, window⟩, made⟩
      have enough := enough explicit
      exact ⟨_, ⟨lt, rfl⟩, _, ⟨by omega, rfl⟩, _, ⟨enough, rfl⟩,
        extractAndVerifyDimension_eq_ok.mpr ⟨window, made⟩⟩
  · simp only [if_neg explicit]
    have same (pre after : Int) : Stop.windowed (s.dimAt spatialDim).inputSize
        (s.dimAt spatialDim).filterSize (s.dimAt spatialDim).dilation (s.dimAt spatialDim).stride
        s.padding (-1) (-1) = Stop.windowed (s.dimAt spatialDim).inputSize
        (s.dimAt spatialDim).filterSize (s.dimAt spatialDim).dilation (s.dimAt spatialDim).stride
        s.padding pre after := windowed_congr explicit pre after
    constructor
    · rintro ⟨-, ⟨lt, rfl⟩, verified⟩
      obtain ⟨⟨win, isWindowed, sized⟩, made⟩ := extractAndVerifyDimension_eq_ok.mp verified
      exact ⟨⟨lt, fun absurd_ => absurd absurd_ explicit, win,
        (same _ _).symm.trans isWindowed, sized⟩, made⟩
    · rintro ⟨⟨lt, -, win, isWindowed, sized⟩, made⟩
      exact ⟨_, ⟨lt, rfl⟩, extractAndVerifyDimension_eq_ok.mpr
        ⟨⟨win, (same _ _).trans isWindowed, sized⟩, made⟩⟩

theorem computeDimensionsV2_eq_ok {s : Shapes} {numSpatialDims : Nat} {dims : Dimensions} :
    computeDimensionsV2 s numSpatialDims = .ok dims ↔ verifyShapes s numSpatialDims = .ok () ∧
        (∀ spatialDim < numSpatialDims, s.Verified (numSpatialDims + 2) spatialDim) ∧ dims = {
          spatialDims := (List.range numSpatialDims).map s.dimAt
          batchSize := s.input.getD (getTensorBatchDimIndex (numSpatialDims + 2) s.dataFormat) 0
          inDepth := s.input.getD (getTensorFeatureDimIndex (numSpatialDims + 2) s.dataFormat) 0
          outDepth := s.filter.getD (numSpatialDims + 1) 0 } := by
  simp only [computeDimensionsV2, bind_eq_ok, Lib.mapM_eq_ok verifySpatialDim_eq_ok, List.mem_range]
  constructor
  · rintro ⟨⟨⟩, shapes, -, ⟨each, rfl⟩, ⟨⟩⟩
    exact ⟨shapes, each, rfl⟩
  · rintro ⟨shapes, each, rfl⟩
    exact ⟨(), shapes, _, ⟨each, rfl⟩, rfl⟩

theorem spatialDim_range {f : Nat → SpatialDimension} {batchSize inDepth : Int}
    {outDepth numSpatialDims spatialDim : Nat} (lt : spatialDim < numSpatialDims) :
    (Dimensions.mk ((List.range numSpatialDims).map f) batchSize inDepth outDepth).spatialDim
      spatialDim = f spatialDim := by
  simp [Dimensions.spatialDim, lt]

theorem getD_map_ofNat (sizes : TensorShape) (index : Nat) :
    (sizes.map Int.ofNat).getD index 0 = (sizes.getD index 0 : Nat) := by
  rw [show (0 : Int) = Int.ofNat 0 from rfl, List.getD_map]
  rfl

structure SizesTensor where
  shape : TensorShape
  dtype : DataType
  values : List Int

/-- `TensorShapeUtils::MakeShape`, which reports what is not a shape. -/
def SizesTensor.makeShape (sizes : SizesTensor) : Except Status TensorShape := do
  opRequires (sizes.shape.length == 1)
    (.invalidArgument ("shape must be a vector of {int32,int64}, got shape " ++
      sizes.shape.debugString))
  opRequires (sizes.dtype = .int32 || sizes.dtype = .int64)
    (.invalidArgument "shape must be a vector of {int32,int64}.")
  TensorShape.makeShape sizes.shape sizes.values

def sizesOf (shape : TensorShape) : SizesTensor where
  shape := [shape.length]
  dtype := .int32
  values := shape.map Int.ofNat

/-- The entries of a value for each spatial dimension, and one for the others. -/
def fiveEntries (format : TensorFormat) (values : Spatial Int) : List Int :=
  if format = .nchw then [1, 1, values.d, values.h, values.w]
  else [1, values.d, values.h, values.w, 1]

def shapes3D (label : String) (attr : Conv3DAttributes) (input filter outBackprop : TensorShape) :
    Shapes where
  label := label
  input := input.map Int.ofNat
  filter := filter
  outBackprop := outBackprop
  dilations := fiveEntries attr.dataFormat attr.dilations
  strides := fiveEntries attr.dataFormat attr.strides
  padding := attr.padding
  explicitPaddings := []
  dataFormat := attr.dataFormat

/-- `Conv3DGradInitHelper` after the shapes are made. -/
def conv3DGrad (label : String) (attr : Conv3DAttributes) (input filter outBackprop : TensorShape) :
    Except Stop Conv3DDimensions := do
  let dims ← computeDimensionsV2 (shapes3D label attr input filter outBackprop) 3
  let spatial : Spatial SpatialDimension :=
    ⟨dims.spatialDim 0, dims.spatialDim 1, dims.spatialDim 2⟩
  let pads := spatial.map fun dim => u32 (dim.padding attr.padding)
  .ok {
    batchSize := u32 dims.batchSize
    inChannels := u32 dims.inDepth
    inSizes := spatial.map fun dim => u32 dim.inputSize
    filterChannels := u32 (filter.getD 3 0 : Nat)
    filterSizes := spatial.map fun dim => u32 dim.filterSize
    outChannels := u32 dims.outDepth
    outSizes := spatial.map fun dim => u32 dim.outputSize
    strides := attr.strides.map u32
    dilations := attr.dilations.map u32
    startPadding := pads.map fun pad => pad / 2
    endPadding := pads.map fun pad => pad / 2 + pad % 2
    outPadding := ⟨0, 0, 0⟩ }

/-- `Conv3DBackpropInput`: the input is given by its sizes. -/
def conv3DBackpropInput (attr : Conv3DAttributes) (inputSizes : SizesTensor)
    (filter outBackprop : TensorShape) : Except Stop Conv3DDimensions := do
  let input ← requireOk inputSizes.makeShape
  conv3DGrad "Conv3DBackpropInputOp" attr input filter outBackprop

/-- `Conv3DBackpropFilter`: the filter is given by its sizes. -/
def conv3DBackpropFilter (attr : Conv3DAttributes) (input : TensorShape)
    (filterSizes : SizesTensor) (outBackprop : TensorShape) : Except Stop Conv3DDimensions := do
  let filter ← requireOk filterSizes.makeShape
  conv3DGrad "Conv3DBackpropFilterOp" attr input filter outBackprop

/-- `ShapeFromFormat` of two spatial dimensions. -/
def shapeFromFormat (format : TensorFormat) (n h w c : Int) : Except Stop (List Int) :=
  match format with
  | .nhwc => .ok [n, h, w, c]
  | .nchw => .ok [n, c, h, w]
  | .hwnc => .ok [h, w, n, c]
  | .hwcn => .ok [h, w, c, n]
  | .nhwcVectW => do
    check (w.tmod 4 = 0)
    .ok [n, h, w.tdiv 4, c, 4]
  | .nchwVectC => do
    check (c.tmod 4 = 0)
    .ok [n, c.tdiv 4, h, w, 4]

def batchDimIndex (format : TensorFormat) (rank : Nat) : Nat :=
  if getTensorSpatialDims rank format = 3 then (getTensorDimIndices3 format).n
  else (getTensorDimIndices format).n

/-- `Conv2DBackpropComputeInputShape`: the sizes of all dimensions, or of the spatial ones. -/
def backpropComputeInputShape (inputSizes : SizesTensor) (filter outBackprop : TensorShape)
    (format : TensorFormat) : Except Stop (List Int) :=
  match inputSizes.shape with
  | [4] => do
    let shape ← requireOk inputSizes.makeShape
    .ok (shape.map Int.ofNat)
  | [2] => do
    let batchDim := batchDimIndex format outBackprop.length
    check (batchDim < outBackprop.length)
    let batchSize := toInt32 (outBackprop.getD batchDim 0 : Nat)
    let outputHeight ← entry inputSizes.values 0
    let outputWidth ← entry inputSizes.values 1
    let outputDepth ← entry (filter.map Int.ofNat) 2
    shapeFromFormat format batchSize outputHeight outputWidth (toInt32 outputDepth)
  | [count] => .error (.status (.invalidArgument
      ("Conv2DBackpropInput requires input_sizes to contain 4 values or 2 values, but got: " ++
        toString count)))
  | shape => .error (.status (.invalidArgument
      ("Conv2DBackpropInput: input_sizes input must be 1-dim, not " ++ toString shape.length)))

/-- What `Conv2DGradInputInitHelper` keeps of a call, in 32 bits. -/
structure GradInput where
  outputShape : List Int
  strideRows : Nat
  strideCols : Nat
  dilationRows : Nat
  dilationCols : Nat
  padRowsBefore : Nat
  padColsBefore : Nat
  padRowsAfter : Nat
  padColsAfter : Nat
  inputDepth : Nat
  patchDepth : Nat
  deriving DecidableEq

/-- The window of a dimension that was verified, once more. -/
def expectedWindow (params : Conv2DParameters) (dim : SpatialDimension)
    (dimension : DimIndices → Nat) : Except Stop WindowedOutput :=
  let index := dimension (getTensorDimIndices params.dataFormat)
  Stop.windowed dim.inputSize dim.filterSize
    (getTensorDim params.dilations params.dataFormat dimension)
    (getTensorDim params.strides params.dataFormat dimension) params.padding
    (params.explicitPaddings.getD (2 * index) 0) (params.explicitPaddings.getD (2 * index + 1) 0)

def shapes2D (params : Conv2DParameters) (input : List Int) (filter outBackprop : TensorShape) :
    Shapes where
  label := "Conv2DBackpropInput"
  input := input
  filter := filter
  outBackprop := outBackprop
  dilations := params.dilations
  strides := params.strides
  padding := params.padding
  explicitPaddings := params.explicitPaddings
  dataFormat := params.dataFormat

/-- `Conv2DGradInputInitHelper`. -/
def conv2DBackpropInput (params : Conv2DParameters) (inputSizes : SizesTensor)
    (filter outBackprop : TensorShape) : Except Stop GradInput := do
  let input ← backpropComputeInputShape inputSizes filter outBackprop params.dataFormat
  let dims ← computeDimensionsV2 (shapes2D params input filter outBackprop) 2
  let rows ← expectedWindow params (dims.spatialDim 0) DimIndices.h
  let columns ← expectedWindow params (dims.spatialDim 1) DimIndices.w
  .ok {
    outputShape := input
    strideRows := u32 (getTensorDim params.strides params.dataFormat DimIndices.h)
    strideCols := u32 (getTensorDim params.strides params.dataFormat DimIndices.w)
    dilationRows := u32 (getTensorDim params.dilations params.dataFormat DimIndices.h)
    dilationCols := u32 (getTensorDim params.dilations params.dataFormat DimIndices.w)
    padRowsBefore := u32 rows.paddingBefore
    padColsBefore := u32 columns.paddingBefore
    padRowsAfter := u32 rows.paddingAfter
    padColsAfter := u32 columns.paddingAfter
    inputDepth := u32 dims.inDepth
    patchDepth := u32 (filter.getD 2 0 : Nat) }

/-- The kernel of `Conv2DBackpropFilter` up to its dimensions. Its output has the shape of the
    filter, whose sizes are a vector; what comes back is only looked at for its rank. -/
def conv2DBackpropFilterKernel (params : Conv2DParameters)
    (input filter outBackprop : TensorShape) : Except Stop Conv2DDimensions := do
  check (input.length = 4)
  check (outBackprop.length = 4)
  check (filter.length = 4)
  ConvValidation.computeDimension params input filter

/-- `Conv2DBackpropFilter`; the kernel is not made where a tensor is empty. The sizes of the filter
    are a vector. -/
def conv2DBackpropFilter (params : Conv2DParameters) (input filter outBackprop : TensorShape) :
    Except Stop (Option Conv2DDimensions) :=
  if NoOpKernel.isNoOpKernel [input, (sizesOf filter).shape, outBackprop] [filter] then .ok none
  else some <$> conv2DBackpropFilterKernel params input filter outBackprop

end TfDml.ConvBackprop
