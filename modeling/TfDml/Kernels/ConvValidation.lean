import TfDml.Kernels.Conv3D
import TfDml.Kernels.DepthwiseConv2D
import Mathlib.Algebra.BigOperators.Ring.List

/-! # What the convolutions accept

`Conv2D`, `DepthwiseConv2dNative` and `Conv3D` check the same kind of arguments, each in its own
order. Which calls each of them refuses, and that none of the checks divides by zero.
-/

namespace TfDml.ConvValidation

open List
open Conv2D Optimizer Optimizer.Remapper
open Stop

def Fits32 (n : Int) : Prop := -2 ^ 31 ≤ n ∧ n < 2 ^ 31

instance (n : Int) : Decidable (Fits32 n) := inferInstanceAs (Decidable (_ ∧ _))

theorem ones_length : ([1, 1, 1, 1] : List Int).length = 4 := rfl

theorem ones_fits32 : ∀ one ∈ ([1, 1, 1, 1] : List Int), Fits32 one := by decide

theorem size_pos {shape : TensorShape} (xs : 0 < shape.numElements) {index : Nat}
    (lt : index < shape.length) : 0 < shape.getD index 0 := by
  rw [getD_eq_getElem _ _ lt]
  exact Nat.pos_of_ne_zero fun zero => xs.ne' (prod_eq_zero (zero ▸ getElem_mem _))

/-- A call of `Conv2D` or of `DepthwiseConv2dNative`. -/
structure Call2D where
  strides : List Int
  dilations : List Int
  dataFormat : TensorFormat
  padding : Padding
  explicitPaddings : List Int
  input : TensorShape
  filter : TensorShape
  strides_length : strides.length = 4
  dilations_length : dilations.length = 4
  strides_int32 : ∀ stride ∈ strides, Fits32 stride
  dilations_int32 : ∀ dilation ∈ dilations, Fits32 dilation
  filter_sized : filter.numElements < 2 ^ 63

def formatName : TensorFormat → String
  | .nhwc => "NHWC"
  | .nchw => "NCHW"
  | .nchwVectC => "NCHW_VECT_C"
  | .nhwcVectW => "NHWC_VECT_W"
  | .hwnc => "HWNC"
  | .hwcn => "HWCN"

/-- The value of the attribute `padding`. -/
def paddingName : Padding → String
  | .same => "SAME"
  | .valid => "VALID"
  | .explicit => "EXPLICIT"

theorem formatFromString_formatName (format : TensorFormat) :
    formatFromString (formatName format) = some format := by
  cases format with
  | nhwc | nchw | nchwVectC | nhwcVectW | hwnc | hwcn => decide

theorem getPaddingFromString_paddingName (padding : Padding) :
    getPaddingFromString (paddingName padding) = some padding := by
  cases padding with
  | same | valid | explicit => decide

namespace Call2D

variable (c : Call2D)

def stride (dimension : DimIndices → Nat) : Int := getTensorDim c.strides c.dataFormat dimension

def dilation (dimension : DimIndices → Nat) : Int := getTensorDim c.dilations c.dataFormat dimension

def inputSize (dimension : DimIndices → Nat) : Nat := getTensorDim c.input c.dataFormat dimension

def filterSize (index : Nat) : Int := (c.filter.getD index 0 : Nat)

/-- The explicit padding before a dimension, and after it. -/
def paddingBefore (dimension : DimIndices → Nat) : Int :=
  c.explicitPaddings.getD (2 * dimension (getTensorDimIndices c.dataFormat)) 0

def paddingAfter (dimension : DimIndices → Nat) : Int :=
  c.explicitPaddings.getD (2 * dimension (getTensorDimIndices c.dataFormat) + 1) 0

def numGroups : Int := (c.inputSize DimIndices.c / c.filter.getD 2 0 : Nat)

/-- The output size that is computed of a dimension, for a filter of the size. -/
def outputSize (filterSize : Int) (dimension : DimIndices → Nat) : Int :=
  (windowedOutput (c.inputSize dimension) filterSize (c.dilation dimension) (c.stride dimension)
    c.padding (c.paddingBefore dimension) (c.paddingAfter dimension)).outputSize

def PaddedFits (filterSize : Int) (dimension : DimIndices → Nat) : Prop :=
  c.padding = .explicit → WindowFits (c.inputSize dimension) filterSize (c.dilation dimension)
    (c.stride dimension) c.padding (c.paddingBefore dimension) (c.paddingAfter dimension)

/-- The arguments that every convolution needs; `Depths` relates the depths of the input and of
    the filter. -/
structure Valid (Depths : Nat → Nat → Prop) (filterRows filterCols : Int) : Prop where
  strides : c.stride DimIndices.n = 1 ∧ c.stride DimIndices.c = 1 ∧
    0 < c.stride DimIndices.h ∧ 0 < c.stride DimIndices.w
  dilations : c.dilation DimIndices.n = 1 ∧ c.dilation DimIndices.c = 1 ∧
    0 < c.dilation DimIndices.h ∧ 0 < c.dilation DimIndices.w
  ranks : c.input.length = 4 ∧ c.filter.length = 4
  elements : 0 < c.filter.numElements
  depths : Depths (c.inputSize DimIndices.c) (c.filter.getD 2 0)
  sizes : 0 ≤ c.outputSize filterRows DimIndices.h ∧ 0 ≤ c.outputSize filterCols DimIndices.w

/-- Explicit paddings are eight, not negative, and zero for the batch and the depth; there are none
    for another padding. -/
def ValidPaddings : Prop :=
  if c.padding = .explicit then
    c.explicitPaddings.length = 8 ∧ (∀ amount ∈ c.explicitPaddings, 0 ≤ amount) ∧
      ∀ index, (index = getTensorBatchDimIndex 4 c.dataFormat ∨
          index = getTensorFeatureDimIndex 4 c.dataFormat) →
        c.explicitPaddings.getD (2 * index) 0 = 0 ∧ c.explicitPaddings.getD (2 * index + 1) 0 = 0
  else c.explicitPaddings = []

structure Conv2DLimits : Prop where
  paddings : c.ValidPaddings
  filterSizes : ∀ size ∈ c.filter.take 3, size < intMax
  inputSizes : c.inputSize DimIndices.n < intMax ∧ c.inputSize DimIndices.h < intMax ∧
    c.inputSize DimIndices.w < intMax ∧ c.inputSize DimIndices.c < intMax
  groups : 0 < c.inputSize DimIndices.c
  outDepth : c.numGroups ∣ toInt32 (c.filter.getD 3 0 : Nat) ∧
    c.numGroups ≤ toInt32 (c.filter.getD 3 0 : Nat)

def Conv2DAccepts : Prop :=
  c.Valid (fun input filter => filter ∣ input) (c.filterSize 0) (c.filterSize 1) ∧ c.Conv2DLimits

structure DepthwiseLimits : Prop where
  paddings : c.ValidPaddings
  inputSizes : c.inputSize DimIndices.h < intMax ∧ c.inputSize DimIndices.w < intMax

/-- What `DepthwiseConv2dNative` needs of a call. The sizes of the filter are stored in 32 bits. -/
def DepthwiseAccepts : Prop :=
  c.Valid (fun input filter => input = filter) (toInt32 (c.filterSize 0))
    (toInt32 (c.filterSize 1)) ∧ c.DepthwiseLimits

def attributes : Conv2DAttributes where
  dilations := c.dilations
  strides := c.strides
  padding := paddingName c.padding
  explicitPaddings := c.explicitPaddings
  dataFormat := formatName c.dataFormat

/-- The attributes that are read; `padding` is always an allowed one here. -/
def parameters : Except Status Conv2DParameters :=
  match initConv2DParameters c.attributes with
  | some result => result
  | none => .error (.invalidArgument (paddingName c.padding ++ " is not an allowed padding type"))

end Call2D

/-- The checks of `ComputeConv2DDimension` on the two shapes, with their divisions written out. -/
def checkShapes (params : Conv2DParameters) (input filter : TensorShape) : Except Stop Unit := do
  Stop.require (input.length = 4)
    (.invalidArgument ("input must be 4-dimensional" ++ input.debugString))
  Stop.require (filter.length = 4)
    (.invalidArgument ("filter must be 4-dimensional: " ++ filter.debugString))
  Stop.require ((filter.take 3).all (· < intMax)) (.invalidArgument "filter too large")
  let inDepth := getTensorDim input params.dataFormat DimIndices.c
  let patchDepth := filter.getD 2 0
  Stop.require (inDepth < intMax) (.invalidArgument "Input depth too large")
  Stop.require (patchDepth < intMax) (.invalidArgument "Patch depth too large")
  Stop.require (0 < patchDepth)
    (.invalidArgument ("filter depth must be stricly positive, got " ++ toString patchDepth))
  let rest ← remainder inDepth patchDepth
  Stop.require (rest = 0)
    (.invalidArgument ("input depth must be evenly divisible by filter depth: " ++
      toString inDepth ++ " vs " ++ toString patchDepth))
  Stop.require (0 < filter.numElements)
    (.invalidArgument ("filter must not have zero elements (i.e. all dimensions must be " ++
      "non-zero)"))
  let numGroups ← quotient inDepth patchDepth
  Stop.require (0 < numGroups)
    (.invalidArgument ("number of groups must be stricly positive, got " ++ toString numGroups))
  let outDepth := toInt32 (filter.getD 3 0 : Nat)
  let rest ← remainder outDepth numGroups
  Stop.require (rest = 0 && numGroups ≤ outDepth)
    (.invalidArgument ("output depth must be evenly divisible by number of groups: " ++
      toString outDepth ++ " vs " ++ toString numGroups))
  Stop.require (getTensorDim input params.dataFormat DimIndices.h < intMax)
    (.invalidArgument "Input rows too large")
  Stop.require (getTensorDim input params.dataFormat DimIndices.w < intMax)
    (.invalidArgument "Input cols too large")
  Stop.require (getTensorDim input params.dataFormat DimIndices.n < intMax)
    (.invalidArgument "batch is too large")

theorem checkShapes_eq (params : Conv2DParameters) (input filter : TensorShape) :
    checkShapes params input filter = requireOk (checkConv2DShapes params input filter) := by
  simp only [checkShapes, checkConv2DShapes, requireOk_bind, requireOk_opRequires]
  refine require_bind_congr fun _ => require_bind_congr fun _ =>
    require_bind_congr fun _ => require_bind_congr fun _ =>
    require_bind_congr fun _ => require_bind_congr fun pos => ?_
  have dvd : 0 < filter.getD 2 0 := by simpa using pos
  rw [remainder_natCast dvd, ok_bind]
  simp only [Int.natCast_eq_zero]
  refine require_bind_congr fun _ => require_bind_congr fun _ => ?_
  rw [quotient_natCast dvd, ok_bind]
  refine require_bind_congr fun groups => ?_
  rw [remainder_of_pos (by simpa using groups), ok_bind]

def dimensionWindow (params : Conv2DParameters) (input : TensorShape) (filterSize : Nat)
    (dimension : DimIndices → Nat) : Except Stop WindowedOutput :=
  let index := dimension (getTensorDimIndices params.dataFormat)
  windowed (getTensorDim input params.dataFormat dimension : Nat) filterSize
    (getTensorDim params.dilations params.dataFormat dimension)
    (getTensorDim params.strides params.dataFormat dimension) params.padding
    (params.explicitPaddings.getD (2 * index) 0) (params.explicitPaddings.getD (2 * index + 1) 0)

/-- `ComputeConv2DDimension`, with its divisions written out. -/
def computeDimension (params : Conv2DParameters) (input filter : TensorShape) :
    Except Stop Conv2DDimensions := do
  checkShapes params input filter
  let rows ← dimensionWindow params input (filter.getD 0 0) DimIndices.h
  let columns ← dimensionWindow params input (filter.getD 1 0) DimIndices.w
  .ok (conv2DDimensions params input filter rows columns)

theorem dimensionWindow_eq {params : Conv2DParameters} {input : TensorShape} {filterSize : Nat}
    {dimension : DimIndices → Nat} : dimensionWindow params input filterSize dimension =
      requireChecked (conv2DWindow params input filterSize dimension) := windowed_eq

theorem computeDimension_eq (params : Conv2DParameters) (input filter : TensorShape) :
    computeDimension params input filter =
      requireChecked (computeConv2DDimension params input filter) := by
  rw [computeDimension, checkShapes_eq, computeConv2DDimension, dimensionWindow_eq,
    dimensionWindow_eq]
  cases checkConv2DShapes params input filter with
  | error err => rfl
  | ok done =>
    cases conv2DWindow params input (filter.getD 0 0) DimIndices.h with
    | none => rfl
    | some rows =>
      cases rows with
      | error err => rfl
      | ok rows =>
        cases conv2DWindow params input (filter.getD 1 0) DimIndices.w with
        | none => rfl
        | some cols =>
          cases cols with
          | error err => rfl
          | ok cols => rfl

namespace Call2D

variable (c : Call2D)

def params : Conv2DParameters :=
  ⟨c.dilations, c.strides, c.padding, c.explicitPaddings, c.dataFormat⟩

/-- `Conv2D`, from its attributes to the dimensions of the convolution. -/
def conv2D : Except Stop Conv2DDimensions := do
  let params ← requireOk c.parameters
  computeDimension params c.input c.filter

/-- `DepthwiseConv2dNative`. -/
def depthwise : Except Stop DepthwiseConv2D.Dimensions := do
  let attr ← requireOk (DepthwiseConv2D.attributes
    ⟨c.strides, c.dilations, formatName c.dataFormat, c.padding, c.explicitPaddings⟩)
  DepthwiseConv2D.dimensions attr c.input c.filter

variable {c}

variable {size : Int} {dimension : DimIndices → Nat}

theorem checkValidPadding_eq_ok :
    checkValidPadding c.padding c.explicitPaddings 4 c.dataFormat = .ok () ↔ c.ValidPaddings := by
  unfold checkValidPadding ValidPaddings
  split
  · simp only [bind_eq_ok, opRequires_eq_ok]
    simp [and_assoc]
  · simp

theorem parameters_eq_ok {params : Conv2DParameters} : c.parameters = .ok params ↔
      (c.stride DimIndices.n = 1 ∧ c.stride DimIndices.c = 1 ∧ 0 < c.stride DimIndices.h ∧
        0 < c.stride DimIndices.w) ∧ (c.dilation DimIndices.n = 1 ∧ c.dilation DimIndices.c = 1 ∧
        0 < c.dilation DimIndices.h ∧ 0 < c.dilation DimIndices.w) ∧ c.ValidPaddings ∧
      params = c.params := by
  have format : c.attributes.dataFormat = formatName c.dataFormat := rfl
  have padding : c.attributes.padding = paddingName c.padding := rfl
  simp only [parameters, initConv2DParameters, padding, getPaddingFromString_paddingName, format,
    formatFromString_formatName, Option.map_some, bind_eq_ok, opRequires_eq_ok,
    ← checkValidPadding_eq_ok, Bool.and_eq_true, decide_eq_true_eq]
  constructor
  · rintro ⟨-, -, -, -, -, strides, -, spatialStrides, -, dilations, -, spatialDilations, ⟨⟩,
      paddings, ⟨⟩⟩
    exact ⟨⟨strides.1, strides.2, spatialStrides⟩, ⟨dilations.1, dilations.2, spatialDilations⟩,
      paddings, rfl⟩
  · rintro ⟨⟨strideN, strideC, spatialStrides⟩, ⟨dilationN, dilationC, spatialDilations⟩,
      paddings, rfl⟩
    exact ⟨(), c.dilations_length, (), c.strides_length, (), ⟨strideN, strideC⟩, (),
      spatialStrides, (), ⟨dilationN, dilationC⟩, (), spatialDilations, (), paddings, rfl⟩

theorem checkShapes_eq_ok : checkShapes c.params c.input c.filter = .ok () ↔
      (c.input.length = 4 ∧ c.filter.length = 4) ∧ 0 < c.filter.numElements ∧
      c.filter.getD 2 0 ∣ c.inputSize DimIndices.c ∧ (∀ size ∈ c.filter.take 3, size < intMax) ∧
      (c.inputSize DimIndices.n < intMax ∧ c.inputSize DimIndices.h < intMax ∧
        c.inputSize DimIndices.w < intMax ∧ c.inputSize DimIndices.c < intMax) ∧
      0 < c.inputSize DimIndices.c ∧ c.numGroups ∣ toInt32 (c.filter.getD 3 0 : Nat) ∧
      c.numGroups ≤ toInt32 (c.filter.getD 3 0 : Nat) := by
  rw [checkShapes_eq, requireOk_eq_ok]
  simp only [checkConv2DShapes, bind_eq_ok, opRequires_eq_ok, decide_eq_true_eq, Bool.and_eq_true,
    List.all_eq_true]
  have groups : ((getTensorDim c.input c.params.dataFormat DimIndices.c : Nat) : Int) /
      (c.filter.getD 2 0 : Nat) = c.numGroups := by
    rw [numGroups, Int.natCast_ediv]
    rfl
  constructor
  · rintro ⟨-, input, -, filter, -, sizes, -, depth, -, -, -, patch, -, dvd, -, xs, -,
      some_, -, outDepth, -, rows, -, cols, batch⟩
    rw [groups] at some_ outDepth
    refine ⟨⟨input, filter⟩, xs, Nat.dvd_of_mod_eq_zero dvd, sizes,
      ⟨batch, rows, cols, depth⟩, ?_, Int.dvd_of_tmod_eq_zero outDepth.1, outDepth.2⟩
    rw [numGroups, Int.natCast_pos] at some_
    exact (Nat.div_pos_iff.mp some_).1.trans_le (Nat.div_pos_iff.mp some_).2
  · rintro ⟨⟨input, filter⟩, xs, dvd, sizes, ⟨batch, rows, cols, depth⟩, some_, outDepth⟩
    have patch : 0 < c.filter.getD 2 0 := size_pos xs (by omega)
    have patchSmall : c.filter.getD 2 0 < intMax := sizes _ (by
      rw [getD_eq_getElem _ _ (by omega), mem_take_iff_getElem]
      exact ⟨2, by omega, rfl⟩)
    have enough := Nat.le_of_dvd some_ dvd
    rw [groups]
    refine ⟨(), input, (), filter, (), sizes, (), depth, (), patchSmall, (), patch, (),
      Nat.mod_eq_zero_of_dvd dvd, (), xs, (), ?_, (),
      ⟨Int.tmod_eq_zero_of_dvd outDepth.1, outDepth.2⟩, (), rows, (), cols, batch⟩
    rw [numGroups, Int.natCast_pos]
    exact Nat.div_pos enough patch

theorem fits32_getD {values : List Int} (each : ∀ value ∈ values, Fits32 value) (index : Nat) :
    Fits32 (values.getD index 0) := by
  rw [getD_eq_getElem?_getD]
  cases got : values[index]? with
  | none => decide
  | some value => exact each value (mem_of_getElem? got)

theorem windowFits (fits : c.PaddedFits size dimension)
    (sized : c.inputSize dimension < intMax) (filtered : Fits32 size)
    (dilated : 0 < c.dilation dimension) (strided : 0 < c.stride dimension) :
    WindowFits (c.inputSize dimension) size (c.dilation dimension) (c.stride dimension)
      c.padding (c.paddingBefore dimension) (c.paddingAfter dimension) := by
  by_cases explicit : c.padding = .explicit
  · exact fits explicit
  · have dilation : Fits32 (c.dilation dimension) := fits32_getD c.dilations_int32 _
    have stride : Fits32 (c.stride dimension) := fits32_getD c.strides_int32 _
    simp only [intMax] at sized
    exact windowFits_of_int32 (by omega) filtered ⟨dilated, dilation.2⟩ ⟨strided, stride.2⟩
      explicit

theorem filterSize_fits (ranks : c.filter.length = 4)
    (small : ∀ size ∈ c.filter.take 3, size < intMax) {index : Nat} (lt : index < 3) :
    Fits32 (c.filterSize index) := by
  have mem : c.filter.getD index 0 ∈ c.filter.take 3 := by
    rw [getD_eq_getElem _ _ (by omega), mem_take_iff_getElem]
    exact ⟨index, by omega, rfl⟩
  have less := small _ mem
  simp only [intMax] at less
  exact ⟨by simp only [filterSize]; omega, by simp only [filterSize]; omega⟩

theorem conv2D_returns (rowsFit : c.PaddedFits (c.filterSize 0) DimIndices.h)
    (columnsFit : c.PaddedFits (c.filterSize 1) DimIndices.w) :
    (∃ dims, c.conv2D = .ok dims) ↔ c.Conv2DAccepts := by
  simp only [conv2D, computeDimension, bind_eq_ok, requireOk_eq_ok]
  constructor
  · rintro ⟨dims, params, attrs, ⟨⟩, shapes, rows, isRows, cols, isColumns, -⟩
    obtain ⟨strides, dilations, paddings, rfl⟩ := parameters_eq_ok.mp attrs
    obtain ⟨ranks, xs, dvd, filters, inputs, some_, groups⟩ := checkShapes_eq_ok.mp shapes
    obtain ⟨-, -, -, rowsSized⟩ := exists_windowed.mp ⟨rows, isRows⟩
    obtain ⟨-, -, -, columnsSized⟩ := exists_windowed.mp ⟨cols, isColumns⟩
    exact ⟨⟨strides, dilations, ranks, xs, dvd, rowsSized, columnsSized⟩,
      ⟨paddings, filters, inputs, some_, groups⟩⟩
  · rintro ⟨valid, limits⟩
    have shapes := checkShapes_eq_ok.mpr ⟨valid.ranks, valid.elements, valid.depths,
      limits.filterSizes, limits.inputSizes, limits.groups, limits.outDepth⟩
    have filterFits (index : Nat) (lt : index < 3) :=
      filterSize_fits valid.ranks.2 limits.filterSizes lt
    obtain ⟨-, -, strideH, strideW⟩ := valid.strides
    obtain ⟨-, -, dilationH, dilationW⟩ := valid.dilations
    obtain ⟨rows, isRows⟩ := exists_windowed.mpr ⟨strideH, dilationH,
      windowFits rowsFit limits.inputSizes.2.1 (filterFits 0 (by omega)) dilationH strideH,
      valid.sizes.1⟩
    obtain ⟨cols, isColumns⟩ := exists_windowed.mpr ⟨strideW, dilationW,
      windowFits columnsFit limits.inputSizes.2.2.1 (filterFits 1 (by omega)) dilationW strideW,
      valid.sizes.2⟩
    exact ⟨_, c.params, parameters_eq_ok.mpr ⟨valid.strides, valid.dilations, limits.paddings,
      rfl⟩, (), shapes, rows, isRows, cols, isColumns, rfl⟩

theorem orderly_conv2D (rowsFit : c.PaddedFits (c.filterSize 0) DimIndices.h)
    (columnsFit : c.PaddedFits (c.filterSize 1) DimIndices.w) : Stop.Orderly c.conv2D := by
  refine orderly_bind orderly_requireOk fun params isParams => ?_
  obtain ⟨strides, dilations, paddings, rfl⟩ := parameters_eq_ok.mp (requireOk_eq_ok.mp isParams)
  refine orderly_bind (by rw [checkShapes_eq]; exact orderly_requireOk)
    fun _ shapes => ?_
  obtain ⟨ranks, -, -, filters, inputs, -⟩ := checkShapes_eq_ok.mp shapes
  have filterFits (index : Nat) (lt : index < 3) := filterSize_fits ranks.2 filters lt
  refine orderly_bind (orderly_windowed fun strided dilated => windowFits rowsFit
    inputs.2.1 (filterFits 0 (by omega)) dilated strided) fun rows _ => ?_
  refine orderly_bind (orderly_windowed fun strided dilated => windowFits columnsFit
    inputs.2.2.1 (filterFits 1 (by omega)) dilated strided) fun cols _ => ?_
  exact orderly_ok

theorem conv2D_ne_divisionByZero : c.conv2D ≠ .error .divisionByZero := by
  refine bind_ne_error requireOk_ne_divisionByZero fun params _ => ?_
  rw [computeDimension_eq]
  exact requireChecked_ne_divisionByZero

def depthwiseAttributes (c : Call2D) : DepthwiseConv2D.Attributes where
  dataFormat := c.dataFormat
  padding := c.padding
  strideH := c.stride DimIndices.h
  strideW := c.stride DimIndices.w
  dilationH := c.dilation DimIndices.h
  dilationW := c.dilation DimIndices.w
  explicitPaddings := c.explicitPaddings

theorem depthwiseAttributes_eq_ok {attr : DepthwiseConv2D.Attributes} : DepthwiseConv2D.attributes
      ⟨c.strides, c.dilations, formatName c.dataFormat, c.padding, c.explicitPaddings⟩ = .ok attr ↔
      (c.stride DimIndices.n = 1 ∧ c.stride DimIndices.c = 1) ∧ c.ValidPaddings ∧
        attr = c.depthwiseAttributes := by
  simp only [DepthwiseConv2D.attributes, formatFromString_formatName, bind_eq_ok, opRequires_eq_ok,
    ← checkValidPadding_eq_ok, Bool.and_eq_true, decide_eq_true_eq]
  constructor
  · rintro ⟨-, -, -, -, -, strides, -, -, ⟨⟩, paddings, ⟨⟩⟩
    exact ⟨strides, paddings, rfl⟩
  · rintro ⟨strides, paddings, rfl⟩
    exact ⟨(), c.strides_length, (), c.dilations_length, (), strides, (), strides, (), paddings,
      rfl⟩

theorem fits32_toInt32 (n : Int) : Fits32 (toInt32 n) := by
  have above := Int.le_bmod (x := n) (m := 2 ^ 32) (by decide)
  have below := Int.bmod_lt (x := n) (m := 2 ^ 32) (by decide)
  simp only [toInt32, Fits32]
  omega

theorem abs_toInt32_le (size : Nat) : |toInt32 (size : Int)| ≤ size := by
  have bounds := fits32_toInt32 (size : Int)
  simp only [Fits32] at bounds
  cases Nat.lt_or_ge size (2 ^ 31) with
  | inl lt => rw [toInt32, Int.bmod_eq_of_le (by omega) (by omega), abs_of_nonneg (by omega)]
  | inr large =>
    rw [abs_le]
    omega

theorem outDepth_fits (ranks : c.filter.length = 4) (xs : 0 < c.filter.numElements)
    (same : c.inputSize DimIndices.c = c.filter.getD 2 0) :
    Fits64 (c.inputSize DimIndices.c * toInt32 (c.filter.getD 3 0 : Nat)) := by
  have rows : 1 ≤ c.filter.getD 0 0 := size_pos xs (by omega)
  have cols : 1 ≤ c.filter.getD 1 0 := size_pos xs (by omega)
  have product : c.filter.numElements = c.filter.getD 0 0 * c.filter.getD 1 0 *
      (c.filter.getD 2 0 * c.filter.getD 3 0) := by
    match filter : c.filter, ranks with
    | [_, _, _, _], _ => simp [TensorShape.numElements, mul_assoc]
  have part : c.filter.getD 2 0 * c.filter.getD 3 0 ≤ c.filter.numElements := by
    rw [product]
    exact Nat.le_mul_of_pos_left _ (mul_pos rows cols)
  have lt := part.trans_lt c.filter_sized
  rw [same]
  have bound : |(c.filter.getD 2 0 : Int) * toInt32 (c.filter.getD 3 0 : Nat)| ≤
      (c.filter.getD 2 0 * c.filter.getD 3 0 : Nat) := by
    rw [abs_mul, abs_of_nonneg (Int.natCast_nonneg _), Nat.cast_mul]
    exact mul_le_mul_of_nonneg_left (abs_toInt32_le _) (Int.natCast_nonneg _)
  rw [abs_le] at bound
  simp only [Fits64]
  omega

theorem depthwise_returns
    (dilations : c.dilation DimIndices.n = 1 ∧ c.dilation DimIndices.c = 1)
    (xs : 0 < c.filter.numElements)
    (rowsFit : c.PaddedFits (toInt32 (c.filterSize 0)) DimIndices.h)
    (columnsFit : c.PaddedFits (toInt32 (c.filterSize 1)) DimIndices.w) :
    (∃ dims, c.depthwise = .ok dims) ↔ c.DepthwiseAccepts := by
  simp only [depthwise, DepthwiseConv2D.dimensions, bind_eq_ok, requireOk_eq_ok,
    Stop.require_eq_ok, int64_eq_ok, decide_eq_true_eq]
  constructor
  · rintro ⟨dims, attr, attrs, -, input, -, filter, -, same, outDepth, ⟨-, -⟩, -, rows, -,
      cols, rowsWindow, isRows, columnsWindow, isColumns, -⟩
    obtain ⟨strides, paddings, rfl⟩ := depthwiseAttributes_eq_ok.mp attrs
    obtain ⟨strideH, dilationH, -, rowsSized⟩ := exists_windowed.mp ⟨_, isRows⟩
    obtain ⟨strideW, dilationW, -, columnsSized⟩ := exists_windowed.mp ⟨_, isColumns⟩
    exact ⟨⟨⟨strides.1, strides.2, strideH, strideW⟩,
      ⟨dilations.1, dilations.2, dilationH, dilationW⟩, ⟨input, filter⟩, xs, same, rowsSized,
      columnsSized⟩, ⟨paddings, rows, cols⟩⟩
  · rintro ⟨valid, limits⟩
    obtain ⟨strideN, strideC, strideH, strideW⟩ := valid.strides
    obtain ⟨-, -, dilationH, dilationW⟩ := valid.dilations
    obtain ⟨rows, isRows⟩ := exists_windowed.mpr ⟨strideH, dilationH,
      windowFits rowsFit limits.inputSizes.1 (fits32_toInt32 _) dilationH strideH, valid.sizes.1⟩
    obtain ⟨cols, isColumns⟩ := exists_windowed.mpr ⟨strideW, dilationW,
      windowFits columnsFit limits.inputSizes.2 (fits32_toInt32 _) dilationW strideW, valid.sizes.2⟩
    exact ⟨_, c.depthwiseAttributes, depthwiseAttributes_eq_ok.mpr ⟨⟨strideN, strideC⟩,
      limits.paddings, rfl⟩, (), valid.ranks.1, (), valid.ranks.2, (), valid.depths, _,
      ⟨outDepth_fits valid.ranks.2 xs valid.depths, rfl⟩, (), limits.inputSizes.1, (),
      limits.inputSizes.2, rows, isRows, cols, isColumns, rfl⟩

theorem orderly_depthwise (xs : 0 < c.filter.numElements)
    (rowsFit : c.PaddedFits (toInt32 (c.filterSize 0)) DimIndices.h)
    (columnsFit : c.PaddedFits (toInt32 (c.filterSize 1)) DimIndices.w) :
    Stop.Orderly c.depthwise := by
  refine orderly_bind orderly_requireOk fun attr isAttr => ?_
  obtain ⟨strides, paddings, rfl⟩ := depthwiseAttributes_eq_ok.mp (requireOk_eq_ok.mp isAttr)
  refine orderly_bind orderly_require fun _ input => ?_
  refine orderly_bind orderly_require fun _ filter => ?_
  refine orderly_bind orderly_require fun _ same => ?_
  refine orderly_bind (orderly_int64 (outDepth_fits
    (of_decide_eq_true (Stop.require_eq_ok.mp filter)) xs
    (of_decide_eq_true (Stop.require_eq_ok.mp same)))) fun _ _ => ?_
  refine orderly_bind orderly_require fun _ rows => ?_
  refine orderly_bind orderly_require fun _ cols => ?_
  refine orderly_bind (orderly_windowed fun strided dilated => windowFits rowsFit
    (of_decide_eq_true (Stop.require_eq_ok.mp rows)) (fits32_toInt32 _) dilated strided) fun _ _ => ?_
  refine orderly_bind (orderly_windowed fun strided dilated => windowFits columnsFit
    (of_decide_eq_true (Stop.require_eq_ok.mp cols)) (fits32_toInt32 _) dilated strided) fun _ _ => ?_
  exact orderly_ok

theorem depthwise_ne_divisionByZero : c.depthwise ≠ .error .divisionByZero := by
  refine bind_ne_error requireOk_ne_divisionByZero fun attr _ => ?_
  refine bind_ne_error require_ne_divisionByZero fun _ _ => ?_
  refine bind_ne_error require_ne_divisionByZero fun _ _ => ?_
  refine bind_ne_error require_ne_divisionByZero fun _ _ => ?_
  refine bind_ne_error int64_ne_divisionByZero fun _ _ => ?_
  refine bind_ne_error require_ne_divisionByZero fun _ _ => ?_
  refine bind_ne_error require_ne_divisionByZero fun _ _ => ?_
  refine bind_ne_error windowed_ne_divisionByZero fun _ _ => ?_
  refine bind_ne_error windowed_ne_divisionByZero fun _ _ => ?_
  exact fun ret => nomatch ret

end Call2D

end TfDml.ConvValidation
