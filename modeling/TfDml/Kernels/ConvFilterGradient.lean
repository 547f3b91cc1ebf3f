import TfDml.Kernels.ConvPaddings
import TfDml.Kernels.FilterGradientValue

/-! # The gradients of the filters of `Conv2D` and `Conv3D`

The two kernels regroup the channels of their input in the same way, one with two and the other one
with three spatial dimensions.
-/

namespace TfDml.FilterGradient

open Lib DmlGraph Conv2D Conv3D ConvBackprop ConvValidation Optimizer Optimizer.Remapper List
open DmlTensorDesc (BufferTensorSize packedStrides)
open StridedSlice (u32 u32_natCast u32_of_bounds)
open NoOpKernel

/-- The convolution of an input and a filter, with the sizes of what comes back. -/
def problemOf (format : TensorFormat) (input filter outBackprop : TensorShape) : Problem where
  format := format
  batch := input.getD 0 0
  groupCount := channelsOf format input / filter.getD (filter.length - 2) 0
  groupSize := filter.getD (filter.length - 2) 0
  filters := filter.getD (filter.length - 1) 0
  inSizes := spatialOf format input
  outSizes := spatialOf format outBackprop
  taps := filter.take (filter.length - 2)

structure Convolves (format : TensorFormat) (input filter outBackprop : TensorShape) : Prop where
  known : format = .nhwc ∨ format = .nchw
  rank : filter.length = 4 ∨ filter.length = 5
  inRank : input.length = filter.length
  outRank : outBackprop.length = filter.length
  batches : outBackprop.getD 0 0 = input.getD 0 0
  depths : filter.getD (filter.length - 2) 0 ∣ channelsOf format input
  filters : channelsOf format outBackprop = filter.getD (filter.length - 1) 0

/-- Tensors with elements that DirectML makes an operator of: the groups have the same size, and
    the elements have 32-bit positions. -/
structure Creatable (format : TensorFormat) (input filter outBackprop : TensorShape) : Prop where
  divides : (problemOf format input filter outBackprop).groupCount ∣
    filter.getD (filter.length - 1) 0
  inSmall : input.prod < 2 ^ 32
  filterSmall : filter.prod < 2 ^ 32
  outSmall : outBackprop.prod < 2 ^ 32

def Elements (input filter outBackprop : TensorShape) : Prop :=
  input.prod ≠ 0 ∧ filter.prod ≠ 0 ∧ outBackprop.prod ≠ 0

section Problem

variable {format : TensorFormat} {input filter outBackprop : TensorShape}

theorem filter_parts (rank : filter.length = 4 ∨ filter.length = 5) :
    filter.take (filter.length - 2) ++
      [filter.getD (filter.length - 2) 0, filter.getD (filter.length - 1) 0] = filter := by
  cases rank with
  | inl four =>
    match filter, four with
    | [_, _, _, _], _ => rfl
  | inr five =>
    match filter, five with
    | [_, _, _, _, _], _ => rfl

theorem shapes_problemOf (convolves : Convolves format input filter outBackprop) :
    (problemOf format input filter outBackprop).input = input ∧
      (problemOf format input filter outBackprop).filter = filter ∧
      (problemOf format input filter outBackprop).outBackprop = outBackprop := by
  have rank := convolves.rank
  have inRank := convolves.inRank
  have outRank := convolves.outRank
  refine ⟨?_, filter_parts rank, ?_⟩
  · rw [Problem.input, problemOf]
    simp only [Nat.div_mul_cancel convolves.depths]
    exact arrange_parts convolves.known (by omega)
  · rw [Problem.outBackprop, problemOf]
    simp only [← convolves.batches, ← convolves.filters]
    exact arrange_parts convolves.known (by omega)

theorem positive_of_prod {sizes : List Nat} (some_ : sizes.prod ≠ 0) :
    ∀ size ∈ sizes, 0 < size := by
  intro size mem
  exact Nat.pos_of_ne_zero fun zero => some_ (prod_eq_zero (zero ▸ mem))

theorem sound_problemOf (convolves : Convolves format input filter outBackprop)
    (elements : Elements input filter outBackprop)
    (creatable : Creatable format input filter outBackprop) :
    (problemOf format input filter outBackprop).Sound := by
  obtain ⟨isInput, isFilter, isOutBackprop⟩ := shapes_problemOf convolves
  have rank := convolves.rank
  have inRank := convolves.inRank
  have outRank := convolves.outRank
  obtain ⟨inElements, filterElements, outElements⟩ := elements
  rw [← isInput, Problem.input, prod_arrange, mul_ne_zero_iff, mul_ne_zero_iff,
    mul_ne_zero_iff] at inElements
  obtain ⟨⟨batches, groups, channels⟩, inSizes⟩ := inElements
  rw [← isOutBackprop, Problem.outBackprop, prod_arrange, mul_ne_zero_iff, mul_ne_zero_iff]
    at outElements
  obtain ⟨⟨-, outputs⟩, outSizes⟩ := outElements
  rw [← isFilter, Problem.filter, prod_append, mul_ne_zero_iff] at filterElements
  have spatial {sizes : List Nat} (whole : sizes.length = filter.length) :
      (spatialOf format sizes).length = filter.length - 2 := by
    have arranged := congrArg List.length (@arrange_parts format convolves.known sizes (by omega))
    rw [length_arrange] at arranged
    omega
  exact {
    format := convolves.known
    rank := by
      simp only [problemOf, length_take]
      omega
    inRank := by
      simp only [problemOf, length_take, spatial inRank]
      omega
    outRank := by
      simp only [problemOf, length_take, spatial outRank]
      omega
    divides := creatable.divides
    batches := Nat.pos_of_ne_zero batches
    groups := Nat.pos_of_ne_zero groups
    channels := Nat.pos_of_ne_zero channels
    outputs := Nat.pos_of_ne_zero outputs
    inPositive := positive_of_prod inSizes
    outPositive := positive_of_prod outSizes
    tapsPositive := positive_of_prod filterElements.1
    inSmall := isInput.symm ▸ creatable.inSmall
    outSmall := isOutBackprop.symm ▸ creatable.outSmall
    filterSmall := isFilter.symm ▸ creatable.filterSmall }

theorem size_lt {sizes : TensorShape} (some_ : sizes.prod ≠ 0) (small : sizes.prod < 2 ^ 32)
    (index : Nat) : sizes.getD index 0 < 2 ^ 32 := by
  rw [getD_eq_getElem?_getD]
  cases found : sizes[index]? with
  | none => exact Nat.two_pow_pos 32
  | some size =>
    have mem := mem_of_getElem? found
    exact (Nat.le_of_dvd (Nat.pos_of_ne_zero some_) (dvd_prod mem)).trans_lt small

/-- What a kernel computes of the three shapes, with products in 32 bits. -/
structure Params.Computed (p : Params) (format : TensorFormat)
    (input filter outBackprop : TensorShape) : Prop where
  isFormat : p.dataFormat = format
  isLayout : p.filterLayout = FilterGradient.filterLayout filter.length
  isInput : p.input = input
  isFilter : p.filter = filter
  isOutBackprop : p.outBackprop = outBackprop
  channels : p.channels = channelsOf format input
  groupCount : p.groupCount = channelsOf format input / filter.getD (filter.length - 2) 0
  groupSize : p.groupSize = p.channels / p.groupCount
  shape : p.singleGroupedShape =
    1 :: (p.groupCount * input.getD 0 0 % 2 ^ 32) :: spatialOf format input
  strides : p.singleGroupedStrides =
    ((spatialOf format input).prod % 2 ^ 32) :: ((spatialOf format input).prod % 2 ^ 32) ::
      packedStrides (spatialOf format input)

theorem Params.Computed.describes {p : Params}
    (computed : p.Computed format input filter outBackprop)
    (convolves : Convolves format input filter outBackprop)
    (sound : (problemOf format input filter outBackprop).Sound) :
    p.Describes (problemOf format input filter outBackprop) := by
  obtain ⟨isInput, isFilter, isOutBackprop⟩ := shapes_problemOf convolves
  have small := sound.inSmall
  rw [Problem.input, prod_arrange] at small
  have batches := sound.batches
  have groups := sound.groups
  have channels := sound.channels
  have sizes : 0 < (problemOf format input filter outBackprop).inSizes.prod :=
    Nat.pos_of_ne_zero fun zero =>
      (sound.inPositive 0 (prod_eq_zero_iff.mp zero)).ne' rfl
  have whole := Nat.div_mul_cancel convolves.depths
  simp only [problemOf] at small batches groups channels sizes
  have rows : channelsOf format input / filter.getD (filter.length - 2) 0 * input.getD 0 0 <
      2 ^ 32 := by
    refine lt_of_le_of_lt ?_ small
    calc channelsOf format input / filter.getD (filter.length - 2) 0 * input.getD 0 0
        = input.getD 0 0 * (channelsOf format input / filter.getD (filter.length - 2) 0) :=
          mul_comm _ _
      _ ≤ input.getD 0 0 * (channelsOf format input / filter.getD (filter.length - 2) 0 *
            filter.getD (filter.length - 2) 0) :=
          Nat.mul_le_mul_left _ (Nat.le_mul_of_pos_right _ channels)
      _ ≤ _ := Nat.le_mul_of_pos_right _ sizes
  have inner : (spatialOf format input).prod < 2 ^ 32 := by
    refine lt_of_le_of_lt (Nat.le_mul_of_pos_left _ ?_) small
    exact mul_pos batches (mul_pos groups channels)
  exact {
    format := computed.isFormat
    filterLayout := computed.isLayout.trans (congrArg _ (congrArg List.length isFilter.symm))
    input := computed.isInput.trans isInput.symm
    filter := computed.isFilter.trans isFilter.symm
    outBackprop := computed.isOutBackprop.trans isOutBackprop.symm
    channels := computed.channels.trans whole.symm
    groupCount := computed.groupCount
    groupSize := by
      rw [computed.groupSize, computed.channels, computed.groupCount]
      refine Nat.div_div_self convolves.depths fun none_ => ?_
      rw [none_, Nat.zero_div] at groups
      exact Nat.lt_irrefl 0 groups
    shape := by
      rw [computed.shape, computed.groupCount, Nat.mod_eq_of_lt rows]
      rfl
    strides := by
      rw [computed.strides, Nat.mod_eq_of_lt inner]
      rfl }

end Problem

/-- A call of `Conv2DBackpropFilter` that is accepted, with more than one group. -/
structure FilterCall2D extends Call2D where
  outBackprop : TensorShape
  dataType : DataType
  floating : dataType = .float ∨ dataType = .half
  made : toCall2D.parameters = .ok toCall2D.params
  result : Option Conv2DDimensions
  accepted : conv2DBackpropFilter toCall2D.params input filter outBackprop = .ok result
  rank : filter.length = 4
  convolves : Convolves dataFormat input filter outBackprop
  grouped : 1 < (problemOf dataFormat input filter outBackprop).groupCount
  creatable : result ≠ none → Creatable dataFormat input filter outBackprop

namespace FilterCall2D

variable (c : FilterCall2D)

/-- What `DmlConv2DBackpropFilterKernel` hands to DirectML. -/
def kernelParams (dims : Conv2DDimensions) : Params :=
  let groupCount := u32 (dims.inDepth.tdiv dims.patchDepth)
  let groupSize := u32 dims.inDepth / groupCount
  let batch := u32 dims.batch
  let height := u32 dims.inputRows
  let width := u32 dims.inputCols
  { dataFormat := c.dataFormat
    filterLayout := [.h, .w, .n, .c]
    input := c.input
    filter := c.filter
    outBackprop := c.outBackprop
    channels := u32 dims.inDepth
    groupCount := groupCount
    groupSize := groupSize
    singleGroupedShape := [1, groupCount * batch % 2 ^ 32, height, width]
    singleGroupedStrides := [height * width % 2 ^ 32, height * width % 2 ^ 32, width, 1]
    strides := [u32 dims.strideRows, u32 dims.strideCols]
    dilations := [u32 dims.dilationRows, u32 dims.dilationCols]
    startPadding := [u32 dims.padRowsBefore, u32 dims.padColsBefore]
    endPadding := [u32 dims.padRowsAfter, u32 dims.padColsAfter] }

def problem : Problem := problemOf c.dataFormat c.input c.filter c.outBackprop

def forwardPadding (filterSize : Int) (dimension : DimIndices → Nat) : Int :=
  (windowedOutput (c.inputSize dimension) filterSize (c.dilation dimension) (c.stride dimension)
    c.padding (c.paddingBefore dimension) (c.paddingAfter dimension)).paddingBefore

/-- How the window moves, with a padding for each dimension. -/
def sweepsWith (paddings : Int × Int) : List Sweep :=
  [⟨(c.stride DimIndices.h).toNat, (c.dilation DimIndices.h).toNat, paddings.1⟩,
    ⟨(c.stride DimIndices.w).toNat, (c.dilation DimIndices.w).toNat, paddings.2⟩]

def forward : List Sweep := c.sweepsWith
  (c.forwardPadding (c.filterSize 0) DimIndices.h, c.forwardPadding (c.filterSize 1) DimIndices.w)

def kernelSweeps : List Sweep := c.sweepsWith
  (u32 (c.forwardPadding (c.filterSize 0) DimIndices.h),
    u32 (c.forwardPadding (c.filterSize 1) DimIndices.w))

/-! The kernel of a call -/

variable {c}

theorem elements_iff : Elements c.input c.filter c.outBackprop ↔ c.result ≠ none := by
  have accepted := c.accepted
  have whole : TensorShape.numElements [c.filter.length] ≠ 0 := by
    rw [c.rank]
    decide
  rw [conv2DBackpropFilter] at accepted
  constructor
  · rintro ⟨input, filter, outBackprop⟩ skipped
    rw [if_neg, skipped] at accepted
    · cases made : conv2DBackpropFilterKernel c.params c.input c.filter c.outBackprop with
      | ok dims =>
        rw [made] at accepted
        cases accepted
      | error stop =>
        rw [made] at accepted
        cases accepted
    · rw [isNoOpKernel_iff]
      simp only [mem_cons, not_mem_nil, or_false, exists_eq_or_imp, exists_eq_left, sizesOf]
      exact not_or.mpr ⟨not_or.mpr ⟨input, not_or.mpr ⟨whole, outBackprop⟩⟩, filter⟩
  · intro made
    split at accepted
    · exact absurd (Except.ok.inj accepted).symm made
    · rename_i some_
      rw [isNoOpKernel_iff] at some_
      simp only [mem_cons, not_mem_nil, or_false, exists_eq_or_imp, exists_eq_left, not_or] at some_
      exact ⟨some_.1.1, some_.2, some_.1.2.2⟩

theorem dims_eq {dims : Conv2DDimensions} (found : c.result = some dims) :
    checkShapes c.params c.input c.filter = .ok () ∧
      ∃ rows columns, dimensionWindow c.params c.input (c.filter.getD 0 0) DimIndices.h = .ok rows ∧
        dimensionWindow c.params c.input (c.filter.getD 1 0) DimIndices.w = .ok columns ∧
        dims = conv2DDimensions c.params c.input c.filter rows columns := by
  have accepted := c.accepted
  rw [conv2DBackpropFilter, found] at accepted
  split at accepted
  · cases accepted
  · cases made : conv2DBackpropFilterKernel c.params c.input c.filter c.outBackprop with
    | ok other =>
      rw [made] at accepted
      obtain rfl := Option.some.inj (Except.ok.inj accepted)
      simp only [conv2DBackpropFilterKernel, computeDimension, bind_eq_ok] at made
      obtain ⟨-, -, -, -, -, -, ⟨⟩, shapes, rows, isRows, columns, isColumns, same⟩ := made
      exact ⟨shapes, rows, columns, isRows, isColumns, (Except.ok.inj same).symm⟩
    | error stop =>
      rw [made] at accepted
      cases accepted

theorem parts_four {format : TensorFormat} (known : format = .nhwc ∨ format = .nchw)
    {sizes : List Nat} (rank : sizes.length = 4) :
    getTensorDim sizes format DimIndices.n = sizes.getD 0 0 ∧
      getTensorDim sizes format DimIndices.c = channelsOf format sizes ∧ spatialOf format sizes =
        [getTensorDim sizes format DimIndices.h, getTensorDim sizes format DimIndices.w] := by
  match sizes, rank with
  | [_, _, _, _], _ =>
    cases known with
    | inl nhwc =>
      subst nhwc
      exact ⟨rfl, rfl, rfl⟩
    | inr nchw =>
      subst nchw
      exact ⟨rfl, rfl, rfl⟩

theorem computed {dims : Conv2DDimensions} (found : c.result = some dims) :
    (c.kernelParams dims).Computed c.dataFormat c.input c.filter c.outBackprop := by
  have made : c.result ≠ none := by simp [found]
  have elements := elements_iff.mpr made
  have creatable := c.creatable made
  obtain ⟨-, rows, columns, -, -, rfl⟩ := dims_eq found
  have rank := c.rank
  obtain ⟨batch, channels, spatial⟩ := parts_four c.convolves.known
    (c.convolves.inRank.trans c.rank)
  have small (dimension : DimIndices → Nat) :
      u32 (getTensorDim c.input c.dataFormat dimension : Nat) =
        getTensorDim c.input c.dataFormat dimension :=
    u32_natCast (size_lt elements.1 creatable.inSmall _)
  have groups : u32 (((getTensorDim c.input c.dataFormat DimIndices.c : Nat) : Int).tdiv
      (c.filter.getD 2 0 : Nat)) = channelsOf c.dataFormat c.input / c.filter.getD 2 0 := by
    rw [channels, ← Int.ofNat_tdiv, u32_natCast]
    exact (Nat.div_le_self _ _).trans_lt
      (channels ▸ size_lt elements.1 creatable.inSmall _)
  exact {
    isFormat := rfl
    isLayout := by
      rw [rank]
      rfl
    isInput := rfl
    isFilter := rfl
    isOutBackprop := rfl
    channels := (small _).trans channels
    groupCount := by
      rw [rank]
      exact groups
    groupSize := rfl
    shape := by
      rw [← batch]
      simp only [kernelParams, conv2DDimensions, Call2D.params, small, spatial]
    strides := by
      have width := size_lt elements.1 creatable.inSmall (getTensorDimIndices c.dataFormat).w
      simp only [kernelParams, conv2DDimensions, Call2D.params, small, spatial, packedStrides,
        prod_cons, prod_nil, mul_one]
      rw [Nat.mod_eq_of_lt (show getTensorDim c.input c.dataFormat DimIndices.w < 2 ^ 32 from width)]
      rfl }

theorem sweeps_eq {dims : Conv2DDimensions} (found : c.result = some dims) :
    (c.kernelParams dims).sweeps = c.kernelSweeps := by
  obtain ⟨-, rows, columns, isRows, isColumns, rfl⟩ := dims_eq found
  obtain ⟨-, -, -, -, rfl⟩ := Stop.windowed_eq_ok.mp isRows
  obtain ⟨-, -, -, -, rfl⟩ := Stop.windowed_eq_ok.mp isColumns
  obtain ⟨⟨-, -, rowStride, columnStride⟩, ⟨-, -, rowDilation, columnDilation⟩, -⟩ :=
    Call2D.parameters_eq_ok.mp c.made
  have handed {n : Int} (pos : 0 < n) (fits : Fits32 n) : u32 n = n.toNat :=
    u32_of_bounds pos.le (fits.2.trans (by decide))
  have stride (dimension : DimIndices → Nat) : Fits32 (c.stride dimension) :=
    Call2D.fits32_getD c.strides_int32 _
  have dilation (dimension : DimIndices → Nat) : Fits32 (c.dilation dimension) :=
    Call2D.fits32_getD c.dilations_int32 _
  simp only [kernelSweeps, sweepsWith, ← handed rowStride (stride _),
    ← handed columnStride (stride _), ← handed rowDilation (dilation _),
    ← handed columnDilation (dilation _)]
  rfl

end FilterCall2D

/-- A call of one of the `Conv3DBackpropFilter` ops that is accepted, with more than one group. -/
structure FilterCall3D where
  node : Conv3DNode
  attr : Conv3DAttributes
  input : TensorShape
  filterSizes : SizesTensor
  filter : TensorShape
  outBackprop : TensorShape
  dataType : DataType
  dims : Conv3DDimensions
  floating : dataType = .float ∨ dataType = .half
  isAttr : conv3DAttributes node = .ok attr
  format : attr.dataFormat = .nhwc ∨ attr.dataFormat = .nchw
  strides_int32 : ∀ axis, attr.strides.get axis < 2 ^ 31
  dilations_int32 : ∀ axis, attr.dilations.get axis < 2 ^ 31
  sized : filterSizes.values.length = filterSizes.shape.numElements
  isFilter : filterSizes.makeShape = .ok filter
  accepted : conv3DBackpropFilter attr input filterSizes outBackprop = .ok dims
  grouped : 1 < (problemOf attr.dataFormat input filter outBackprop).groupCount
  creatable : Elements input filter outBackprop → Creatable attr.dataFormat input filter outBackprop

namespace FilterCall3D

variable (c : FilterCall3D)

/-- What `DmlConv3DBackpropFilterKernel` hands to DirectML. -/
def kernelParams : Params :=
  let groupCount := c.dims.inChannels / c.dims.filterChannels
  let height := c.dims.inSizes.h
  let width := c.dims.inSizes.w
  let depth := c.dims.inSizes.d
  { dataFormat := c.attr.dataFormat
    filterLayout := [.d, .h, .w, .n, .c]
    input := c.input
    filter := c.filter
    outBackprop := c.outBackprop
    channels := c.dims.inChannels
    groupCount := groupCount
    groupSize := c.dims.inChannels / groupCount
    singleGroupedShape := [1, groupCount * c.dims.batchSize % 2 ^ 32, depth, height, width]
    singleGroupedStrides := [height * width * depth % 2 ^ 32, height * width * depth % 2 ^ 32,
      height * width % 2 ^ 32, width, 1]
    strides := [c.dims.strides.d, c.dims.strides.h, c.dims.strides.w]
    dilations := [c.dims.dilations.d, c.dims.dilations.h, c.dims.dilations.w]
    startPadding := [c.dims.startPadding.d, c.dims.startPadding.h, c.dims.startPadding.w]
    endPadding := [c.dims.endPadding.d, c.dims.endPadding.h, c.dims.endPadding.w] }

def result : Option Params :=
  if isNoOpKernel [c.input, c.filterSizes.shape, c.outBackprop] [c.filter] then none
  else some c.kernelParams

def problem : Problem := problemOf c.attr.dataFormat c.input c.filter c.outBackprop

def shapes : Shapes := shapes3D "Conv3DBackpropFilterOp" c.attr c.input c.filter c.outBackprop

def forwardPadding (axis : SpatialAxis) : Int :=
  let window := (windows c.attr c.input c.filter).get axis
  (windowedOutput window.inputSize window.filterSize window.dilationRate window.stride
    c.attr.padding 0 0).paddingBefore

def kernelPadding (axis : SpatialAxis) : Int :=
  (u32 ((c.shapes.dimAt (axisIndex axis)).padding c.attr.padding) / 2 : Nat)

/-- How the window moves, with a padding for each dimension. -/
def sweepsWith (padding : SpatialAxis → Int) : List Sweep :=
  [.d, .h, .w].map fun axis =>
    ⟨(c.attr.strides.get axis).toNat, (c.attr.dilations.get axis).toNat, padding axis⟩

def forward : List Sweep := c.sweepsWith c.forwardPadding

def kernelSweeps : List Sweep := c.sweepsWith c.kernelPadding

/-! The kernel of a call -/

variable {c}

theorem dims_eq : verifyShapes c.shapes 3 = .ok () ∧
    c.dims.batchSize = u32 (c.input.getD (getTensorBatchDimIndex 5 c.attr.dataFormat) 0 : Nat) ∧
    c.dims.inChannels = u32 (c.input.getD (getTensorFeatureDimIndex 5 c.attr.dataFormat) 0 : Nat) ∧
    c.dims.filterChannels = u32 (c.filter.getD 3 0 : Nat) ∧
    ∀ axis, c.dims.inSizes.get axis = u32 (c.shapes.dimAt (axisIndex axis)).inputSize ∧
      c.dims.strides.get axis = u32 (c.attr.strides.get axis) ∧
      c.dims.dilations.get axis = u32 (c.attr.dilations.get axis) ∧ c.dims.startPadding.get axis =
        u32 ((c.shapes.dimAt (axisIndex axis)).padding c.attr.padding) / 2 := by
  have accepted := c.accepted
  simp only [conv3DBackpropFilter, c.isFilter, Stop.requireOk, Stop.ok_bind, conv3DGrad,
    bind_eq_ok, computeDimensionsV2_eq_ok] at accepted
  obtain ⟨-, ⟨shapes, -, rfl⟩, made⟩ := accepted
  rw [← Except.ok.inj made]
  refine ⟨shapes, congrArg u32 (getD_map_ofNat c.input _), congrArg u32 (getD_map_ofNat c.input _),
    rfl, fun axis => ?_⟩
  cases axis with
  | d | h | w => exact ⟨rfl, rfl, rfl, rfl⟩

theorem convolves : Convolves c.attr.dataFormat c.input c.filter c.outBackprop ∧
    c.filter.length = 5 := by
  have verified := dims_eq (c := c).1
  simp only [verifyShapes, bind_eq_ok, Stop.require_eq_ok, Stop.remainder_eq_ok,
    decide_eq_true_eq] at verified
  simp only [shapes, shapes3D, getD_map_ofNat, length_map, Nat.cast_inj] at verified
  obtain ⟨-, input, -, filter, -, backprop, -, batches, -, pos, _, ⟨-, rfl⟩, -, divides,
    depths⟩ := verified
  have divides := Int.natCast_dvd_natCast.mp (Int.dvd_of_tmod_eq_zero divides)
  have features {sizes : TensorShape} (rank : sizes.length = 5) :
      sizes.getD (getTensorFeatureDimIndex 5 c.attr.dataFormat) 0 =
        channelsOf c.attr.dataFormat sizes := by
    cases c.format with
    | inl nhwc => simp [nhwc, getTensorFeatureDimIndex, channelsOf, rank]
    | inr nchw => simp [nchw, getTensorFeatureDimIndex, channelsOf]
  have first : getTensorBatchDimIndex 5 c.attr.dataFormat = 0 := by
    cases c.format with
    | inl nhwc => simp [nhwc, getTensorBatchDimIndex]
    | inr nchw => simp [nchw, getTensorBatchDimIndex]
  refine ⟨?_, filter⟩
  exact {
    known := c.format
    rank := .inr filter
    inRank := input.trans filter.symm
    outRank := backprop.trans filter.symm
    batches := (first ▸ batches).symm
    depths := by
      rw [filter, ← features input]
      exact divides
    filters := by
      rw [filter, ← features backprop]
      exact depths.symm }

theorem elements_iff : Elements c.input c.filter c.outBackprop ↔ c.result ≠ none := by
  have isFilter := c.isFilter
  simp only [SizesTensor.makeShape, bind_eq_ok] at isFilter
  obtain ⟨-, -, -, -, made⟩ := isFilter
  have counted : c.filterSizes.shape.numElements = 5 := by
    rw [← c.sized, ← convolves (c := c).2, (TensorShape.makeShape_ok made).1, length_map]
  rw [result, Elements]
  split
  · rename_i skipped
    simp only [isNoOpKernel_iff, mem_cons, not_mem_nil, or_false,
      exists_eq_or_imp, exists_eq_left, counted] at skipped
    refine iff_of_false (fun ⟨input, filter, outBackprop⟩ => ?_) (by simp)
    rcases skipped with (none_ | absurd_ | none_) | none_
    · exact input none_
    · cases absurd_
    · exact outBackprop none_
    · exact filter none_
  · rename_i some_
    simp only [isNoOpKernel_iff, mem_cons, not_mem_nil, or_false,
      exists_eq_or_imp, exists_eq_left, not_or] at some_
    exact iff_of_true ⟨some_.1.1, some_.2, some_.1.2.2⟩ (by simp)

theorem parts_five {format : TensorFormat} (known : format = .nhwc ∨ format = .nchw)
    {sizes : List Nat} (rank : sizes.length = 5) :
    sizes.getD (getTensorBatchDimIndex 5 format) 0 = sizes.getD 0 0 ∧
      sizes.getD (getTensorFeatureDimIndex 5 format) 0 = channelsOf format sizes ∧
      spatialOf format sizes = [sizes.getD (imageDim format 0) 0, sizes.getD (imageDim format 1) 0,
        sizes.getD (imageDim format 2) 0] := by
  match sizes, rank with
  | [_, _, _, _, _], _ =>
    cases known with
    | inl nhwc =>
      subst nhwc
      exact ⟨rfl, rfl, rfl⟩
    | inr nchw =>
      subst nchw
      exact ⟨rfl, rfl, rfl⟩

theorem computed (elements : Elements c.input c.filter c.outBackprop) :
    c.kernelParams.Computed c.attr.dataFormat c.input c.filter c.outBackprop := by
  have creatable := c.creatable elements
  obtain ⟨isConvolution, rank⟩ := convolves (c := c)
  obtain ⟨-, isBatch, isChannels, isFilterChannels, each⟩ := dims_eq (c := c)
  obtain ⟨batch, channels, spatial⟩ := parts_five c.format (isConvolution.inRank.trans rank)
  have small (index : Nat) : u32 (c.input.getD index 0 : Nat) = c.input.getD index 0 :=
    u32_natCast (size_lt elements.1 creatable.inSmall _)
  have sizes (axis : SpatialAxis) : c.dims.inSizes.get axis =
      c.input.getD (imageDim c.attr.dataFormat (axisIndex axis)) 0 := by
    rw [(each axis).1, Shapes.dimAt]
    simp only [shapes, shapes3D, getD_map_ofNat, small]
  have depth := sizes .d
  have height := sizes .h
  have width := sizes .w
  simp only [Spatial.get, axisIndex] at depth height width
  rw [small, batch] at isBatch
  rw [small, channels] at isChannels
  rw [u32_natCast (size_lt elements.2.1 creatable.filterSmall _)] at isFilterChannels
  exact {
    isFormat := rfl
    isLayout := by
      rw [rank]
      rfl
    isInput := rfl
    isFilter := rfl
    isOutBackprop := rfl
    channels := isChannels
    groupCount := by
      rw [rank, ← isChannels, ← isFilterChannels]
      rfl
    groupSize := rfl
    shape := by
      rw [spatial, ← isBatch, ← depth, ← height, ← width]
      rfl
    strides := by
      have last := size_lt elements.1 creatable.inSmall (imageDim c.attr.dataFormat 2)
      rw [spatial, ← depth, ← height, ← width]
      rw [← width] at last
      simp only [kernelParams, packedStrides, prod_cons, prod_nil, mul_one, Nat.mod_eq_of_lt last]
      rw [mul_comm c.dims.inSizes.d]
      rfl }

theorem sweeps_eq : c.kernelParams.sweeps = c.kernelSweeps := by
  obtain ⟨-, -, -, -, each⟩ := dims_eq (c := c)
  have attr := c.isAttr
  simp only [conv3DAttributes, bind_eq_ok, opRequires_eq_ok, decide_eq_true_eq] at attr
  obtain ⟨_, -, -, -, -, -, -, strides, -, -, -, -, -, dilations, same⟩ := attr
  have pos (axis : SpatialAxis) : 0 < c.attr.strides.get axis ∧ 0 < c.attr.dilations.get axis := by
    rw [← Except.ok.inj same]
    cases axis with
    | d => exact ⟨strides.1, dilations.1⟩
    | h => exact ⟨strides.2.1, dilations.2.1⟩
    | w => exact ⟨strides.2.2, dilations.2.2⟩
  have stride (axis : SpatialAxis) : u32 (c.attr.strides.get axis) =
      (c.attr.strides.get axis).toNat :=
    u32_of_bounds (pos axis).1.le ((c.strides_int32 axis).trans (by decide))
  have dilation (axis : SpatialAxis) : u32 (c.attr.dilations.get axis) =
      (c.attr.dilations.get axis).toNat :=
    u32_of_bounds (pos axis).2.le ((c.dilations_int32 axis).trans (by decide))
  have swept : c.kernelParams.sweeps = [.d, .h, .w].map fun axis =>
      (⟨c.dims.strides.get axis, c.dims.dilations.get axis, c.dims.startPadding.get axis⟩ :
        Sweep) := rfl
  rw [swept, kernelSweeps, sweepsWith]
  refine map_congr_left fun axis _ => ?_
  obtain ⟨-, isStride, isDilation, isPadding⟩ := each axis
  rw [isStride, isDilation, isPadding, stride, dilation]
  rfl

end FilterCall3D

inductive FilterCall where
  | conv2D (call : FilterCall2D)
  | conv3D (call : FilterCall3D)

namespace FilterCall

def params : FilterCall → Option Params
  | .conv2D call => call.result.map call.kernelParams
  | .conv3D call => call.result

def problem : FilterCall → Problem
  | .conv2D call => call.problem
  | .conv3D call => call.problem

def dataType : FilterCall → DataType
  | .conv2D call => call.dataType
  | .conv3D call => call.dataType

def forward : FilterCall → List Sweep
  | .conv2D call => call.forward
  | .conv3D call => call.forward

def kernelSweeps : FilterCall → List Sweep
  | .conv2D call => call.kernelSweeps
  | .conv3D call => call.kernelSweeps

def Empty (c : FilterCall) : Prop :=
  c.problem.input.prod = 0 ∨ c.problem.filter.prod = 0 ∨ c.problem.outBackprop.prod = 0

/-- There are as many groups as channels in each of them, and the paddings of the kernel make no
    difference. -/
def Square (c : FilterCall) : Prop :=
  c.problem.groupCount = c.problem.groupSize ∧ c.problem.SameTaps c.kernelSweeps c.forward

variable {c : FilterCall}

theorem described {p : Params} (found : c.params = some p) :
    p.Describes c.problem ∧ c.problem.Sound ∧ p.sweeps = c.kernelSweeps := by
  cases c with
  | conv2D call =>
    obtain ⟨dims, made, rfl⟩ := Option.map_eq_some_iff.mp found
    have some_ : call.result ≠ none := by simp [made]
    have sound := sound_problemOf call.convolves (FilterCall2D.elements_iff.mpr some_)
      (call.creatable some_)
    exact ⟨(FilterCall2D.computed made).describes call.convolves sound, sound,
      FilterCall2D.sweeps_eq made⟩
  | conv3D call =>
    have made : call.result = some p := found
    have some_ : call.result ≠ none := by simp [made]
    have elements := FilterCall3D.elements_iff.mpr some_
    have sound := sound_problemOf FilterCall3D.convolves.1 elements (call.creatable elements)
    have same : call.kernelParams = p := by
      rw [FilterCall3D.result] at made
      split at made
      · cases made
      · exact Option.some.inj made
    subst same
    exact ⟨(FilterCall3D.computed elements).describes FilterCall3D.convolves.1 sound, sound,
      FilterCall3D.sweeps_eq⟩

theorem params_eq_none : c.params = none ↔ c.Empty := by
  have elements {format : TensorFormat} {input filter outBackprop : TensorShape}
      (convolves : Convolves format input filter outBackprop) :
      (problemOf format input filter outBackprop).input.prod = 0 ∨
          (problemOf format input filter outBackprop).filter.prod = 0 ∨
          (problemOf format input filter outBackprop).outBackprop.prod = 0 ↔
        ¬Elements input filter outBackprop := by
    obtain ⟨isInput, isFilter, isOutBackprop⟩ := shapes_problemOf convolves
    rw [isInput, isFilter, isOutBackprop, Elements, not_and_or, not_and_or, not_not, not_not,
      not_not]
  cases c with
  | conv2D call =>
    rw [Empty, problem, FilterCall2D.problem, elements call.convolves, FilterCall2D.elements_iff,
      not_not]
    exact Option.map_eq_none_iff
  | conv3D call =>
    rw [Empty, problem, FilterCall3D.problem, elements FilterCall3D.convolves.1,
      FilterCall3D.elements_iff, not_not]
    rfl

theorem grouped (c : FilterCall) : 1 < c.problem.groupCount := by
  cases c with
  | conv2D call => exact call.grouped
  | conv3D call => exact call.grouped

theorem dataType_known (c : FilterCall) :
    ∃ dmlDataType, getDmlDataTypeFromTfDataType c.dataType = some dmlDataType := by
  have floating : c.dataType = .float ∨ c.dataType = .half := by
    cases c with
    | conv2D call => exact call.floating
    | conv3D call => exact call.floating
  rcases floating with float | half
  · exact ⟨_, by rw [float]; rfl⟩
  · exact ⟨_, by rw [half]; rfl⟩

end FilterCall

theorem float_floating : DataType.float = .float ∨ DataType.float = .half := .inl rfl

/-- One pixel of two channels, each of which is a group. -/
def twoGroups : FilterCall2D where
  strides := [1, 1, 1, 1]
  dilations := [1, 1, 1, 1]
  dataFormat := .nhwc
  padding := .valid
  explicitPaddings := []
  input := [1, 1, 1, 2]
  filter := [1, 1, 1, 2]
  strides_length := ones_length
  dilations_length := ones_length
  strides_int32 := ones_fits32
  dilations_int32 := ones_fits32
  filter_sized := by decide +kernel
  outBackprop := [1, 1, 1, 2]
  dataType := .float
  floating := float_floating
  made := Call2D.parameters_eq_ok.mpr ⟨by decide, by decide, rfl, rfl⟩
  result := some ⟨1, 1, 1, 2, 1, 1, 1, 2, 1, 1, 1, 1, 1, 1, 0, 0, 0, 0⟩
  accepted := by decide +kernel
  rank := rfl
  convolves := ⟨.inl rfl, .inl rfl, rfl, rfl, rfl, by decide, rfl⟩
  grouped := by decide
  creatable := fun _ => ⟨by decide, by decide, by decide, by decide⟩

end TfDml.FilterGradient
