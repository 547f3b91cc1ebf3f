import TfDml.Kernels.ConvBackprop

/-! # The shapes that the gradients of `Conv2D` accept

`Conv2DBackpropInput` verifies the three shapes of a call before it runs. `Conv2DBackpropFilter`
is skipped where a tensor is empty, and otherwise checks two of the shapes in its kernel.
-/

namespace TfDml.ConvBackprop

open List
open Conv2D ConvValidation Optimizer Optimizer.Remapper
open Stop

section Refusing

variable {α β : Type}

def Accepts (result : Except Stop α) : Prop := ∃ a, result = .ok a

def Refuses (result : Except Stop α) : Prop :=
  ∃ message, result = .error (.status (.invalidArgument message))

/-- If the function does not return, it reports that an argument is invalid. -/
def Refusing (result : Except Stop α) : Prop :=
  ∀ stop, result = .error stop → ∃ message, stop = .status (.invalidArgument message)

theorem Refusing.refuses {result : Except Stop α} (refusing : Refusing result)
    (not_ : ¬Accepts result) : Refuses result := by
  cases ret : result with
  | ok a => exact absurd ⟨a, ret⟩ not_
  | error stop =>
    obtain ⟨message, rfl⟩ := refusing stop ret
    exact ⟨message, rfl⟩

theorem refusing_ok {a : α} : Refusing (.ok a : Except Stop α) := by
  intro stop err
  cases err

theorem refusing_require {cond : Bool} {message : String} :
    Refusing (Stop.require cond (.invalidArgument message)) := by
  intro stop err
  exact ⟨message, (require_eq_error.mp err).2⟩

variable {f : α → Except Stop β}

theorem refusing_bind {x : Except Stop α} (first : Refusing x)
    (next : ∀ a, x = .ok a → Refusing (f a)) : Refusing (x >>= f) := by
  intro stop err
  cases bind_eq_error.mp err with
  | inl early => exact first stop early
  | inr late =>
    obtain ⟨a, isOk, err⟩ := late
    exact next a isOk stop err

theorem refusing_mapM {list : List α} (each : ∀ a ∈ list, Refusing (f a)) :
    Refusing (list.mapM f) := by
  induction list with
  | nil => exact refusing_ok
  | cons first rest ih =>
    rw [forall_mem_cons] at each
    rw [mapM_cons]
    exact refusing_bind each.1 fun _ _ => refusing_bind (ih each.2) fun _ _ => refusing_ok

theorem refusing_windowed {inputSize filterSize dilationRate stride : Int} {paddingType : Padding}
    {paddingBefore paddingAfter : Int}
    (fits : 0 < stride → 1 ≤ dilationRate → WindowFits inputSize filterSize dilationRate stride
      paddingType paddingBefore paddingAfter) :
    Refusing (Stop.windowed inputSize filterSize dilationRate stride paddingType paddingBefore
      paddingAfter) := by
  rw [windowed_eq]
  by_cases strided : 0 < stride
  · by_cases dilated : 1 ≤ dilationRate
    · rw [getWindowedOutputSizeVerboseV2_eq strided dilated]
      simp only [if_pos (fits strided dilated)]
      split
      · exact fun stop err => ⟨_, (Except.error.inj err).symm⟩
      · exact refusing_ok
    · intro stop err
      simp only [getWindowedOutputSizeVerboseV2, if_neg (not_le.mpr strided),
        if_pos (not_le.mp dilated)] at err
      exact ⟨_, (Except.error.inj err).symm⟩
  · intro stop err
    simp only [getWindowedOutputSizeVerboseV2, if_pos (not_lt.mp strided)] at err
    exact ⟨_, (Except.error.inj err).symm⟩

end Refusing

/-- What the gradients of a convolution are called with. The kernels are made, the op has one of
    two data formats, and the sizes of the input and of the filter are given as 32-bit values. -/
structure GradCall2D extends Call2D where
  outBackprop : TensorShape
  format : dataFormat = .nhwc ∨ dataFormat = .nchw
  made : toCall2D.parameters = .ok toCall2D.params
  input_int32 : ∀ size ∈ input, size < 2 ^ 31
  filter_int32 : ∀ size ∈ filter, size < 2 ^ 31
  isInput : (sizesOf input).makeShape = .ok input
  rowsFit : toCall2D.PaddedFits (toCall2D.filterSize 0) DimIndices.h
  columnsFit : toCall2D.PaddedFits (toCall2D.filterSize 1) DimIndices.w

namespace GradCall2D

variable (c : GradCall2D)

/-- The three shapes, for `ConvBackpropComputeDimensionsV2`. -/
def shapes : Shapes := shapes2D c.params (c.input.map Int.ofNat) c.filter c.outBackprop

def computeDimensionsV2 : Except Stop Dimensions := ConvBackprop.computeDimensionsV2 c.shapes 2

/-- `Conv2DBackpropInput`. -/
def backpropInput : Except Stop GradInput :=
  conv2DBackpropInput c.params (sizesOf c.input) c.filter c.outBackprop

/-- `Conv2DBackpropFilter`. -/
def backpropFilter : Except Stop (Option Conv2DDimensions) :=
  conv2DBackpropFilter c.params c.input c.filter c.outBackprop

/-- Both ops accept what `ConvBackpropComputeDimensionsV2` accepts, and refuse the rest. -/
structure SameTriples : Prop where
  filter : Accepts c.backpropFilter ↔ Accepts c.computeDimensionsV2
  input : Accepts c.backpropInput ↔ Accepts c.computeDimensionsV2
  refused : ¬Accepts c.computeDimensionsV2 → Refuses c.backpropFilter ∧ Refuses c.backpropInput

/-- `Conv2DBackpropFilter` has nothing to compute. -/
def Empty : Prop :=
  c.input.numElements = 0 ∨ c.filter.numElements = 0 ∨ c.outBackprop.numElements = 0 ∨ c.filter = []

def Ranks : Prop := c.input.length = 4 ∧ c.filter.length = 4 ∧ c.outBackprop.length = 4

def backpropSize (dimension : DimIndices → Nat) : Nat :=
  getTensorDim c.outBackprop c.dataFormat dimension

def Divides : Prop := 0 < c.filter.getD 2 0 ∧ c.filter.getD 2 0 ∣ c.inputSize DimIndices.c

def Matches : Prop :=
  c.backpropSize DimIndices.n = c.inputSize DimIndices.n ∧
    c.backpropSize DimIndices.c = c.filter.getD 3 0 ∧
    (c.backpropSize DimIndices.h : Int) = c.outputSize (c.filterSize 0) DimIndices.h ∧
    (c.backpropSize DimIndices.w : Int) = c.outputSize (c.filterSize 1) DimIndices.w

/-- What `ConvBackpropComputeDimensionsV2` verifies. -/
def Verifies : Prop := c.Ranks ∧ c.Divides ∧ c.Matches

def Sized : Prop :=
  0 ≤ c.outputSize (c.filterSize 0) DimIndices.h ∧ 0 ≤ c.outputSize (c.filterSize 1) DimIndices.w

def AcceptsAlike : Prop :=
  c.Empty ∧ c.Verifies ∨ ¬c.Empty ∧ c.Ranks ∧ (c.Divides → c.Sized → (c.Matches ↔ c.Conv2DLimits))

def forwardWindow (filterSize : Int) (dimension : DimIndices → Nat) : Except Stop WindowedOutput :=
  Stop.windowed (c.inputSize dimension) filterSize (c.dilation dimension) (c.stride dimension)
    c.padding (c.paddingBefore dimension) (c.paddingAfter dimension)

variable {c}

theorem attributes_accepted : (0 < c.stride DimIndices.h ∧ 0 < c.stride DimIndices.w) ∧
      (0 < c.dilation DimIndices.h ∧ 0 < c.dilation DimIndices.w) ∧ c.ValidPaddings := by
  obtain ⟨strides, dilations, paddings, -⟩ := Call2D.parameters_eq_ok.mp c.made
  exact ⟨strides.2.2, dilations.2.2, paddings⟩

theorem getD_lt {sizes : TensorShape} {bound : Nat} (pos : 0 < bound)
    (each : ∀ size ∈ sizes, size < bound) (index : Nat) : sizes.getD index 0 < bound := by
  rw [getD_eq_getElem?_getD]
  cases got : sizes[index]? with
  | none => exact pos
  | some size => exact each size (mem_of_getElem? got)

variable {dimension : DimIndices → Nat}

theorem forwardWindow_fits {index : Nat} (fits : c.PaddedFits (c.filterSize index) dimension)
    (dilated : 0 < c.dilation dimension) (strided : 0 < c.stride dimension) :
    WindowFits (c.inputSize dimension) (c.filterSize index) (c.dilation dimension)
      (c.stride dimension) c.padding (c.paddingBefore dimension) (c.paddingAfter dimension) := by
  by_cases explicit : c.padding = .explicit
  · exact fits explicit
  · have sized : c.inputSize dimension < 2 ^ 31 := getD_lt (by decide) c.input_int32 _
    have filtered : c.filter.getD index 0 < 2 ^ 31 := getD_lt (by decide) c.filter_int32 _
    have dilation : Fits32 (c.dilation dimension) := Call2D.fits32_getD c.dilations_int32 _
    have stride : Fits32 (c.stride dimension) := Call2D.fits32_getD c.strides_int32 _
    exact windowFits_of_int32 (by omega) (by simp only [Call2D.filterSize]; omega)
      ⟨dilated, dilation.2⟩ ⟨strided, stride.2⟩ explicit

theorem rows_fit : WindowFits (c.inputSize DimIndices.h) (c.filterSize 0)
    (c.dilation DimIndices.h) (c.stride DimIndices.h) c.padding (c.paddingBefore DimIndices.h)
    (c.paddingAfter DimIndices.h) :=
  forwardWindow_fits c.rowsFit attributes_accepted.2.1.1 attributes_accepted.1.1

theorem columns_fit : WindowFits (c.inputSize DimIndices.w) (c.filterSize 1)
    (c.dilation DimIndices.w) (c.stride DimIndices.w) c.padding (c.paddingBefore DimIndices.w)
    (c.paddingAfter DimIndices.w) :=
  forwardWindow_fits c.columnsFit attributes_accepted.2.1.2 attributes_accepted.1.2

theorem window_shapes : c.shapes.window 0 = c.forwardWindow (c.filterSize 0) DimIndices.h ∧
      c.shapes.window 1 = c.forwardWindow (c.filterSize 1) DimIndices.w := by
  have sizes (index : Nat) : (c.input.map Int.ofNat).getD index 0 = (c.input.getD index 0 : Nat) :=
    getD_map_ofNat c.input index
  simp only [Shapes.window, Shapes.dimAt, shapes, shapes2D, Call2D.params, sizes, forwardWindow,
    Call2D.inputSize, Call2D.filterSize, Call2D.dilation, Call2D.stride, Call2D.paddingBefore,
    Call2D.paddingAfter, getTensorDim]
  cases c.format with
  | inl nhwc => simp [nhwc, imageDim, getTensorDimIndices]
  | inr nchw => simp [nchw, imageDim, getTensorDimIndices]

theorem dimIndices_format :
    getTensorBatchDimIndex 4 c.dataFormat = (getTensorDimIndices c.dataFormat).n ∧
      getTensorFeatureDimIndex 4 c.dataFormat = (getTensorDimIndices c.dataFormat).c ∧
      imageDim c.dataFormat 0 = (getTensorDimIndices c.dataFormat).h ∧
      imageDim c.dataFormat 1 = (getTensorDimIndices c.dataFormat).w ∧
      getTensorSpatialDims 4 c.dataFormat = 2 := by
  cases c.format with
  | inl nhwc => simp [nhwc, imageDim, getTensorDimIndices, getTensorBatchDimIndex,
      getTensorFeatureDimIndex, getTensorSpatialDims]
  | inr nchw => simp [nchw, imageDim, getTensorDimIndices, getTensorBatchDimIndex,
      getTensorFeatureDimIndex, getTensorSpatialDims]

theorem verifyShapes_eq_ok : verifyShapes c.shapes 2 = .ok () ↔
    c.Ranks ∧ c.Divides ∧ c.backpropSize DimIndices.n = c.inputSize DimIndices.n ∧
      c.backpropSize DimIndices.c = c.filter.getD 3 0 := by
  obtain ⟨batch, feature, -⟩ := c.dimIndices_format
  have sizes (index : Nat) : (c.input.map Int.ofNat).getD index 0 = (c.input.getD index 0 : Nat) :=
    getD_map_ofNat c.input index
  simp only [verifyShapes, bind_eq_ok, Stop.require_eq_ok, remainder_eq_ok, decide_eq_true_eq]
  simp only [shapes, shapes2D, Call2D.params, batch, feature, sizes, length_map, Nat.cast_inj]
  constructor
  · rintro ⟨-, input, -, filter, -, backprop, -, sameBatch, -, pos, _, ⟨-, rfl⟩, -, dvd, sameDepth⟩
    exact ⟨⟨input, filter, backprop⟩, ⟨pos, Int.natCast_dvd_natCast.mp
      (Int.dvd_of_tmod_eq_zero dvd)⟩, sameBatch.symm, sameDepth.symm⟩
  · rintro ⟨⟨input, filter, backprop⟩, ⟨pos, dvd⟩, sameBatch, sameDepth⟩
    exact ⟨(), input, (), filter, (), backprop, (), sameBatch.symm, (), pos, _,
      ⟨Int.natCast_ne_zero.mpr pos.ne', rfl⟩, (), Int.tmod_eq_zero_of_dvd (Int.natCast_dvd_natCast.mpr dvd),
      sameDepth.symm⟩

variable {spatialDim : Nat}

theorem explicitPaddings_enough (explicit : c.padding = .explicit) (lt : spatialDim < 2) :
    2 * imageDim c.dataFormat spatialDim + 1 < c.explicitPaddings.length := by
  have paddings := c.attributes_accepted.2.2
  rw [Call2D.ValidPaddings, if_pos explicit] at paddings
  rw [paddings.1]
  cases c.format with
  | inl nhwc =>
    simp only [nhwc, imageDim]
    omega
  | inr nchw =>
    simp only [nchw, imageDim]
    omega

theorem verified_iff_size (lt : spatialDim < 2)
    (place : imageDim c.dataFormat spatialDim = dimension (getTensorDimIndices c.dataFormat))
    (window : c.shapes.window spatialDim = c.forwardWindow (c.filterSize spatialDim) dimension)
    (strided : 0 < c.stride dimension) (dilated : 0 < c.dilation dimension)
    (fits : WindowFits (c.inputSize dimension) (c.filterSize spatialDim) (c.dilation dimension)
      (c.stride dimension) c.padding (c.paddingBefore dimension) (c.paddingAfter dimension)) :
    c.shapes.Verified 4 spatialDim ↔
      (c.backpropSize dimension : Int) = c.outputSize (c.filterSize spatialDim) dimension := by
  have spatialDims : getTensorSpatialDims 4 c.dataFormat = 2 := c.dimIndices_format.2.2.2.2
  have size : (c.shapes.dimAt spatialDim).outputSize = (c.backpropSize dimension : Nat) :=
    congrArg (fun index => ((c.outBackprop.getD index 0 : Nat) : Int)) place
  have enough : c.padding = .explicit →
      2 * imageDim c.dataFormat spatialDim + 1 < c.explicitPaddings.length :=
    fun explicit => c.explicitPaddings_enough explicit lt
  have image : spatialDim < getTensorSpatialDims 4 c.shapes.dataFormat := spatialDims ▸ lt
  rw [Shapes.Verified, window, size]
  simp only [forwardWindow, windowed_eq_ok]
  constructor
  · rintro ⟨-, -, win, ⟨-, -, -, -, rfl⟩, same⟩
    exact same
  · intro same
    refine ⟨image, enough, _, ⟨strided, dilated, fits, ?_, rfl⟩, same⟩
    exact (Int.natCast_nonneg _).trans_eq same

theorem verified_iff : (∀ spatialDim < 2, c.shapes.Verified 4 spatialDim) ↔
      (c.backpropSize DimIndices.h : Int) = c.outputSize (c.filterSize 0) DimIndices.h ∧
        (c.backpropSize DimIndices.w : Int) = c.outputSize (c.filterSize 1) DimIndices.w := by
  obtain ⟨⟨strideH, strideW⟩, ⟨dilationH, dilationW⟩, -⟩ := c.attributes_accepted
  obtain ⟨-, -, rowsDim, columnsDim, -⟩ := c.dimIndices_format
  have rows := c.verified_iff_size (by decide) rowsDim c.window_shapes.1 strideH dilationH
    c.rows_fit
  have cols := c.verified_iff_size (by decide) columnsDim c.window_shapes.2 strideW
    dilationW c.columns_fit
  rw [← rows, ← cols]
  constructor
  · exact fun each => ⟨each 0 (by decide), each 1 (by decide)⟩
  · rintro ⟨first, snd⟩ spatialDim lt
    match spatialDim, lt with
    | 0, _ => exact first
    | 1, _ => exact snd

theorem accepts_computeDimensionsV2 : Accepts c.computeDimensionsV2 ↔ c.Verifies := by
  simp only [Accepts, computeDimensionsV2, computeDimensionsV2_eq_ok, verifyShapes_eq_ok,
    verified_iff, Verifies, Matches]
  constructor
  · rintro ⟨-, ⟨ranks, dvd, batch, depth⟩, ⟨rows, cols⟩, -⟩
    exact ⟨ranks, dvd, batch, depth, rows, cols⟩
  · rintro ⟨ranks, dvd, batch, depth, rows, cols⟩
    exact ⟨_, ⟨ranks, dvd, batch, depth⟩, ⟨rows, cols⟩, rfl⟩

theorem refusing_verifyShapes : Refusing (verifyShapes c.shapes 2) := by
  refine refusing_bind refusing_require fun _ _ => ?_
  refine refusing_bind refusing_require fun _ _ => ?_
  refine refusing_bind refusing_require fun _ _ => ?_
  refine refusing_bind refusing_require fun _ _ => ?_
  refine refusing_bind refusing_require fun _ pos => ?_
  have divisor : (0 : Int) < (c.shapes.filter.getD (2 + 2 - 2) 0 : Nat) :=
    Int.natCast_pos.mpr (of_decide_eq_true (Stop.require_eq_ok.mp pos))
  rw [remainder_of_pos divisor, ok_bind]
  exact refusing_bind refusing_require fun _ _ => refusing_require

theorem refusing_window (lt : spatialDim < 2) : Refusing (c.shapes.window spatialDim) := by
  match spatialDim, lt with
  | 0, _ =>
    rw [window_shapes.1]
    exact refusing_windowed fun _ _ => rows_fit
  | 1, _ =>
    rw [window_shapes.2]
    exact refusing_windowed fun _ _ => columns_fit

theorem refusing_verifySpatialDim (lt : spatialDim < 2) :
    Refusing (verifySpatialDim c.shapes 4 spatialDim) := by
  have index : getTensorSpatialDimIndex 4 c.shapes.dataFormat spatialDim =
      .ok (imageDim c.shapes.dataFormat spatialDim) := by
    refine getTensorSpatialDimIndex_eq_ok.mpr ⟨?_, rfl⟩
    rw [show c.shapes.dataFormat = c.dataFormat from rfl, c.dimIndices_format.2.2.2.2]
    exact lt
  have window := refusing_window (c := c) lt
  rw [verifySpatialDim, index, ok_bind]
  by_cases explicit : c.shapes.padding = .explicit
  · have enough : 2 * imageDim c.shapes.dataFormat spatialDim + 1 <
        c.shapes.explicitPaddings.length := by
      exact c.explicitPaddings_enough explicit lt
    rw [if_pos explicit, entry_eq_ok.mpr ⟨by omega, rfl⟩, ok_bind,
      entry_eq_ok.mpr ⟨enough, rfl⟩, ok_bind]
    exact refusing_bind window fun _ _ => refusing_bind refusing_require fun _ _ => refusing_ok
  · rw [if_neg explicit]
    rw [Shapes.window, windowed_congr explicit (-1) (-1)] at window
    exact refusing_bind window fun _ _ => refusing_bind refusing_require fun _ _ => refusing_ok

theorem refusing_computeDimensionsV2 : Refusing c.computeDimensionsV2 := by
  refine refusing_bind refusing_verifyShapes fun _ _ => ?_
  refine refusing_bind (refusing_mapM fun spatialDim mem => ?_) fun _ _ => refusing_ok
  exact refusing_verifySpatialDim (mem_range.mp mem)

theorem backpropInput_of_rank (rank : c.input.length = 4) : c.backpropInput = (do
      let dims ← c.computeDimensionsV2
      let rows ← expectedWindow c.params (dims.spatialDim 0) DimIndices.h
      let cols ← expectedWindow c.params (dims.spatialDim 1) DimIndices.w
      .ok {
        outputShape := c.input.map Int.ofNat
        strideRows := StridedSlice.u32 (c.stride DimIndices.h)
        strideCols := StridedSlice.u32 (c.stride DimIndices.w)
        dilationRows := StridedSlice.u32 (c.dilation DimIndices.h)
        dilationCols := StridedSlice.u32 (c.dilation DimIndices.w)
        padRowsBefore := StridedSlice.u32 rows.paddingBefore
        padColsBefore := StridedSlice.u32 cols.paddingBefore
        padRowsAfter := StridedSlice.u32 rows.paddingAfter
        padColsAfter := StridedSlice.u32 cols.paddingAfter
        inputDepth := StridedSlice.u32 dims.inDepth
        patchDepth := StridedSlice.u32 (c.filter.getD 2 0 : Nat) }) := by
  have shape : (sizesOf c.input).shape = [4] := by rw [sizesOf, rank]
  have given : backpropComputeInputShape (sizesOf c.input) c.filter c.outBackprop c.dataFormat =
      .ok (c.input.map Int.ofNat) := by
    rw [backpropComputeInputShape, shape]
    simp only [c.isInput, requireOk, ok_bind]
  rw [backpropInput, conv2DBackpropInput]
  simp only [Call2D.params, given, ok_bind]
  rfl

theorem inputSize_dimAt
    (place : imageDim c.dataFormat spatialDim = dimension (getTensorDimIndices c.dataFormat)) :
    (c.shapes.dimAt spatialDim).inputSize = c.inputSize dimension :=
  (getD_map_ofNat c.input _).trans
    (congrArg (fun index => ((c.input.getD index 0 : Nat) : Int)) place)

theorem expectedWindow_verified {dims : Dimensions} (eq : c.computeDimensionsV2 = .ok dims) :
    expectedWindow c.params (dims.spatialDim 0) DimIndices.h =
        c.forwardWindow (c.filterSize 0) DimIndices.h ∧
      expectedWindow c.params (dims.spatialDim 1) DimIndices.w =
        c.forwardWindow (c.filterSize 1) DimIndices.w := by
  obtain ⟨-, -, rfl⟩ := computeDimensionsV2_eq_ok.mp eq
  obtain ⟨-, -, rowsDim, columnsDim, -⟩ := c.dimIndices_format
  rw [spatialDim_range (by decide), spatialDim_range (by decide)]
  constructor
  · rw [expectedWindow, inputSize_dimAt rowsDim]
    rfl
  · rw [expectedWindow, inputSize_dimAt columnsDim]
    rfl

theorem forwardWindow_eq_ok {filterSize : Int} (strided : 0 < c.stride dimension)
    (dilated : 0 < c.dilation dimension)
    (fits : WindowFits (c.inputSize dimension) filterSize (c.dilation dimension)
      (c.stride dimension) c.padding (c.paddingBefore dimension) (c.paddingAfter dimension))
    (sized : 0 ≤ c.outputSize filterSize dimension) :
    Accepts (c.forwardWindow filterSize dimension) :=
  exists_windowed.mpr ⟨strided, dilated, fits, sized⟩

theorem accepts_backpropInput (rank : c.input.length = 4) :
    Accepts c.backpropInput ↔ Accepts c.computeDimensionsV2 := by
  rw [backpropInput_of_rank rank]
  constructor
  · rintro ⟨_, ret⟩
    obtain ⟨dims, eq, -⟩ := bind_eq_ok.mp ret
    exact ⟨dims, eq⟩
  · intro ok
    obtain ⟨-, -, -, -, rowsSame, columnsSame⟩ := accepts_computeDimensionsV2.mp ok
    obtain ⟨⟨strideH, strideW⟩, ⟨dilationH, dilationW⟩, -⟩ := c.attributes_accepted
    obtain ⟨dims, eq⟩ := ok
    obtain ⟨rows, isRows⟩ := forwardWindow_eq_ok strideH dilationH rows_fit
      ((Int.natCast_nonneg _).trans_eq rowsSame)
    obtain ⟨cols, isColumns⟩ := forwardWindow_eq_ok strideW dilationW columns_fit
      ((Int.natCast_nonneg _).trans_eq columnsSame)
    obtain ⟨rowsWindow, columnsWindow⟩ := expectedWindow_verified eq
    simp only [eq, ok_bind, rowsWindow, isRows, columnsWindow, isColumns]
    exact ⟨_, rfl⟩

theorem refusing_backpropInput (rank : c.input.length = 4) : Refusing c.backpropInput := by
  rw [backpropInput_of_rank rank]
  refine refusing_bind refusing_computeDimensionsV2 fun dims eq => ?_
  rw [(expectedWindow_verified eq).1, (expectedWindow_verified eq).2]
  refine refusing_bind (refusing_windowed fun _ _ => rows_fit) fun _ _ => ?_
  exact refusing_bind (refusing_windowed fun _ _ => columns_fit) fun _ _ => refusing_ok

theorem isNoOpKernel_iff :
    NoOpKernel.isNoOpKernel [c.input, (sizesOf c.filter).shape, c.outBackprop] [c.filter] = true ↔
      c.Empty := by
  have vector : TensorShape.numElements [c.filter.length] = 0 ↔ c.filter = [] := by
    simp [TensorShape.numElements]
  rw [NoOpKernel.isNoOpKernel_iff, Empty, sizesOf]
  simp only [mem_cons, not_mem_nil, or_false, exists_eq_or_imp, exists_eq_left, vector]
  constructor
  · rintro ((input | filter | backprop) | output)
    · exact .inl input
    · exact .inr (.inr (.inr filter))
    · exact .inr (.inr (.inl backprop))
    · exact .inr (.inl output)
  · rintro (input | output | backprop | filter)
    · exact .inl (.inl input)
    · exact .inr output
    · exact .inl (.inr (.inr backprop))
    · exact .inl (.inr (.inl filter))

theorem kernel_of_ranks (ranks : c.Ranks) :
    conv2DBackpropFilterKernel c.params c.input c.filter c.outBackprop =
      computeDimension c.params c.input c.filter := by
  obtain ⟨input, filter, backprop⟩ := ranks
  simp [conv2DBackpropFilterKernel, input, filter, backprop, check, ok_bind]

theorem accepts_kernel (xs : 0 < c.filter.numElements) (ranks : c.Ranks) :
    Accepts (conv2DBackpropFilterKernel c.params c.input c.filter c.outBackprop) ↔
      c.Divides ∧ c.Sized ∧ c.Conv2DLimits := by
  have forward : c.conv2D = computeDimension c.params c.input c.filter := by
    rw [Call2D.conv2D, c.made]
    rfl
  rw [kernel_of_ranks ranks, ← forward, Accepts, Call2D.conv2D_returns c.rowsFit c.columnsFit]
  obtain ⟨strides, dilations, -, -⟩ := Call2D.parameters_eq_ok.mp c.made
  constructor
  · rintro ⟨valid, limits⟩
    exact ⟨⟨size_pos xs (by rw [ranks.2.1]; decide), valid.depths⟩, valid.sizes, limits⟩
  · rintro ⟨dvd, sized, limits⟩
    exact ⟨⟨strides, dilations, ⟨ranks.1, ranks.2.1⟩, xs, dvd.2, sized⟩, limits⟩

theorem refusing_kernel (ranks : c.Ranks) :
    Refusing (conv2DBackpropFilterKernel c.params c.input c.filter c.outBackprop) := by
  rw [kernel_of_ranks ranks, computeDimension]
  refine refusing_bind ?_ fun _ _ => ?_
  · refine refusing_bind refusing_require fun _ _ => ?_
    refine refusing_bind refusing_require fun _ _ => ?_
    refine refusing_bind refusing_require fun _ _ => ?_
    refine refusing_bind refusing_require fun _ _ => ?_
    refine refusing_bind refusing_require fun _ _ => ?_
    refine refusing_bind refusing_require fun _ pos => ?_
    have divisor : 0 < c.filter.getD 2 0 := of_decide_eq_true (Stop.require_eq_ok.mp pos)
    rw [remainder_natCast divisor, ok_bind]
    refine refusing_bind refusing_require fun _ _ => ?_
    refine refusing_bind refusing_require fun _ _ => ?_
    rw [quotient_natCast divisor, ok_bind]
    refine refusing_bind refusing_require fun _ groups => ?_
    refine refusing_bind ?_ fun _ _ => ?_
    · rw [remainder_of_pos (of_decide_eq_true (Stop.require_eq_ok.mp groups))]
      exact refusing_ok
    refine refusing_bind refusing_require fun _ _ => ?_
    refine refusing_bind refusing_require fun _ _ => ?_
    refine refusing_bind refusing_require fun _ _ => refusing_require
  · refine refusing_bind (refusing_windowed fun _ _ => rows_fit) fun _ _ => ?_
    exact refusing_bind (refusing_windowed fun _ _ => columns_fit) fun _ _ => refusing_ok

theorem kernel_fatal (other : ¬c.Ranks) :
    conv2DBackpropFilterKernel c.params c.input c.filter c.outBackprop = .error .fatal := by
  rw [conv2DBackpropFilterKernel]
  by_cases input : c.input.length = 4
  · by_cases backprop : c.outBackprop.length = 4
    · have filter : c.filter.length ≠ 4 := fun filter => other ⟨input, filter, backprop⟩
      simp [input, backprop, filter, check, ok_bind, error_bind]
    · simp [input, backprop, check, ok_bind, error_bind]
  · simp [input, check, error_bind]

theorem sameTriples_of_empty (empty : c.Empty) : c.SameTriples ↔ c.Verifies := by
  have skip : c.backpropFilter = .ok none := by
    rw [backpropFilter, conv2DBackpropFilter, if_pos (isNoOpKernel_iff.mpr empty)]
  constructor
  · intro same
    exact accepts_computeDimensionsV2.mp (same.filter.mp ⟨_, skip⟩)
  · intro verifies
    have ok := accepts_computeDimensionsV2.mpr verifies
    exact ⟨iff_of_true ⟨_, skip⟩ ok, accepts_backpropInput verifies.1.1,
      fun refused => absurd ok refused⟩

theorem backpropFilter_of_elements (xs : ¬c.Empty) : (Accepts c.backpropFilter ↔
      Accepts (conv2DBackpropFilterKernel c.params c.input c.filter c.outBackprop)) ∧
      (Refuses c.backpropFilter ↔
        Refuses (conv2DBackpropFilterKernel c.params c.input c.filter c.outBackprop)) := by
  rw [backpropFilter, conv2DBackpropFilter, if_neg (mt isNoOpKernel_iff.mp xs)]
  cases conv2DBackpropFilterKernel c.params c.input c.filter c.outBackprop with
  | ok dims =>
    refine ⟨iff_of_true ⟨_, rfl⟩ ⟨_, rfl⟩, iff_of_false ?_ ?_⟩
    · exact fun ⟨_, err⟩ => nomatch err
    · exact fun ⟨_, err⟩ => nomatch err
  | error stop =>
    refine ⟨iff_of_false ?_ ?_, ?_⟩
    · exact fun ⟨_, ret⟩ => nomatch ret
    · exact fun ⟨_, ret⟩ => nomatch ret
    · simp [Refuses, Functor.map, Except.map]

theorem sameTriples_of_elements (xs : ¬c.Empty) : c.SameTriples ↔
    c.Ranks ∧ (c.Divides → c.Sized → (c.Matches ↔ c.Conv2DLimits)) := by
  have filterElements : 0 < c.filter.numElements :=
    Nat.pos_of_ne_zero fun empty => xs (.inr (.inl empty))
  obtain ⟨filterAccepts, filterRefuses⟩ := backpropFilter_of_elements xs
  by_cases ranks : c.Ranks
  · have kernel := accepts_kernel filterElements ranks
    have sizedOfMatches : c.Matches → c.Sized := fun ⟨_, _, rows, cols⟩ =>
      ⟨(Int.natCast_nonneg _).trans_eq rows, (Int.natCast_nonneg _).trans_eq cols⟩
    constructor
    · intro same
      refine ⟨ranks, fun dvd sized => ?_⟩
      have alike := filterAccepts.symm.trans (same.filter.trans accepts_computeDimensionsV2)
      rw [kernel] at alike
      exact ⟨fun matched => (alike.mpr ⟨ranks, dvd, matched⟩).2.2,
        fun limits => (alike.mp ⟨dvd, sized, limits⟩).2.2⟩
    · rintro ⟨-, alike⟩
      have same : Accepts c.backpropFilter ↔ Accepts c.computeDimensionsV2 := by
        rw [filterAccepts, kernel, accepts_computeDimensionsV2]
        constructor
        · rintro ⟨dvd, sized, limits⟩
          exact ⟨ranks, dvd, (alike dvd sized).mpr limits⟩
        · rintro ⟨-, dvd, matched⟩
          have sized := sizedOfMatches matched
          exact ⟨dvd, sized, (alike dvd sized).mp matched⟩
      refine ⟨same, accepts_backpropInput ranks.1, fun refused => ⟨?_, ?_⟩⟩
      · exact filterRefuses.mpr ((refusing_kernel ranks).refuses
          (mt (fun ok => same.mp (filterAccepts.mpr ok)) refused))
      · exact (refusing_backpropInput ranks.1).refuses
          (mt (accepts_backpropInput ranks.1).mp refused)
  · -- the kernel aborts, although the three shapes are refused
    refine iff_of_false (fun same => ?_) fun alike => ranks alike.1
    have refused : ¬Accepts c.computeDimensionsV2 := fun ok =>
      ranks (accepts_computeDimensionsV2.mp ok).1
    obtain ⟨message, err⟩ := filterRefuses.mp (same.refused refused).1
    rw [kernel_fatal ranks] at err
    cases err

end GradCall2D

/-- The gradients of `Conv2D` accept the same triples exactly under this condition. -/
theorem sameTriples_iff (c : GradCall2D) : c.SameTriples ↔ c.AcceptsAlike := by
  by_cases empty : c.Empty
  · simp only [GradCall2D.AcceptsAlike, empty, GradCall2D.sameTriples_of_empty empty, true_and,
      not_true_eq_false, false_and, or_false]
  · simp only [GradCall2D.AcceptsAlike, empty, GradCall2D.sameTriples_of_elements empty, false_and,
      not_false_eq_true, true_and, false_or]

theorem nhwc_known : TensorFormat.nhwc = .nhwc ∨ TensorFormat.nhwc = .nchw := .inl rfl

/-- An input and a filter of one element, and what comes back as a tensor of the rank. -/
def onePixel (outBackprop : TensorShape) : GradCall2D where
  strides := [1, 1, 1, 1]
  dilations := [1, 1, 1, 1]
  dataFormat := .nhwc
  padding := .valid
  explicitPaddings := []
  input := [1, 1, 1, 1]
  filter := [1, 1, 1, 1]
  strides_length := ones_length
  dilations_length := ones_length
  strides_int32 := ones_fits32
  dilations_int32 := ones_fits32
  filter_sized := by decide +kernel
  outBackprop := outBackprop
  format := nhwc_known
  made := Call2D.parameters_eq_ok.mpr ⟨by decide, by decide, rfl, rfl⟩
  input_int32 := by decide
  filter_int32 := by decide
  isInput := by decide +kernel
  rowsFit := fun absurd_ => nomatch absurd_
  columnsFit := fun absurd_ => nomatch absurd_

/-- What comes back has three dimensions: one op refuses it, the other one aborts. -/
theorem onePixel_aborts : ¬(onePixel [1, 1, 1]).SameTriples ∧
    Refuses (onePixel [1, 1, 1]).backpropInput ∧
    (onePixel [1, 1, 1]).backpropFilter = .error .fatal := by
  have aborted : (onePixel [1, 1, 1]).backpropFilter = .error .fatal := rfl
  refine ⟨fun same => ?_, ?_, aborted⟩
  · have refused : ¬Accepts (onePixel [1, 1, 1]).computeDimensionsV2 := fun ⟨_, ret⟩ =>
      nomatch ret
    obtain ⟨message, err⟩ := (same.refused refused).1
    cases aborted.symm.trans err
  · exact ⟨_, rfl⟩

end TfDml.ConvBackprop
