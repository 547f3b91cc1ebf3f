import TfDml.Kernels.ConvBackprop

/-! # The paddings of a convolution and of its gradients

What a convolution and its two gradients hand to DirectML for the same sizes, beside the paddings
that `GetWindowedOutputSizeVerboseV2` computes.
-/

namespace TfDml.ConvBackprop

open Conv2D Conv3D ConvValidation Optimizer Optimizer.Remapper
open StridedSlice (u32)
open Stop

/-- The filter does not reach over the end of the input: `SAME` pads nothing. -/
def NeedsNoPadding (inputSize filterSize dilationRate stride : Int) : Prop :=
  filterSpread filterSize dilationRate ≤ (inputSize - 1) % stride

/-- Calls of `Conv3D` and of its gradients with the same sizes, each of which is accepted. The op
    has one of two data formats, and its strides are 32-bit values. -/
structure Calls3D where
  node : Conv3DNode
  attr : Conv3DAttributes
  input : TensorShape
  filter : TensorShape
  outBackprop : TensorShape
  inputSizes : SizesTensor
  filterSizes : SizesTensor
  forward : Conv3DDimensions
  backInput : Conv3DDimensions
  backFilter : Conv3DDimensions
  isAttr : conv3DAttributes node = .ok attr
  format : attr.dataFormat = .nhwc ∨ attr.dataFormat = .nchw
  strides_int32 : ∀ axis, attr.strides.get axis < 2 ^ 31
  isInput : inputSizes.makeShape = .ok input
  isFilter : filterSizes.makeShape = .ok filter
  isForward : conv3DDimensions attr input filter = .ok forward
  isBackInput : conv3DBackpropInput attr inputSizes filter outBackprop = .ok backInput
  isBackFilter : conv3DBackpropFilter attr input filterSizes outBackprop = .ok backFilter

namespace Calls3D

variable (c : Calls3D)

def window (axis : SpatialAxis) : Window := (windows c.attr c.input c.filter).get axis

def AgreesIn (axis : SpatialAxis) : Prop :=
  ∃ windowed, getWindowedOutputSizeVerboseV2 (c.window axis).inputSize (c.window axis).filterSize
      (c.window axis).dilationRate (c.window axis).stride c.attr.padding 0 0 = some (.ok windowed) ∧
    (c.forward.startPadding.get axis : Int) = windowed.paddingBefore ∧
    (c.forward.endPadding.get axis : Int) = windowed.paddingAfter ∧
    c.backInput.startPadding.get axis = c.forward.startPadding.get axis ∧
    c.backInput.endPadding.get axis = c.forward.endPadding.get axis ∧
    c.backFilter.startPadding.get axis = c.forward.startPadding.get axis ∧
    c.backFilter.endPadding.get axis = c.forward.endPadding.get axis

def Agree : Prop := ∀ axis, c.AgreesIn axis

/-- There is nothing to pad. -/
def Unpadded : Prop :=
  c.attr.padding = .valid ∨ ∀ axis, NeedsNoPadding (c.window axis).inputSize
    (c.window axis).filterSize (c.window axis).dilationRate (c.window axis).stride

end Calls3D

def axisIndex : SpatialAxis → Nat
  | .d => 0
  | .h => 1
  | .w => 2

section Shapes

variable {label : String} {attr : Conv3DAttributes} {input filter outBackprop : TensorShape}

def gradDimension (window : Window) (outputSize : Int) : SpatialDimension where
  inputSize := window.inputSize
  filterSize := window.filterSize
  outputSize := outputSize
  stride := window.stride
  dilation := window.dilationRate

theorem dimAt_shapes3D (format : attr.dataFormat = .nhwc ∨ attr.dataFormat = .nchw)
    (axis : SpatialAxis) : (shapes3D label attr input filter outBackprop).dimAt (axisIndex axis) =
      gradDimension ((windows attr input filter).get axis)
        (outBackprop.getD (imageDim attr.dataFormat (axisIndex axis)) 0 : Nat) := by
  simp only [Shapes.dimAt, shapes3D, getD_map_ofNat, windows, inputSizes, filterSizes,
    gradDimension]
  cases format with
  | inl nhwc =>
    cases axis with
    | d | h | w => simp [nhwc, imageDim, fiveEntries, axisIndex, getTensorDimIndices3,
        Spatial.get, Spatial.map]
  | inr nchw =>
    cases axis with
    | d | h | w => simp [nchw, imageDim, fiveEntries, axisIndex, getTensorDimIndices3,
        Spatial.get, Spatial.map]

theorem conv3DGrad_ok {dims : Conv3DDimensions}
    (format : attr.dataFormat = .nhwc ∨ attr.dataFormat = .nchw)
    (ret : conv3DGrad label attr input filter outBackprop = .ok dims) (axis : SpatialAxis) :
    ∃ windowed, Stop.windowed ((windows attr input filter).get axis).inputSize
        ((windows attr input filter).get axis).filterSize
        ((windows attr input filter).get axis).dilationRate
        ((windows attr input filter).get axis).stride attr.padding 0 0 = .ok windowed ∧
      dims.startPadding.get axis =
        u32 ((gradDimension ((windows attr input filter).get axis) windowed.outputSize).padding
          attr.padding) / 2 ∧ dims.endPadding.get axis =
        u32 ((gradDimension ((windows attr input filter).get axis) windowed.outputSize).padding
          attr.padding) / 2 +
        u32 ((gradDimension ((windows attr input filter).get axis) windowed.outputSize).padding
          attr.padding) % 2 := by
  simp only [conv3DGrad, bind_eq_ok, computeDimensionsV2_eq_ok] at ret
  obtain ⟨-, ⟨-, each, rfl⟩, ⟨⟩⟩ := ret
  have lt : axisIndex axis < 3 := by cases axis with | d | h | w => decide
  obtain ⟨-, -, windowed, win, sized⟩ := each _ lt
  rw [Shapes.window, dimAt_shapes3D format axis] at win
  rw [dimAt_shapes3D format axis] at sized
  have dim : (shapes3D label attr input filter outBackprop).dimAt (axisIndex axis) =
      gradDimension ((windows attr input filter).get axis) windowed.outputSize := by
    rw [dimAt_shapes3D format axis, ← sized]
    rfl
  refine ⟨windowed, win, ?_⟩
  rw [← dim]
  cases axis with
  | d | h | w => exact ⟨rfl, rfl⟩

theorem conv3DDimensions_ok {dims : Conv3DDimensions}
    (ret : conv3DDimensions attr input filter = .ok dims) (axis : SpatialAxis) :
    attr.padding ≠ .explicit ∧ 1 ≤ ((windows attr input filter).get axis).filterSize ∧
      0 ≤ ((windows attr input filter).get axis).inputSize ∧
      ∃ windowed, Stop.windowed ((windows attr input filter).get axis).inputSize
          ((windows attr input filter).get axis).filterSize
          ((windows attr input filter).get axis).dilationRate
          ((windows attr input filter).get axis).stride attr.padding 0 0 = .ok windowed ∧
        dims.startPadding.get axis = u32 windowed.paddingBefore ∧ dims.endPadding.get axis = 0 := by
  simp only [conv3DDimensions, bind_eq_ok] at ret
  obtain ⟨⟨⟩, shapes, sizes, isSizes, ⟨⟩⟩ := ret
  have window := Spatial.forDims_get isSizes axis
  rw [getWindowedOutputSizeV2] at window
  split at window
  · cases window
  · rename_i other
    obtain ⟨windowed, win, same⟩ := bind_eq_ok.mp window
    simp only [checkConv3DShapes, bind_eq_ok, Stop.require_eq_ok, decide_eq_true_eq] at shapes
    obtain ⟨-, -, -, rank, -, -, -, -, -, -, xs⟩ := shapes
    have sized {index : Nat} (lt : index < 5) : 0 < filter.getD index 0 := size_pos xs (by omega)
    refine ⟨other, ?_, ?_, windowed, win, ?_, ?_⟩
    · cases axis with
      | d | h | w => exact Int.ofNat_le.mpr (sized (by omega))
    · cases axis with
      | d | h | w => exact Int.natCast_nonneg _
    · rw [Spatial.get_map, ← Except.ok.inj same]
    · cases axis with
      | d | h | w => rfl

end Shapes

section Same

variable {window : Window} {windowed : WindowedOutput}

theorem padding_of_unpadded (sized : 0 ≤ window.inputSize) (filtered : 1 ≤ window.filterSize)
    (lt : window.stride < 2 ^ 31)
    (win : Stop.windowed window.inputSize window.filterSize window.dilationRate
      window.stride .same 0 0 = .ok windowed)
    (unpadded : NeedsNoPadding window.inputSize window.filterSize window.dilationRate
      window.stride) : (gradDimension window windowed.outputSize).padding .same = 0 := by
  rw [windowed_eq, requireChecked_eq_ok] at win
  obtain ⟨strided, dilated, -, -, -, size, -, -⟩ := same_spec sized filtered win
  have rest := Int.emod_lt_of_pos (window.inputSize - 1) strided
  have spread := filterSpread_nonneg filtered dilated
  have last : ((window.inputSize + window.stride - 1) / window.stride - 1) * window.stride =
      window.inputSize - 1 - (window.inputSize - 1) % window.stride := last_window strided
  rw [← size] at last
  rw [SpatialDimension.padding, if_neg (by decide)]
  simp only [gradDimension, NeedsNoPadding, filterSpread] at unpadded spread ⊢
  have missing : (windowed.outputSize - 1) * window.stride +
      (window.filterSize - 1) * window.dilationRate + 1 - window.inputSize =
      (window.filterSize - 1) * window.dilationRate - (window.inputSize - 1) % window.stride := by
    rw [last]
    ring
  rw [missing, toInt32, Int.bmod_eq_of_le (by omega) (by omega)]
  omega

theorem windowed_unpadded (sized : 0 ≤ window.inputSize) (filtered : 1 ≤ window.filterSize)
    (win : Stop.windowed window.inputSize window.filterSize window.dilationRate
      window.stride .same 0 0 = .ok windowed) :
    (windowed.paddingAfter = 0 ↔ NeedsNoPadding window.inputSize window.filterSize
      window.dilationRate window.stride) ∧
      (windowed.paddingAfter = 0 → windowed.paddingBefore = 0) := by
  rw [windowed_eq, requireChecked_eq_ok] at win
  obtain ⟨strided, dilated, -, -, -, -, pre, after⟩ := same_spec sized filtered win
  have rest := Int.emod_nonneg (window.inputSize - 1) strided.ne'
  have spread := filterSpread_nonneg filtered dilated
  rw [samePaddingNeeded, spareSize] at pre after
  rw [NeedsNoPadding]
  omega

end Same

namespace Calls3D

variable {c : Calls3D} {axis : SpatialAxis}

theorem window_valid {windowed : WindowedOutput} {inputSize filterSize dilationRate stride : Int}
    (win : Stop.windowed inputSize filterSize dilationRate stride .valid 0 0 =
      .ok windowed) : windowed.paddingBefore = 0 ∧ windowed.paddingAfter = 0 := by
  obtain ⟨-, -, -, -, rfl⟩ := windowed_eq_ok.mp win
  exact ⟨rfl, rfl⟩

theorem agreesIn_iff : c.AgreesIn axis ↔
    c.attr.padding = .valid ∨ NeedsNoPadding (c.window axis).inputSize (c.window axis).filterSize
      (c.window axis).dilationRate (c.window axis).stride := by
  obtain ⟨other, filtered, sized, windowed, win, start, end_⟩ :=
    conv3DDimensions_ok c.isForward axis
  have isBackInput := c.isBackInput
  have isBackFilter := c.isBackFilter
  simp only [conv3DBackpropInput, conv3DBackpropFilter, c.isInput, c.isFilter, requireOk,
    ok_bind] at isBackInput isBackFilter
  obtain ⟨_, same, inputStart, inputEnd⟩ := conv3DGrad_ok c.format isBackInput axis
  obtain rfl := Except.ok.inj (win.symm.trans same)
  obtain ⟨_, same, filterStart, filterEnd⟩ := conv3DGrad_ok c.format isBackFilter axis
  obtain rfl := Except.ok.inj (win.symm.trans same)
  have verbose := win
  rw [windowed_eq, requireChecked_eq_ok] at verbose
  have lt : (c.window axis).stride < 2 ^ 31 := by
    have bound := c.strides_int32 axis
    cases axis with
    | d | h | w => exact bound
  constructor
  · rintro ⟨_, same, -, after, -⟩
    obtain rfl := Except.ok.inj (Option.some.inj (verbose.symm.trans same))
    rw [end_] at after
    cases padding : c.attr.padding with
    | valid => exact .inl rfl
    | explicit => exact absurd padding other
    | same =>
      rw [padding] at win
      exact .inr ((windowed_unpadded sized filtered win).1.mp after.symm)
  · intro unpadded
    have zero : windowed.paddingBefore = 0 ∧ windowed.paddingAfter = 0 ∧
        (gradDimension ((windows c.attr c.input c.filter).get axis) windowed.outputSize).padding
          c.attr.padding = 0 := by
      cases padding : c.attr.padding with
      | explicit => exact absurd padding other
      | valid =>
        rw [padding] at win
        exact ⟨(window_valid win).1, (window_valid win).2, rfl⟩
      | same =>
        rw [padding] at win
        have unpadded := unpadded.resolve_left (by simp [padding])
        have after := (windowed_unpadded sized filtered win).1.mpr unpadded
        exact ⟨(windowed_unpadded sized filtered win).2 after, after,
          padding_of_unpadded sized filtered lt win unpadded⟩
    obtain ⟨pre, after, gradient⟩ := zero
    refine ⟨windowed, verbose, ?_⟩
    rw [start, end_, inputStart, inputEnd, filterStart, filterEnd, pre, after, gradient]
    decide

theorem agree_iff : c.Agree ↔ c.Unpadded := by
  simp only [Agree, agreesIn_iff, Unpadded]
  constructor
  · intro each
    by_cases valid : c.attr.padding = .valid
    · exact .inl valid
    · exact .inr fun axis => (each axis).resolve_left valid
  · rintro (valid | each) axis
    · exact .inl valid
    · exact .inr (each axis)

end Calls3D

/-- Calls of `Conv2D` and of its gradients with the same sizes, each of which is accepted. The op
    has one of two data formats. -/
structure Calls2D where
  attributes : Conv2DAttributes
  params : Conv2DParameters
  input : TensorShape
  filter : TensorShape
  outBackprop : TensorShape
  inputSizes : SizesTensor
  forward : Conv2DDimensions
  backInput : GradInput
  backFilter : Conv2DDimensions
  isParams : initConv2DParameters attributes = some (.ok params)
  format : params.dataFormat = .nhwc ∨ params.dataFormat = .nchw
  isInput : backpropComputeInputShape inputSizes filter outBackprop params.dataFormat =
    .ok (input.map Int.ofNat)
  isForward : computeDimension params input filter = .ok forward
  isBackInput : conv2DBackpropInput params inputSizes filter outBackprop = .ok backInput
  isBackFilter : conv2DBackpropFilterKernel params input filter outBackprop = .ok backFilter

def PaddingsFit (inputSize filterSize dilationRate stride : Int) (paddingType : Padding)
    (paddingBefore paddingAfter : Int) : Prop :=
  match paddingType with
  | .valid => True
  | .explicit => paddingBefore < 2 ^ 32 ∧ paddingAfter < 2 ^ 32
  | .same => samePaddingNeeded inputSize filterSize dilationRate stride -
      samePaddingNeeded inputSize filterSize dilationRate stride / 2 < 2 ^ 32

namespace Calls2D

variable (c : Calls2D)

/-- The paddings of a dimension, before and after it, are those of the window in all three ops. -/
def AgreesIn (filterSize : Nat) (dimension : DimIndices → Nat) (forward backFilter : Int × Int)
    (backInput : Nat × Nat) : Prop :=
  ∃ windowed, conv2DWindow c.params c.input filterSize dimension = some (.ok windowed) ∧
    (u32 forward.1 : Int) = windowed.paddingBefore ∧ (u32 forward.2 : Int) = windowed.paddingAfter ∧
    backInput = (u32 forward.1, u32 forward.2) ∧
    (u32 backFilter.1, u32 backFilter.2) = (u32 forward.1, u32 forward.2)

def Agree : Prop :=
  c.AgreesIn (c.filter.getD 0 0) DimIndices.h (c.forward.padRowsBefore, c.forward.padRowsAfter)
    (c.backFilter.padRowsBefore, c.backFilter.padRowsAfter)
    (c.backInput.padRowsBefore, c.backInput.padRowsAfter) ∧
  c.AgreesIn (c.filter.getD 1 0) DimIndices.w (c.forward.padColsBefore, c.forward.padColsAfter)
    (c.backFilter.padColsBefore, c.backFilter.padColsAfter)
    (c.backInput.padColsBefore, c.backInput.padColsAfter)

def FitsIn (filterSize : Nat) (dimension : DimIndices → Nat) : Prop :=
  let index := dimension (getTensorDimIndices c.params.dataFormat)
  PaddingsFit (getTensorDim c.input c.params.dataFormat dimension : Nat) filterSize
    (getTensorDim c.params.dilations c.params.dataFormat dimension)
    (getTensorDim c.params.strides c.params.dataFormat dimension) c.params.padding
    (c.params.explicitPaddings.getD (2 * index) 0)
    (c.params.explicitPaddings.getD (2 * index + 1) 0)

def Fits : Prop :=
  c.FitsIn (c.filter.getD 0 0) DimIndices.h ∧ c.FitsIn (c.filter.getD 1 0) DimIndices.w

variable {c}

theorem explicit_nonneg (explicit : c.params.padding = .explicit) (index : Nat) :
    0 ≤ c.params.explicitPaddings.getD index 0 := by
  obtain ⟨-, -, -, valid⟩ := initConv2DParameters_ok c.isParams
  rw [checkValidPadding, if_pos explicit] at valid
  simp only [bind_eq_ok, opRequires_eq_ok, List.all_eq_true, decide_eq_true_eq] at valid
  obtain ⟨-, -, -, each, -⟩ := valid
  rw [List.getD_eq_getElem?_getD]
  cases got : c.params.explicitPaddings[index]? with
  | none => exact le_rfl
  | some amount => exact each amount (List.mem_of_getElem? got)

theorem u32_eq_iff {n : Int} (ge : 0 ≤ n) : (u32 n : Int) = n ↔ n < 2 ^ 32 := by
  rw [u32]
  omega

theorem handed_iff {filterSize : Nat} {dimension : DimIndices → Nat} {windowed : WindowedOutput}
    (filtered : 1 ≤ filterSize)
    (win : conv2DWindow c.params c.input filterSize dimension = some (.ok windowed)) :
    (u32 windowed.paddingBefore : Int) = windowed.paddingBefore ∧
      (u32 windowed.paddingAfter : Int) = windowed.paddingAfter ↔ c.FitsIn filterSize dimension := by
  simp only [FitsIn, PaddingsFit]
  cases padding : c.params.padding with
  | valid =>
    rw [conv2DWindow, padding, ← requireChecked_eq_ok, ← windowed_eq] at win
    obtain ⟨-, -, -, -, rfl⟩ := windowed_eq_ok.mp win
    simp [windowedOutput, u32]
  | explicit =>
    have ge := explicit_nonneg padding
    rw [conv2DWindow, padding, ← requireChecked_eq_ok, ← windowed_eq] at win
    obtain ⟨-, -, -, -, rfl⟩ := windowed_eq_ok.mp win
    simp only [windowedOutput]
    rw [u32_eq_iff (ge _), u32_eq_iff (ge _)]
  | same =>
    rw [conv2DWindow, padding] at win
    obtain ⟨strided, dilated, -, -, -, -, pre, after⟩ :=
      same_spec (Int.natCast_nonneg _) (by omega) win
    have ge : 0 ≤ windowed.paddingBefore ∧ windowed.paddingBefore ≤ windowed.paddingAfter := by
      have spread := filterSpread_nonneg (by omega : 1 ≤ (filterSize : Int)) dilated
      simp only [samePaddingNeeded, spareSize] at pre after
      omega
    rw [u32_eq_iff ge.1, u32_eq_iff (by omega), ← after]
    omega

theorem forward_windows :
    ∃ rows cols, conv2DWindow c.params c.input (c.filter.getD 0 0) DimIndices.h = some (.ok rows) ∧
      conv2DWindow c.params c.input (c.filter.getD 1 0) DimIndices.w = some (.ok cols) ∧
      c.forward = conv2DDimensions c.params c.input c.filter rows cols ∧
      1 ≤ c.filter.getD 0 0 ∧ 1 ≤ c.filter.getD 1 0 := by
  have isForward := c.isForward
  rw [computeDimension_eq, requireChecked_eq_ok, computeConv2DDimension_ok] at isForward
  obtain ⟨checked, rows, cols, isRows, isColumns, made⟩ := isForward
  simp only [checkConv2DShapes, bind_eq_ok, opRequires_eq_ok, decide_eq_true_eq] at checked
  obtain ⟨-, -, -, rank, -, -, -, -, -, -, -, -, -, -, -, xs, -⟩ := checked
  exact ⟨rows, cols, isRows, isColumns, made, size_pos xs (by omega), size_pos xs (by omega)⟩

theorem backFilter_eq : c.backFilter = c.forward := by
  have isBackFilter := c.isBackFilter
  simp only [conv2DBackpropFilterKernel, bind_eq_ok, check_eq_ok] at isBackFilter
  obtain ⟨-, -, -, -, -, -, eq⟩ := isBackFilter
  exact Except.ok.inj (eq.symm.trans c.isForward)

theorem place_spatial {format : TensorFormat} (allowed : format = .nhwc ∨ format = .nchw) :
    (getTensorDimIndices format).h = imageDim format 0 ∧
      (getTensorDimIndices format).w = imageDim format 1 := by
  cases allowed with
  | inl nhwc => exact nhwc ▸ ⟨rfl, rfl⟩
  | inr nchw => exact nchw ▸ ⟨rfl, rfl⟩

theorem expectedWindow_eq {params : Conv2DParameters} {input filter outBackprop : TensorShape}
    {spatialDim : Nat} {dimension : DimIndices → Nat}
    (place : dimension (getTensorDimIndices params.dataFormat) =
      imageDim params.dataFormat spatialDim) : expectedWindow params
      ((shapes2D params (input.map Int.ofNat) filter outBackprop).dimAt spatialDim) dimension =
      dimensionWindow params input (filter.getD spatialDim 0) dimension := by
  simp only [expectedWindow, dimensionWindow, Shapes.dimAt, shapes2D, getD_map_ofNat,
    getTensorDim, place]

theorem backInput_paddings {rows cols : WindowedOutput}
    (isRows : conv2DWindow c.params c.input (c.filter.getD 0 0) DimIndices.h = some (.ok rows))
    (isColumns : conv2DWindow c.params c.input (c.filter.getD 1 0) DimIndices.w =
      some (.ok cols)) : (c.backInput.padRowsBefore = u32 rows.paddingBefore ∧
      c.backInput.padRowsAfter = u32 rows.paddingAfter) ∧
      c.backInput.padColsBefore = u32 cols.paddingBefore ∧
      c.backInput.padColsAfter = u32 cols.paddingAfter := by
  have isBackInput := c.isBackInput
  simp only [conv2DBackpropInput, c.isInput, ok_bind, bind_eq_ok,
    computeDimensionsV2_eq_ok] at isBackInput
  obtain ⟨-, ⟨-, -, rfl⟩, rows', isRows', cols', isColumns', made⟩ := isBackInput
  rw [← requireChecked_eq_ok, ← dimensionWindow_eq] at isRows isColumns
  rw [spatialDim_range (by decide), expectedWindow_eq (place_spatial c.format).1, isRows]
    at isRows'
  rw [spatialDim_range (by decide), expectedWindow_eq (place_spatial c.format).2, isColumns]
    at isColumns'
  rw [← Except.ok.inj made, ← Except.ok.inj isRows', ← Except.ok.inj isColumns']
  exact ⟨⟨rfl, rfl⟩, rfl, rfl⟩

theorem agree_iff : c.Agree ↔ c.Fits := by
  obtain ⟨rows, cols, isRows, isColumns, made, filterRows, filterColumns⟩ := c.forward_windows
  obtain ⟨⟨rowsBefore, rowsAfter⟩, columnsBefore, columnsAfter⟩ :=
    backInput_paddings isRows isColumns
  rw [Fits, ← handed_iff filterRows isRows, ← handed_iff filterColumns isColumns, Agree,
    backFilter_eq, rowsBefore, rowsAfter, columnsBefore, columnsAfter, made]
  simp only [AgreesIn, isRows, isColumns, conv2DDimensions, Option.some.injEq, Except.ok.injEq,
    exists_eq_left', and_true]

end Calls2D

/-- The paddings agree in 3-D exactly where there are none, and in 2-D where they fit in 32 bits. -/
theorem paddings_agree_iff (c : Calls3D) (d : Calls2D) : c.Agree ∧ d.Agree ↔ c.Unpadded ∧ d.Fits :=
  and_congr Calls3D.agree_iff Calls2D.agree_iff

/-- A filter of three elements on a volume of three, which `SAME` pads on both sides. -/
def paddedVolume : Calls3D where
  node := ⟨some "NDHWC", [1, 1, 1, 1, 1], [1, 1, 1, 1, 1], .same⟩
  attr := ⟨.nhwc, .same, ⟨1, 1, 1⟩, ⟨1, 1, 1⟩⟩
  input := [1, 3, 3, 3, 1]
  filter := [3, 3, 3, 1, 1]
  outBackprop := [1, 3, 3, 3, 1]
  inputSizes := sizesOf [1, 3, 3, 3, 1]
  filterSizes := sizesOf [3, 3, 3, 1, 1]
  forward := ⟨1, 1, ⟨3, 3, 3⟩, 1, ⟨3, 3, 3⟩, 1, ⟨3, 3, 3⟩, ⟨1, 1, 1⟩, ⟨1, 1, 1⟩, ⟨1, 1, 1⟩,
    ⟨0, 0, 0⟩, ⟨0, 0, 0⟩⟩
  backInput := ⟨1, 1, ⟨3, 3, 3⟩, 1, ⟨3, 3, 3⟩, 1, ⟨3, 3, 3⟩, ⟨1, 1, 1⟩, ⟨1, 1, 1⟩, ⟨1, 1, 1⟩,
    ⟨1, 1, 1⟩, ⟨0, 0, 0⟩⟩
  backFilter := ⟨1, 1, ⟨3, 3, 3⟩, 1, ⟨3, 3, 3⟩, 1, ⟨3, 3, 3⟩, ⟨1, 1, 1⟩, ⟨1, 1, 1⟩, ⟨1, 1, 1⟩,
    ⟨1, 1, 1⟩, ⟨0, 0, 0⟩⟩
  isAttr := by rfl
  format := .inl rfl
  strides_int32 := fun axis => by cases axis with | d | h | w => decide
  isInput := by decide
  isFilter := by decide
  isForward := by decide
  isBackInput := by decide
  isBackFilter := by decide

def paddedImage : Calls2D where
  attributes := ⟨[1, 1, 1, 1], [1, 1, 1, 1], "SAME", [], "NHWC"⟩
  params := ⟨[1, 1, 1, 1], [1, 1, 1, 1], .same, [], .nhwc⟩
  input := [1, 3, 3, 1]
  filter := [3, 3, 1, 1]
  outBackprop := [1, 3, 3, 1]
  inputSizes := sizesOf [1, 3, 3, 1]
  forward := ⟨1, 3, 3, 1, 3, 3, 1, 1, 1, 1, 1, 1, 3, 3, 1, 1, 1, 1⟩
  backInput := ⟨[1, 3, 3, 1], 1, 1, 1, 1, 1, 1, 1, 1, 1, 1⟩
  backFilter := ⟨1, 3, 3, 1, 3, 3, 1, 1, 1, 1, 1, 1, 3, 3, 1, 1, 1, 1⟩
  isParams := by rfl
  format := .inl rfl
  isInput := by decide
  isForward := by decide
  isBackInput := by decide
  isBackFilter := by decide

/-- `Conv3D` leaves out the padding after the volume. -/
theorem paddedVolume_disagrees : ¬(paddedVolume.Agree ∧ paddedImage.Agree) := by
  rintro ⟨agree, -⟩
  obtain ⟨windowed, win, -, after, -⟩ := agree .d
  have padded : windowed = ⟨3, 1, 1⟩ := Except.ok.inj (Option.some.inj (win.symm.trans (by decide)))
  rw [padded] at after
  exact absurd after (by decide)

end TfDml.ConvBackprop
