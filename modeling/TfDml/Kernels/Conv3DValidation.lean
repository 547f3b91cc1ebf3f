import TfDml.Kernels.ConvValidation

/-! # What `Conv3D` accepts, and the three convolutions together -/

namespace TfDml.ConvValidation

open Conv3D Optimizer Optimizer.Remapper
open Stop

structure Call3D where
  strides : List Int
  dilations : List Int
  dataFormat : TensorFormat
  padding : Padding
  input : TensorShape
  filter : TensorShape
  strides_length : strides.length = 5
  dilations_length : dilations.length = 5

namespace Call3D

variable (c : Call3D)

def indices : DimIndices3 := getTensorDimIndices3 c.dataFormat

/-- The strides of the spatial dimensions, and their dilations. -/
def spatialStrides : Spatial Int := c.indices.spatial.map fun index => c.strides.getD index 0

def spatialDilations : Spatial Int := c.indices.spatial.map fun index => c.dilations.getD index 0

def attr : Conv3DAttributes := ⟨c.dataFormat, c.padding, c.spatialStrides, c.spatialDilations⟩

def outputSize (window : Window) : Int :=
  (windowedOutput window.inputSize window.filterSize window.dilationRate window.stride c.padding
    0 0).outputSize

def WindowsFit : Prop :=
  (windows c.attr c.input c.filter).All fun window =>
    WindowFits window.inputSize window.filterSize window.dilationRate window.stride c.padding 0 0

structure Valid : Prop where
  strides : c.strides.getD c.indices.n 0 = 1 ∧ c.strides.getD c.indices.c 0 = 1 ∧
    c.spatialStrides.All (0 < ·)
  dilations : c.dilations.getD c.indices.n 0 = 1 ∧ c.dilations.getD c.indices.c 0 = 1 ∧
    c.spatialDilations.All (0 < ·)
  ranks : c.input.length = 5 ∧ c.filter.length = 5
  elements : 0 < c.filter.numElements
  depths : c.filter.getD 3 0 ∣ c.input.getD c.indices.c 0
  sizes : (windows c.attr c.input c.filter).All fun window => 0 ≤ c.outputSize window

def Accepts : Prop := c.Valid ∧ c.padding ≠ .explicit

/-- `Conv3D`, from its attributes to the dimensions of the convolution. -/
def conv3D : Except Stop Conv3DDimensions := do
  let attr ← requireOk (conv3DAttributes
    ⟨some (formatName c.dataFormat), c.strides, c.dilations, c.padding⟩)
  conv3DDimensions attr c.input c.filter

variable {c}

theorem attributes_eq_ok {attr : Conv3DAttributes} :
    conv3DAttributes ⟨some (formatName c.dataFormat), c.strides, c.dilations, c.padding⟩ =
      .ok attr ↔ (c.strides.getD c.indices.n 0 = 1 ∧ c.strides.getD c.indices.c 0 = 1 ∧
        c.spatialStrides.All (0 < ·)) ∧
      (c.dilations.getD c.indices.n 0 = 1 ∧ c.dilations.getD c.indices.c 0 = 1 ∧
        c.spatialDilations.All (0 < ·)) ∧ attr = c.attr := by
  simp only [conv3DAttributes, nodeFormat, formatFromString_formatName, bind_eq_ok,
    opRequires_eq_ok, Bool.and_eq_true, decide_eq_true_eq]
  constructor
  · rintro ⟨-, ⟨⟩, -, -, -, strides, -, spatial, -, -, -, dilations, -, spatialDilations, ⟨⟩⟩
    exact ⟨⟨strides.1, strides.2, spatial⟩, ⟨dilations.1, dilations.2, spatialDilations⟩, rfl⟩
  · rintro ⟨⟨strideN, strideC, spatial⟩, ⟨dilationN, dilationC, spatialDilations⟩, rfl⟩
    exact ⟨_, rfl, (), c.strides_length, (), ⟨strideN, strideC⟩, (), spatial, (),
      c.dilations_length, (), ⟨dilationN, dilationC⟩, (), spatialDilations, rfl⟩

def Divides (c : Call3D) : Prop := c.filter.getD 0 0 = 0 ∨ c.filter.getD 3 0 ≠ 0

theorem checkShapes_eq_ok : checkConv3DShapes c.attr c.input c.filter = .ok () ↔
      (c.input.length = 5 ∧ c.filter.length = 5) ∧ 0 < c.filter.numElements ∧
        c.filter.getD 3 0 ∣ c.input.getD c.indices.c 0 := by
  simp only [checkConv3DShapes, bind_eq_ok, Stop.require_eq_ok, remainder_eq_ok, decide_eq_true_eq]
  constructor
  · rintro ⟨-, input, -, filter, -, -, rest, ⟨-, rfl⟩, -, dvd, xs⟩
    exact ⟨⟨input, filter⟩, xs, Int.natCast_dvd_natCast.mp (Int.dvd_of_tmod_eq_zero dvd)⟩
  · rintro ⟨⟨input, filter⟩, xs, dvd⟩
    have depth : 0 < c.filter.getD 0 0 := size_pos xs (by omega)
    have channels : 0 < c.filter.getD 3 0 := size_pos xs (by omega)
    exact ⟨(), input, (), filter, (), depth.ne', _, ⟨by omega, rfl⟩, (),
      Int.tmod_eq_zero_of_dvd (Int.natCast_dvd_natCast.mpr dvd), xs⟩

theorem orderly_checkShapes (dvd : c.Divides) :
    Stop.Orderly (checkConv3DShapes c.attr c.input c.filter) := by
  refine orderly_bind orderly_require fun _ _ => ?_
  refine orderly_bind orderly_require fun _ _ => ?_
  refine orderly_bind orderly_require fun _ depth => ?_
  have channels : c.filter.getD 3 0 ≠ 0 :=
    dvd.resolve_left (of_decide_eq_true (Stop.require_eq_ok.mp depth))
  refine orderly_bind (x := remainder _ _) ?_ fun _ _ => ?_
  · rw [remainder_natCast (Nat.pos_of_ne_zero channels)]
    exact orderly_ok
  refine orderly_bind orderly_require fun _ _ => orderly_require

theorem conv3D_returns (fits : c.WindowsFit) : (∃ dims, c.conv3D = .ok dims) ↔ c.Accepts := by
  simp only [conv3D, conv3DDimensions, bind_eq_ok, requireOk_eq_ok]
  constructor
  · rintro ⟨-, attr, attrs, ⟨⟩, shapes, sizes, isSizes, -⟩
    obtain ⟨strides, dilations, rfl⟩ := attributes_eq_ok.mp attrs
    obtain ⟨ranks, xs, dvd⟩ := checkShapes_eq_ok.mp shapes
    obtain ⟨d, h, w⟩ := Spatial.exists_forDims.mp ⟨sizes, isSizes⟩
    obtain ⟨other, -, -, -, depthSized⟩ := exists_getWindowedOutputSizeV2.mp d
    obtain ⟨-, -, -, -, heightSized⟩ := exists_getWindowedOutputSizeV2.mp h
    obtain ⟨-, -, -, -, widthSized⟩ := exists_getWindowedOutputSizeV2.mp w
    exact ⟨⟨strides, dilations, ranks, xs, dvd, depthSized, heightSized, widthSized⟩, other⟩
  · rintro ⟨valid, other⟩
    have shapes := checkShapes_eq_ok.mpr ⟨valid.ranks, valid.elements, valid.depths⟩
    obtain ⟨-, -, strideD, strideH, strideW⟩ := valid.strides
    obtain ⟨-, -, dilationD, dilationH, dilationW⟩ := valid.dilations
    obtain ⟨sizes, isSizes⟩ := (Spatial.exists_forDims (s := windows c.attr c.input c.filter)).mpr
      ⟨exists_getWindowedOutputSizeV2.mpr ⟨other, strideD, dilationD, fits.1, valid.sizes.1⟩,
        exists_getWindowedOutputSizeV2.mpr ⟨other, strideH, dilationH, fits.2.1, valid.sizes.2.1⟩,
        exists_getWindowedOutputSizeV2.mpr ⟨other, strideW, dilationW, fits.2.2, valid.sizes.2.2⟩⟩
    exact ⟨_, c.attr, attributes_eq_ok.mpr ⟨valid.strides, valid.dilations, rfl⟩, (), shapes,
      sizes, isSizes, rfl⟩

theorem orderly_conv3D (dvd : c.Divides) (fits : c.WindowsFit) : Stop.Orderly c.conv3D := by
  refine orderly_bind orderly_requireOk fun attr isAttr => ?_
  obtain ⟨-, -, rfl⟩ := attributes_eq_ok.mp (requireOk_eq_ok.mp isAttr)
  refine orderly_bind (orderly_checkShapes dvd) fun _ _ => ?_
  refine orderly_bind (Spatial.orderly_forDims ?_) fun _ _ => orderly_ok
  exact ⟨orderly_getWindowedOutputSizeV2 fits.1, orderly_getWindowedOutputSizeV2 fits.2.1,
    orderly_getWindowedOutputSizeV2 fits.2.2⟩

theorem conv3D_ne_divisionByZero (dvd : c.Divides) : c.conv3D ≠ .error .divisionByZero := by
  refine bind_ne_error requireOk_ne_divisionByZero fun attr isAttr => ?_
  obtain ⟨-, -, rfl⟩ := attributes_eq_ok.mp (requireOk_eq_ok.mp isAttr)
  refine bind_ne_error ?_ fun _ _ => ?_
  · intro err
    obtain ⟨_, other⟩ := orderly_checkShapes dvd _ err
    cases other
  refine bind_ne_error ?_ fun _ _ ret => nomatch ret
  have window (w : Window) : getWindowedOutputSizeV2 c.padding w ≠ .error .divisionByZero := by
    unfold getWindowedOutputSizeV2
    split
    · simp
    · exact bind_ne_error windowed_ne_divisionByZero fun _ _ ret => nomatch ret
  exact bind_ne_error (window _) fun _ _ => bind_ne_error (window _) fun _ _ =>
    bind_ne_error (window _) fun _ _ ret => nomatch ret

end Call3D

/-- The validation reports an error exactly where the arguments are not accepted, and never divides
    by zero. -/
def Complete {α : Type} (validation : Except Stop α) (Accepts : Prop) : Prop :=
  (Stop.Reports validation ↔ ¬Accepts) ∧ validation ≠ .error .divisionByZero

/-- What each convolution refuses, as far as the sums of the windows fit in 64 bits. -/
theorem validation_complete (c : Call2D) (d : Call3D) :
    (c.PaddedFits (c.filterSize 0) DimIndices.h → c.PaddedFits (c.filterSize 1) DimIndices.w →
      Complete c.conv2D c.Conv2DAccepts) ∧
    (c.dilation DimIndices.n = 1 ∧ c.dilation DimIndices.c = 1 → 0 < c.filter.numElements →
      c.PaddedFits (toInt32 (c.filterSize 0)) DimIndices.h →
      c.PaddedFits (toInt32 (c.filterSize 1)) DimIndices.w →
      Complete c.depthwise c.DepthwiseAccepts) ∧
    (d.Divides → d.WindowsFit → Complete d.conv3D d.Accepts) := by
  refine ⟨fun rowsFit columnsFit => ⟨?_, Call2D.conv2D_ne_divisionByZero⟩,
    fun dilations xs rowsFit columnsFit => ⟨?_, Call2D.depthwise_ne_divisionByZero⟩,
    fun dvd fits => ⟨?_, Call3D.conv3D_ne_divisionByZero dvd⟩⟩
  · rw [(Call2D.orderly_conv2D rowsFit columnsFit).reports_iff,
      Call2D.conv2D_returns rowsFit columnsFit]
  · rw [(Call2D.orderly_depthwise xs rowsFit columnsFit).reports_iff,
      Call2D.depthwise_returns dilations xs rowsFit columnsFit]
  · rw [(Call3D.orderly_conv3D dvd fits).reports_iff, Call3D.conv3D_returns fits]

/-- Two groups of one channel, and one channel for both of them in the output. -/
def sharedChannel : Call2D where
  strides := [1, 1, 1, 1]
  dilations := [1, 1, 1, 1]
  dataFormat := .nhwc
  padding := .valid
  explicitPaddings := []
  input := [1, 3, 3, 2]
  filter := [2, 2, 1, 1]
  strides_length := rfl
  dilations_length := rfl
  strides_int32 := by decide
  dilations_int32 := by decide
  filter_sized := by decide

/-- A volume of two channels, for which the filter has one. -/
def groupedVolume : Call3D where
  strides := [1, 1, 1, 1, 1]
  dilations := [1, 1, 1, 1, 1]
  dataFormat := .nhwc
  padding := .valid
  input := [1, 3, 3, 3, 2]
  filter := [2, 2, 2, 1, 2]
  strides_length := rfl
  dilations_length := rfl

theorem validation_complete_sharedChannel :
    (Complete sharedChannel.conv2D sharedChannel.Conv2DAccepts ∧
      Complete sharedChannel.depthwise sharedChannel.DepthwiseAccepts) ∧
      Complete groupedVolume.conv3D groupedVolume.Accepts := by
  have shared := validation_complete sharedChannel groupedVolume
  have unpadded (size : Int) (dimension : DimIndices → Nat) :
      sharedChannel.PaddedFits size dimension := fun explicit => nomatch explicit
  exact ⟨⟨shared.1 (unpadded _ _) (unpadded _ _),
    shared.2.1 ⟨by decide, by decide⟩ (by decide) (unpadded _ _) (unpadded _ _)⟩,
    shared.2.2 (.inr (by decide)) ⟨by decide, by decide, by decide⟩⟩

/-- The arguments are valid, and `Conv2D` refuses them: the groups share an output channel. -/
theorem sharedChannel_refused :
    ¬Complete sharedChannel.conv2D (sharedChannel.Valid (fun input filter => filter ∣ input)
      (sharedChannel.filterSize 0) (sharedChannel.filterSize 1)) := by
  have refused : Stop.Reports sharedChannel.conv2D := ⟨.invalidArgument
    "output depth must be evenly divisible by number of groups: 1 vs 2", by decide⟩
  intro full
  refine full.1.mp refused ⟨by decide, by decide, by decide, by decide, by decide, by decide⟩

end TfDml.ConvValidation
