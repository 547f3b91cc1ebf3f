import TfDml.Optimizer.PaddedConv2D

/-! # What a fused node computes

A convolution of the padded input is the convolution of the input with the sums of the
paddings, and the fused node asks for that one if the sums were written as they are.
-/

namespace TfDml.Optimizer.Remapper

open Lib Conv2D List

theorem getTensorDimIndices_lt (dataFormat : TensorFormat) :
    (getTensorDimIndices dataFormat).n < 4 ∧ (getTensorDimIndices dataFormat).h < 4 ∧
      (getTensorDimIndices dataFormat).w < 4 ∧ (getTensorDimIndices dataFormat).c < 4 := by
  cases dataFormat <;> decide

theorem Takes.spatialOnly {params : Conv2DParameters} {own : List Int}
    (takes : Takes params own) (known : KnownLayout params.dataFormat) :
    SpatialOnly params.dataFormat own := by
  obtain ⟨isBatch, isChannels, -⟩ := known.dimensions
  refine ⟨takes.eight, takes.nonneg, ?_, ?_⟩
  · rw [← isBatch]
    exact takes.batch
  · rw [← isChannels]
    exact takes.depth

theorem SpatialOnly.add {dataFormat : TensorFormat} {amounts paddings : List Int}
    (first : SpatialOnly dataFormat amounts) (snd : SpatialOnly dataFormat paddings) :
    SpatialOnly dataFormat (zipWith (· + ·) amounts paddings) := by
  have same : amounts.length = paddings.length := first.eight.trans snd.eight.symm
  refine ⟨?_, ?_, fun side small => ?_, fun side small => ?_⟩
  · rw [length_zipWith, first.eight, snd.eight, min_self]
  · intro sum mem
    obtain ⟨i, lt, rfl⟩ := getElem_of_mem mem
    rw [getElem_zipWith]
    exact add_nonneg (first.nonneg _ (getElem_mem _)) (snd.nonneg _ (getElem_mem _))
  · rw [getD_zipWith_add same, first.batch side small, snd.batch side small, add_zero]
  · rw [getD_zipWith_add same, first.channels side small, snd.channels side small, add_zero]

theorem mem_lt_of_sums {amounts own : List Int} (same : amounts.length = own.length)
    (ge : ∀ a ∈ amounts, 0 ≤ a) {bound : Int}
    (small : ∀ sum ∈ zipWith (· + ·) amounts own, sum < bound) : ∀ p ∈ own, p < bound := by
  intro p mem
  obtain ⟨i, lt, rfl⟩ := getElem_of_mem mem
  have amount := ge _ (getElem_mem (same ▸ lt))
  have paired : i < (zipWith (· + ·) amounts own).length := by simpa [same] using lt
  have sum := small _ (getElem_mem paired)
  rw [getElem_zipWith] at sum
  omega

section Dimensions

variable {params : Conv2DParameters} {own amounts : List Int} {shape : TensorShape}

theorem getTensorDim_around_of_zero (four : shape.length = 4) (dimension : DimIndices → Nat)
    (lt : dimension (getTensorDimIndices params.dataFormat) < 4)
    (zero : ∀ side < 2,
      amounts.getD (2 * dimension (getTensorDimIndices params.dataFormat) + side) 0 = 0) :
    getTensorDim ((marginsOf amounts).around shape) params.dataFormat dimension =
      getTensorDim shape params.dataFormat dimension := by
  have pre : amounts.getD (2 * dimension (getTensorDimIndices params.dataFormat)) 0 = 0 :=
    zero 0 two_pos
  have after := zero 1 Nat.one_lt_two
  rw [getTensorDim, getD_around _ (four ▸ lt), getTensorDim]
  simp only [marginsOf]
  omega

theorem le_getTensorDim_around (ge : ∀ a ∈ amounts, 0 ≤ a) (four : shape.length = 4)
    {dimension : DimIndices → Nat}
    (lt : dimension (getTensorDimIndices params.dataFormat) < 4) :
    getTensorDim shape params.dataFormat dimension ≤
      getTensorDim ((marginsOf amounts).around shape) params.dataFormat dimension := by
  have pre := getD_nonneg ge (2 * dimension (getTensorDimIndices params.dataFormat))
  have after := getD_nonneg ge (2 * dimension (getTensorDimIndices params.dataFormat) + 1)
  rw [getTensorDim, getTensorDim, getD_around _ (four ▸ lt)]
  simp only [marginsOf]
  omega

theorem computeConv2DDimension_withPaddings {filterShape : TensorShape} {dims : Conv2DDimensions}
    (known : KnownLayout params.dataFormat) (takes : Takes params own)
    (spatial : SpatialOnly params.dataFormat amounts)
    (lt : ∀ sum ∈ zipWith (· + ·) amounts own, sum < 2 ^ 31)
    (eq : computeConv2DDimension params ((marginsOf amounts).around shape) filterShape =
      some (.ok dims)) : ∃ sumDims, computeConv2DDimension
        (withPaddings params (zipWith (· + ·) amounts own)) shape filterShape = some (.ok sumDims) ∧
      convolutionDesc (withPaddings params (zipWith (· + ·) amounts own)) sumDims =
        convolutionDesc params dims ∧ convolutionMargins params dims = marginsOf own ∧
      convolutionMargins (withPaddings params (zipWith (· + ·) amounts own)) sumDims =
        marginsOf amounts + marginsOf own := by
  obtain ⟨checked, rows, cols, isRows, isColumns, rfl⟩ := computeConv2DDimension_ok.mp eq
  obtain ⟨aroundFour, rowsSmall, columnsSmall⟩ := checkConv2DShapes_ok checked
  have four : shape.length = 4 := by simpa [Margins.around] using aroundFour
  obtain ⟨inN, inH, inW, inC⟩ := getTensorDimIndices_lt params.dataFormat
  have sameBatch := getTensorDim_around_of_zero four DimIndices.n inN spatial.batch
  have sameDepth := getTensorDim_around_of_zero four DimIndices.c inC spatial.channels
  obtain ⟨rowsBefore, rowsAfter, sumRows, isSumRows, sameRows, sumRowsBefore, sumRowsAfter⟩ :=
    conv2DWindow_withPaddings takes spatial.eight spatial.nonneg four inH rowsSmall isRows
  obtain ⟨columnsBefore, columnsAfter, sumColumns, isSumColumns, sameColumns, sumColumnsBefore,
    sumColumnsAfter⟩ :=
    conv2DWindow_withPaddings takes spatial.eight spatial.nonneg four inW columnsSmall isColumns
  have ownSpatial := takes.spatialOnly known
  have ownSmall := mem_lt_of_sums (spatial.eight.trans takes.eight.symm) spatial.nonneg lt
  have checkedSum : checkConv2DShapes
      (withPaddings params (zipWith (· + ·) amounts own)) shape filterShape = .ok () :=
    checkConv2DShapes_of_le rfl checked four sameDepth.symm
      (le_getTensorDim_around spatial.nonneg four inH)
      (le_getTensorDim_around spatial.nonneg four inW) sameBatch.ge
  refine ⟨_, computeConv2DDimension_ok.mpr ⟨checkedSum, _, _, isSumRows, isSumColumns, rfl⟩, ?_, ?_,
    ?_⟩
  · simp only [convolutionDesc, conv2DDimensions, withPaddings, sameRows, sameColumns, sameBatch,
      sameDepth]
  · exact convolutionMargins_eq known ownSpatial
      (fun p mem => (ownSmall p mem).trans (by decide)) rowsBefore rowsAfter columnsBefore
      columnsAfter
  · rw [marginsOf_add (spatial.eight.trans takes.eight.symm)]
    exact convolutionMargins_eq known (spatial.add ownSpatial)
      (fun sum mem => (lt sum mem).trans (by decide))
      sumRowsBefore sumRowsAfter sumColumnsBefore sumColumnsAfter

end Dimensions

section Node

variable {pad conv fused : NodeDef} {found : PadWithConv2D}

theorem getAttr_fused (isFused : fusedConv2D pad conv found = some fused) :
    (∀ attrName ∈ ["T", "strides", "dilations", "data_format", "use_cudnn_on_gpu"],
      fused.getAttr attrName = conv.getAttr attrName) ∧
    fused.getAttr "padding" = some (.s "EXPLICIT") ∧
    fused.getAttr "explicit_paddings" = some (.listI found.newPaddingValues) := by
  obtain ⟨_, _, copied, -, -, isCopied, rfl⟩ := fusedConv2D_eq_some isFused
  refine ⟨fun attrName mem => ?_, ?_, lookup_setAttr_self _ _ _⟩
  · have notPadding : attrName ≠ "padding" := by
      rintro rfl
      simp at mem
    have notPaddings : attrName ≠ "explicit_paddings" := by
      rintro rfl
      simp at mem
    rw [NodeDef.getAttr, lookup_setAttr_of_ne notPaddings, lookup_setAttr_of_ne notPadding]
    refine lookup_of_mapM isCopied ?_
    simp only [mem_cons] at mem ⊢
    grind
  · rw [NodeDef.getAttr, lookup_setAttr_of_ne (by decide), lookup_setAttr_self]

theorem conv2DAttributes_fused (isFused : fusedConv2D pad conv found = some fused)
    {attrs : Conv2DAttributes} (isAttributes : conv2DAttributes conv = some attrs) :
    conv2DAttributes fused = some
      { attrs with padding := "EXPLICIT", explicitPaddings := found.newPaddingValues } := by
  obtain ⟨copied, padding, paddings⟩ := getAttr_fused isFused
  obtain ⟨dilations, strides, -, dataFormat, -⟩ := conv2DAttributes_eq_some.mp isAttributes
  have sameDilations := copied "dilations" (by decide)
  have sameStrides := copied "strides" (by decide)
  have sameFormat := copied "data_format" (by decide)
  refine conv2DAttributes_eq_some.mpr ⟨?_, ?_, ?_, ?_, ?_⟩
  · rwa [listAttr, sameDilations]
  · rwa [listAttr, sameStrides]
  · rw [stringAttr, padding]
  · rwa [stringAttr, sameFormat]
  · rw [listAttr, paddings, Option.getD_some]

end Node

theorem conv2D_eq_some {E V : Type} [Zero E]
    {convolve : ConvolutionDesc → ZeroExtended E → ZeroExtended E → Option (List V)}
    {node : NodeDef} {pixels filter : ZeroExtended E} {outputs : List V} :
    conv2D convolve node pixels filter = some outputs ↔ ∃ attrs params dims,
      conv2DAttributes node = some attrs ∧ initConv2DParameters attrs = some (.ok params) ∧
      computeConv2DDimension params pixels.shape filter.shape = some (.ok dims) ∧
      KnownLayout params.dataFormat ∧
      convolve (convolutionDesc params dims) (pixels.pad (convolutionMargins params dims)) filter =
        some outputs := by
  have ofOption {α : Type} {x : Option (Except Status α)} {a : α} :
      x.bind Except.toOption = some a ↔ x = some (.ok a) := by
    rcases x with _ | _ | _ <;> simp [Except.toOption]
  simp only [conv2D, Option.bind_eq_bind, Option.bind_eq_some_iff, ofOption,
    Option.ite_none_right_eq_some, exists_and_left, KnownLayout]

theorem conv2D_takes {E V : Type} [Zero E]
    {convolve : ConvolutionDesc → ZeroExtended E → ZeroExtended E → Option (List V)}
    {conv : NodeDef} {pixels filter : ZeroExtended E} {outs : List V}
    (win : IsValidOrExplicit conv)
    (eq : conv2D convolve conv pixels filter = some outs) :
    pixels.shape.length = 4 ∧ ∃ params, Takes params (ownPaddings conv) := by
  obtain ⟨attrs, params, dims, isAttributes, isParams, isDims, -, -⟩ := conv2D_eq_some.mp eq
  obtain ⟨checked, -⟩ := computeConv2DDimension_ok.mp isDims
  exact ⟨(checkConv2DShapes_ok checked).1, params, takes_of_params win isAttributes isParams⟩

theorem toInt32_of_fits {n : Int} (fits : FitsInt32 n) : toInt32 n = n :=
  toInt32_eq_iff.mpr ⟨by simp, fits⟩

theorem dimIndices_eq {conv : NodeDef} {indices : DimIndices}
    (isIndices : dimIndices conv = .ok indices) {format : String} {dataFormat : TensorFormat}
    (isAttr : stringAttr conv "data_format" = some format)
    (isFormat : formatFromString format = some dataFormat) :
    indices = getTensorDimIndices dataFormat := by
  unfold stringAttr at isAttr
  split at isAttr
  · rename_i isString
    obtain rfl := Option.some.inj isAttr
    simp only [dimIndices, bind_eq_ok, defined_eq_ok, isString, Option.some.injEq,
      exists_eq_left', isFormat] at isIndices
    exact (Except.ok.inj isIndices).symm
  · cases isAttr

section Fusion

variable {graph : List NodeDef} {nodesToPreserve : List NodeName} {found : PadWithConv2D}
  {fusion : Fusion graph nodesToPreserve found} {amounts : List Int}

theorem Fusion.amounts_lt (isAmounts : paddingAmounts fusion.tensor = some amounts)
    (eight : amounts.length = 8) {params : Conv2DParameters}
    (takes : Takes params (ownPaddings fusion.conv)) (fits : fusion.Fits) :
    ∀ a ∈ amounts, a < 2 ^ 31 := by
  refine mem_lt_of_sums (takes.eight.trans eight.symm) takes.nonneg fun sum mem => ?_
  rw [zipWith_comm_of_comm Int.add_comm] at mem
  exact (fits amounts isAmounts eight sum mem).2

theorem Fusion.amounts_spatialOnly (isAmounts : paddingAmounts fusion.tensor = some amounts)
    (eight : amounts.length = 8) (ge : ∀ a ∈ amounts, 0 ≤ a)
    (lt : ∀ a ∈ amounts, a < 2 ^ 31) {dataFormat : TensorFormat}
    (isIndices : fusion.indices = getTensorDimIndices dataFormat) :
    SpatialOnly dataFormat amounts := by
  have put : amounts.map toInt32 = amounts := by
    refine (map_congr_left fun a mem => ?_).trans (map_id amounts)
    exact toInt32_of_fits ⟨by have := ge a mem; omega, lt a mem⟩
  have spatial := fusion.spatial
  rw [readPaddings_ok fusion.isValues isAmounts eight, put, isIndices] at spatial
  simp only [padsOnlySpatial, Bool.and_eq_true, decide_eq_true_eq, mul_comm _ 2] at spatial
  obtain ⟨⟨⟨batch, batch'⟩, channels⟩, channels'⟩ := spatial
  refine ⟨eight, ge, fun side isSide => ?_, fun side isSide => ?_⟩
  · obtain rfl | rfl : side = 0 ∨ side = 1 := by omega
    · exact batch
    · exact batch'
  · obtain rfl | rfl : side = 0 ∨ side = 1 := by omega
    · exact channels
    · exact channels'

theorem Fusion.conv2D_fused {E V : Type} [Zero E]
    {convolve : ConvolutionDesc → ZeroExtended E → ZeroExtended E → Option (List V)}
    {pixels filter : ZeroExtended E} {outputs : List V}
    (win : IsValidOrExplicit fusion.conv)
    (isAmounts : paddingAmounts fusion.tensor = some amounts) (eight : amounts.length = 8)
    (ge : ∀ a ∈ amounts, 0 ≤ a) (fits : fusion.Fits)
    (eq : conv2D convolve fusion.conv (pixels.pad (marginsOf amounts)) filter =
      some outputs) : conv2D convolve fusion.fused pixels filter = some outputs := by
  obtain ⟨attrs, params, dims, isAttributes, isParams, isDims, known, out⟩ := conv2D_eq_some.mp eq
  obtain ⟨-, -, -, isFormatAttr, -⟩ := conv2DAttributes_eq_some.mp isAttributes
  obtain ⟨-, isFormat, -, -⟩ := initConv2DParameters_ok isParams
  have takes := takes_of_params win isAttributes isParams
  have lt : ∀ sum ∈ zipWith (· + ·) amounts (ownPaddings fusion.conv), sum < 2 ^ 31 :=
    fun sum mem => (fits amounts isAmounts eight sum mem).2
  have spatial := amounts_spatialOnly isAmounts eight ge
    (amounts_lt isAmounts eight takes fits) (dimIndices_eq fusion.isIndices isFormatAttr isFormat)
  obtain ⟨sumDims, isSumDims, sameDesc, ownMargins, sumMargins⟩ :=
    computeConv2DDimension_withPaddings known takes spatial lt isDims
  have put : found.newPaddingValues = zipWith (· + ·) amounts (ownPaddings fusion.conv) :=
    (Fusion.exact_iff win).mpr fits amounts isAmounts eight
  have sumSpatial := spatial.add (takes.spatialOnly known)
  have valid : checkValidPadding .explicit found.newPaddingValues 4 params.dataFormat = .ok () := by
    obtain ⟨isBatch, isChannels, -⟩ := known.dimensions
    rw [put, checkValidPadding_explicit, isBatch, isChannels]
    exact ⟨sumSpatial.eight, sumSpatial.nonneg, sumSpatial.batch, sumSpatial.channels⟩
  refine conv2D_eq_some.mpr ⟨_, _, sumDims, conv2DAttributes_fused fusion.isFused isAttributes,
    initConv2DParameters_explicit isParams valid, ?_, known, ?_⟩
  · rw [put]
    exact isSumDims
  · rw [ownMargins, ZeroExtended.pad_pad _ (marginsOf_nonneg ge) (marginsOf_nonneg takes.nonneg),
      ← sumMargins, ← sameDesc] at out
    rw [put]
    exact out

end Fusion

end TfDml.Optimizer.Remapper
