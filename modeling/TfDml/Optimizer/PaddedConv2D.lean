import TfDml.Kernels.Conv2DDimension
import TfDml.Lib.ZeroExtended
import TfDml.Optimizer.PaddingSums
import Mathlib.Data.List.GetD

/-! # A convolution over a padded tensor

What `Conv2D` asks of the device for its inputs: the operator, whose paddings are zeros
around the input. The fused node asks for the same over the input of the pad as the
convolution did over the padded one.
-/

namespace TfDml.Optimizer.Remapper

open Lib Conv2D List

def listAttr (node : NodeDef) (attrName : String) : Option (List Int) :=
  match node.getAttr attrName with
  | some (.listI values) => some values
  | _ => none

def stringAttr (node : NodeDef) (attrName : String) : Option String :=
  match node.getAttr attrName with
  | some (.s value) => some value
  | _ => none

def conv2DAttributes (node : NodeDef) : Option Conv2DAttributes := do
  let dilations ← listAttr node "dilations"
  let strides ← listAttr node "strides"
  let padding ← stringAttr node "padding"
  let dataFormat ← stringAttr node "data_format"
  some ⟨dilations, strides, padding, (listAttr node "explicit_paddings").getD [], dataFormat⟩

/-- The operator without the paddings and the size of its input. -/
structure ConvolutionDesc where
  dataFormat : TensorFormat
  outputShape : List Int
  strides : List Int
  dilations : List Int
  groupCount : Int
  deriving DecidableEq

def convolutionDesc (params : Conv2DParameters) (dims : Conv2DDimensions) : ConvolutionDesc where
  dataFormat := params.dataFormat
  outputShape := [dims.batch, dims.outRows, dims.outCols, dims.outDepth]
  strides := [dims.strideRows, dims.strideCols]
  dilations := [dims.dilationRows, dims.dilationCols]
  groupCount := dims.inDepth / dims.patchDepth

/-- `StartPadding` and `EndPadding`, each a `uint32_t`. -/
def convolutionMargins (params : Conv2DParameters) (dims : Conv2DDimensions) : Margins :=
  let indices := getTensorDimIndices params.dataFormat
  let spatial (rows cols : Int) (dimension : Nat) : Int :=
    if dimension = indices.h then rows % 2 ^ 32
    else if dimension = indices.w then cols % 2 ^ 32
    else 0
  ⟨spatial dims.padRowsBefore dims.padColsBefore, spatial dims.padRowsAfter dims.padColsAfter⟩

/-- The kernel, for a device that convolves a tensor and a filter without padding. The layout of
    the device knows two formats. -/
def conv2D {E V : Type} [Zero E]
    (convolve : ConvolutionDesc → ZeroExtended E → ZeroExtended E → Option (List V)) (node : NodeDef)
    (pixels filter : ZeroExtended E) : Option (List V) := do
  let attributes ← conv2DAttributes node
  let params ← (initConv2DParameters attributes).bind Except.toOption
  let dims ← (computeConv2DDimension params pixels.shape filter.shape).bind Except.toOption
  if params.dataFormat = .nhwc ∨ params.dataFormat = .nchw then
    convolve (convolutionDesc params dims) (pixels.pad (convolutionMargins params dims)) filter
  else none

def marginsOf (amounts : List Int) : Margins where
  before dimension := amounts.getD (2 * dimension) 0
  after dimension := amounts.getD (2 * dimension + 1) 0

variable {paddings : List Int}

theorem getD_zipWith_add {amounts : List Int} (same : amounts.length = paddings.length)
    (index : Nat) : (zipWith (· + ·) amounts paddings).getD index 0 =
      amounts.getD index 0 + paddings.getD index 0 := by
  by_cases lt : index < amounts.length
  · simp [getD_eq_getElem?_getD, lt, ← same]
  · simp [getD_eq_getElem?_getD, lt, ← same]

theorem marginsOf_add {amounts : List Int} (same : amounts.length = paddings.length) :
    marginsOf amounts + marginsOf paddings = marginsOf (zipWith (· + ·) amounts paddings) := by
  ext dimension
  · exact (getD_zipWith_add same _).symm
  · exact (getD_zipWith_add same _).symm

theorem getD_nonneg {amounts : List Int} (ge : ∀ a ∈ amounts, 0 ≤ a) (index : Nat) :
    0 ≤ amounts.getD index 0 := by
  by_cases lt : index < amounts.length
  · rw [getD_eq_getElem _ _ lt]
    exact ge _ (getElem_mem lt)
  · rw [getD_eq_default _ _ (not_lt.mp lt)]

theorem marginsOf_nonneg {amounts : List Int} (ge : ∀ a ∈ amounts, 0 ≤ a) :
    (marginsOf amounts).Nonneg :=
  ⟨fun dimension => getD_nonneg ge (2 * dimension),
    fun dimension => getD_nonneg ge (2 * dimension + 1)⟩

variable {dimension : Nat}

theorem getD_around (m : Margins) {shape : List Nat} (lt : dimension < shape.length) :
    (m.around shape).getD dimension 0 =
      (shape.getD dimension 0 + m.before dimension + m.after dimension).toNat := by
  simp [Margins.around, getD_eq_getElem?_getD, lt]

/-- Paddings that the kernel takes: those of an `EXPLICIT` convolution, or nothing. -/
structure Takes (params : Conv2DParameters) (own : List Int) : Prop where
  paddings : params.padding = .explicit ∧ own = params.explicitPaddings ∨
    params.padding = .valid ∧ own = replicate 8 0
  eight : own.length = 8
  nonneg : ∀ p ∈ own, 0 ≤ p
  batch : ∀ side < 2, own.getD (2 * getTensorBatchDimIndex 4 params.dataFormat + side) 0 = 0
  depth : ∀ side < 2, own.getD (2 * getTensorFeatureDimIndex 4 params.dataFormat + side) 0 = 0

variable {dataFormat : TensorFormat}

theorem checkValidPadding_explicit : checkValidPadding .explicit paddings 4 dataFormat = .ok () ↔
      paddings.length = 8 ∧ (∀ p ∈ paddings, 0 ≤ p) ∧
      (∀ side < 2, paddings.getD (2 * getTensorBatchDimIndex 4 dataFormat + side) 0 = 0) ∧
      ∀ side < 2, paddings.getD (2 * getTensorFeatureDimIndex 4 dataFormat + side) 0 = 0 := by
  simp only [checkValidPadding, if_true, bind_eq_ok, opRequires_eq_ok, decide_eq_true_eq,
    all_eq_true, Bool.and_eq_true]
  constructor
  · rintro ⟨⟨⟩, eight, ⟨⟩, ge, ⟨⟨batch, batch'⟩, depth⟩, depth'⟩
    refine ⟨eight, ge, fun side lt => ?_, fun side lt => ?_⟩
    · obtain rfl | rfl : side = 0 ∨ side = 1 := by omega
      · exact batch
      · exact batch'
    · obtain rfl | rfl : side = 0 ∨ side = 1 := by omega
      · exact depth
      · exact depth'
  · rintro ⟨eight, ge, batch, depth⟩
    exact ⟨(), eight, (), ge, ⟨⟨batch 0 two_pos, batch 1 Nat.one_lt_two⟩,
      depth 0 two_pos⟩, depth 1 Nat.one_lt_two⟩

theorem getD_replicate_zero (n index : Nat) : (replicate n (0 : Int)).getD index 0 = 0 := by
  by_cases lt : index < n
  · rw [getD_eq_getElem _ _ (by simpa using lt), getElem_replicate]
  · rw [getD_eq_default _ _ (by simpa using lt)]

variable {attributes : Conv2DAttributes}

theorem conv2DAttributes_eq_some {node : NodeDef} : conv2DAttributes node = some attributes ↔
      listAttr node "dilations" = some attributes.dilations ∧
      listAttr node "strides" = some attributes.strides ∧
      stringAttr node "padding" = some attributes.padding ∧
      stringAttr node "data_format" = some attributes.dataFormat ∧
      (listAttr node "explicit_paddings").getD [] = attributes.explicitPaddings := by
  simp only [conv2DAttributes, Option.bind_eq_bind, Option.bind_eq_some_iff, Option.some.injEq]
  constructor
  · rintro ⟨dilations, isDilations, strides, isStrides, padding, isPadding, format, isFormat, rfl⟩
    exact ⟨isDilations, isStrides, isPadding, isFormat, rfl⟩
  · rintro ⟨isDilations, isStrides, isPadding, isFormat, paddings⟩
    exact ⟨_, isDilations, _, isStrides, _, isPadding, _, isFormat, by rw [paddings]⟩

theorem takes_of_params {conv : NodeDef} {params : Conv2DParameters}
    (win : IsValidOrExplicit conv) (isAttributes : conv2DAttributes conv = some attributes)
    (isParams : initConv2DParameters attributes = some (.ok params)) :
    Takes params (ownPaddings conv) := by
  obtain ⟨-, -, isPadding, -, isPaddings⟩ := conv2DAttributes_eq_some.mp isAttributes
  obtain ⟨padding, -, paddings, valid⟩ := initConv2DParameters_ok isParams
  rcases win with isValid | isExplicit
  · have own : ownPaddings conv = replicate 8 0 := by simp [ownPaddings, isValid]
    simp only [stringAttr, isValid, Option.some.injEq] at isPadding
    rw [← isPadding] at padding
    rw [own]
    refine ⟨Or.inr ⟨(Option.some.inj padding).symm, rfl⟩, length_replicate, ?_, ?_, ?_⟩
    · exact fun p mem => (eq_of_mem_replicate mem).ge
    · exact fun side _ => getD_replicate_zero _ _
    · exact fun side _ => getD_replicate_zero _ _
  · have own : ownPaddings conv = params.explicitPaddings := by
      rw [paddings, ← isPaddings]
      simp only [ownPaddings, isExplicit, if_true, listAttr]
      cases conv.getAttr "explicit_paddings" with
      | none => rfl
      | some value => cases value <;> rfl
    simp only [stringAttr, isExplicit, Option.some.injEq] at isPadding
    rw [← isPadding] at padding
    have explicit : params.padding = .explicit := (Option.some.inj padding).symm
    rw [explicit, ← own] at valid
    obtain ⟨eight, ge, batch, depth⟩ := checkValidPadding_explicit.mp valid
    exact ⟨Or.inl ⟨explicit, own⟩, eight, ge, batch, depth⟩

def withPaddings (params : Conv2DParameters) (paddings : List Int) : Conv2DParameters :=
  { params with padding := .explicit, explicitPaddings := paddings }

section Padded

variable {params : Conv2DParameters} {own amounts : List Int} {shape : TensorShape}

theorem conv2DWindow_withPaddings (takes : Takes params own) (eight : amounts.length = 8)
    (ge : ∀ a ∈ amounts, 0 ≤ a) (four : shape.length = 4) {filterSize : Nat}
    {dimension : DimIndices → Nat}
    (lt : dimension (getTensorDimIndices params.dataFormat) < 4)
    (small : getTensorDim ((marginsOf amounts).around shape) params.dataFormat dimension < intMax)
    {win : WindowedOutput}
    (eq : conv2DWindow params ((marginsOf amounts).around shape) filterSize dimension =
      some (.ok win)) : win.paddingBefore =
        own.getD (2 * dimension (getTensorDimIndices params.dataFormat)) 0 ∧ win.paddingAfter =
        own.getD (2 * dimension (getTensorDimIndices params.dataFormat) + 1) 0 ∧
      ∃ sum, conv2DWindow (withPaddings params (zipWith (· + ·) amounts own)) shape filterSize
          dimension = some (.ok sum) ∧ sum.outputSize = win.outputSize ∧
        sum.paddingBefore = (zipWith (· + ·) amounts own).getD
          (2 * dimension (getTensorDimIndices params.dataFormat)) 0 ∧
        sum.paddingAfter = (zipWith (· + ·) amounts own).getD
          (2 * dimension (getTensorDimIndices params.dataFormat) + 1) 0 := by
  have same : amounts.length = own.length := eight.trans takes.eight.symm
  simp only [conv2DWindow, getTensorDim, withPaddings] at eq small ⊢
  generalize dimension (getTensorDimIndices params.dataFormat) = index at *
  rw [getD_zipWith_add same, getD_zipWith_add same]
  have pre := getD_nonneg ge (2 * index)
  have after := getD_nonneg ge (2 * index + 1)
  have ownBefore := getD_nonneg takes.nonneg (2 * index)
  have ownAfter := getD_nonneg takes.nonneg (2 * index + 1)
  have size : (((marginsOf amounts).around shape).getD index 0 : Int) =
      (shape.getD index 0 : Int) + amounts.getD (2 * index) 0 + amounts.getD (2 * index + 1) 0 := by
    rw [getD_around _ (four ▸ lt)]
    simp only [marginsOf]
    omega
  rw [size] at eq
  obtain ⟨explicit, rfl⟩ | ⟨isValid, rfl⟩ := takes.paddings
  · rw [explicit] at eq
    obtain ⟨isBefore, isAfter, sum⟩ :=
      explicit_of_padded (Int.natCast_nonneg _) pre after ownBefore ownAfter eq
    exact ⟨isBefore, isAfter, _, sum, rfl, rfl, rfl⟩
  · have fits : (shape.getD index 0 : Int) + amounts.getD (2 * index) 0 +
        amounts.getD (2 * index + 1) 0 < 2 ^ 63 := by
      rw [← size]
      simp only [intMax] at small
      omega
    rw [isValid] at eq
    have explicit := explicit_of_valid (by omega) fits eq
    obtain ⟨isBefore, isAfter, sum⟩ :=
      explicit_of_padded (Int.natCast_nonneg _) pre after (le_refl 0) (le_refl 0) explicit
    simp only [getD_replicate_zero]
    exact ⟨isBefore, isAfter, _, sum, rfl, rfl, rfl⟩

end Padded

structure SpatialOnly (dataFormat : TensorFormat) (paddings : List Int) : Prop where
  eight : paddings.length = 8
  nonneg : ∀ p ∈ paddings, 0 ≤ p
  batch : ∀ side < 2, paddings.getD (2 * (getTensorDimIndices dataFormat).n + side) 0 = 0
  channels : ∀ side < 2, paddings.getD (2 * (getTensorDimIndices dataFormat).c + side) 0 = 0

def KnownLayout (dataFormat : TensorFormat) : Prop := dataFormat = .nhwc ∨ dataFormat = .nchw

instance (dataFormat : TensorFormat) : Decidable (KnownLayout dataFormat) :=
  inferInstanceAs (Decidable (_ ∨ _))

theorem KnownLayout.dimensions (known : KnownLayout dataFormat) :
    getTensorBatchDimIndex 4 dataFormat = (getTensorDimIndices dataFormat).n ∧
      getTensorFeatureDimIndex 4 dataFormat = (getTensorDimIndices dataFormat).c ∧
      ∀ dimension < 4, dimension ≠ (getTensorDimIndices dataFormat).h →
        dimension ≠ (getTensorDimIndices dataFormat).w →
        dimension = (getTensorDimIndices dataFormat).n ∨
          dimension = (getTensorDimIndices dataFormat).c := by
  rcases known with rfl | rfl
  · refine ⟨rfl, rfl, fun dimension lt notH notW => ?_⟩
    simp only [getTensorDimIndices] at notH notW ⊢
    omega
  · refine ⟨rfl, rfl, fun dimension lt notH notW => ?_⟩
    simp only [getTensorDimIndices] at notH notW ⊢
    omega

theorem SpatialOnly.getD_eq_zero (spatial : SpatialOnly dataFormat paddings)
    (known : KnownLayout dataFormat) {side : Nat} (isSide : side < 2)
    (notH : dimension ≠ (getTensorDimIndices dataFormat).h)
    (notW : dimension ≠ (getTensorDimIndices dataFormat).w) :
    paddings.getD (2 * dimension + side) 0 = 0 := by
  by_cases lt : dimension < 4
  · rcases known.dimensions.2.2 dimension lt notH notW with rfl | rfl
    · exact spatial.batch side isSide
    · exact spatial.channels side isSide
  · rw [getD_eq_default _ _ (by rw [spatial.eight]; omega)]

theorem convolutionMargins_eq {params : Conv2DParameters} {inputShape filterShape : TensorShape}
    {rows cols : WindowedOutput} (known : KnownLayout params.dataFormat)
    (spatial : SpatialOnly params.dataFormat paddings) (small : ∀ p ∈ paddings, p < 2 ^ 32)
    (rowsBefore : rows.paddingBefore =
      paddings.getD (2 * (getTensorDimIndices params.dataFormat).h) 0)
    (rowsAfter : rows.paddingAfter =
      paddings.getD (2 * (getTensorDimIndices params.dataFormat).h + 1) 0)
    (columnsBefore : cols.paddingBefore =
      paddings.getD (2 * (getTensorDimIndices params.dataFormat).w) 0)
    (columnsAfter : cols.paddingAfter =
      paddings.getD (2 * (getTensorDimIndices params.dataFormat).w + 1) 0) :
    convolutionMargins params (conv2DDimensions params inputShape filterShape rows cols) =
      marginsOf paddings := by
  have put (index : Nat) : paddings.getD index 0 % 2 ^ 32 = paddings.getD index 0 := by
    by_cases lt : index < paddings.length
    · rw [getD_eq_getElem _ _ lt]
      have mem := getElem_mem lt
      exact Int.emod_eq_of_lt (spatial.nonneg _ mem) (small _ mem)
    · rw [getD_eq_default _ _ (not_lt.mp lt)]
      rfl
  simp only [convolutionMargins, conv2DDimensions, rowsBefore, rowsAfter, columnsBefore,
    columnsAfter, put]
  ext dimension
  · simp only [marginsOf]
    split
    · rename_i isRow
      rw [isRow]
    · rename_i notH
      split
      · rename_i isColumn
        rw [isColumn]
      · rename_i notW
        exact (spatial.getD_eq_zero known two_pos notH notW).symm
  · simp only [marginsOf]
    split
    · rename_i isRow
      rw [isRow]
    · rename_i notH
      split
      · rename_i isColumn
        rw [isColumn]
      · rename_i notW
        exact (spatial.getD_eq_zero known Nat.one_lt_two notH notW).symm

end TfDml.Optimizer.Remapper
