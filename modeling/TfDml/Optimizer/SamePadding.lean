import TfDml.Lib.Run
import TfDml.Optimizer.Remapper

/-! # Padding fused into a `SAME` convolution

The pass writes the padding of a `SAME` convolution without looking at its stride. Each
spatial dimension keeps its padding exactly when the stride takes nothing off, up to the
32 bits in which the sums are stored.
-/

namespace TfDml.Optimizer.Remapper

open List

def FitsInt32 (n : Int) : Prop := -2 ^ 31 ≤ n ∧ n < 2 ^ 31

instance (n : Int) : Decidable (FitsInt32 n) := inferInstanceAs (Decidable (_ ∧ _))

theorem toInt32_eq_iff {n m : Int} : toInt32 n = m ↔ (2 ^ 32 : Int) ∣ n - m ∧ FitsInt32 m := by
  simp only [toInt32, Int.bmod, FitsInt32]
  constructor
  · rintro rfl
    split <;> omega
  · rintro ⟨same, fits⟩
    split <;> omega

theorem toInt32_toInt32_add (n m : Int) : toInt32 (toInt32 n + m) = toInt32 (n + m) := by
  simp only [toInt32, Int.bmod_add_bmod]

structure Plane (V : Type) where
  height : Int
  width : Int
  pixel : Int → Int → V

namespace Plane

variable {V W : Type}

def read (zero : V) (plane : Plane V) (y x : Int) : V :=
  if (0 ≤ y ∧ y < plane.height) ∧ 0 ≤ x ∧ x < plane.width then plane.pixel y x else zero

def padded (zero : V) (plane : Plane V) (top bottom left right : Int) : Plane V where
  height := plane.height + top + bottom
  width := plane.width + left + right
  pixel y x := plane.read zero (y - top) (x - left)

structure Window where
  dilation : Int
  stride : Int
  output : WindowedOutput

def Window.position (window : Window) (out tap : Int) : Int :=
  out * window.stride + tap * window.dilation - window.output.paddingBefore

/-- A convolution; `filter` is what it makes of the pixels under its taps. -/
def convolve (zero : V) (filter : (Int → Int → V) → W) (rows columns : Window)
    (plane : Plane V) : Plane W where
  height := rows.output.outputSize
  width := columns.output.outputSize
  pixel y x := filter fun tapY tapX =>
    plane.read zero (rows.position y tapY) (columns.position x tapX)

theorem read_padded (zero : V) (plane : Plane V) {top bottom left right : Int} (y x : Int)
    (t : 0 ≤ top) (b : 0 ≤ bottom) (l : 0 ≤ left) (r : 0 ≤ right) :
    (plane.padded zero top bottom left right).read zero y x =
      plane.read zero (y - top) (x - left) := by
  by_cases lt : (0 ≤ y ∧ y < plane.height + top + bottom) ∧ 0 ≤ x ∧ x < plane.width + left + right
  · exact if_pos lt
  · have outside : ¬ ((0 ≤ y - top ∧ y - top < plane.height) ∧
        0 ≤ x - left ∧ x - left < plane.width) := by omega
    exact (if_neg lt).trans (if_neg outside).symm

end Plane

/-- The sizes of one spatial dimension: of the input of the pad, the paddings around it, and
    the filter over the padded input. -/
structure SpatialDim where
  inputSize : Int
  padBefore : Int
  padAfter : Int
  filterSize : Int
  dilation : Int
  stride : Int

namespace SpatialDim

variable (dim : SpatialDim)

def paddedSize : Int := dim.inputSize + dim.padBefore + dim.padAfter

structure Valid : Prop where
  inputSize : 0 ≤ dim.inputSize
  padBefore : 0 ≤ dim.padBefore
  padAfter : 0 ≤ dim.padAfter
  filterSize : 1 ≤ dim.filterSize

theorem Valid.paddedSize {dim : SpatialDim} (valid : dim.Valid) : 0 ≤ dim.paddedSize := by
  obtain ⟨inputSize, padBefore, padAfter, -⟩ := valid
  rw [SpatialDim.paddedSize]
  omega

/-- What `GetWindowedOutputSizeVerboseV2` computes for the padded input. -/
def same : Option (Except Status WindowedOutput) :=
  getWindowedOutputSizeVerboseV2 dim.paddedSize dim.filterSize dim.dilation dim.stride .same 0 0

def explicit (before after : Int) : Option (Except Status WindowedOutput) :=
  getWindowedOutputSizeVerboseV2 dim.inputSize dim.filterSize dim.dilation dim.stride .explicit
    before after

def needed : Int := samePaddingNeeded dim.paddedSize dim.filterSize dim.dilation dim.stride

/-- The stride takes nothing off the padding, and the paddings fit. In 32 bits a multiple of
    2^33 is nothing too, as half of it goes to each side. -/
structure Unaffected : Prop where
  spare : (2 ^ 33 : Int) ∣ spareSize dim.paddedSize dim.filterSize dim.dilation dim.stride
  before : FitsInt32 (dim.padBefore + dim.needed / 2)
  after : FitsInt32 (dim.padAfter + (dim.needed - dim.needed / 2))

end SpatialDim

variable {paddings : Int × Int}

theorem samePadding_spec {filterSize dilation : Int} (spread : 0 ≤ filterSpread filterSize dilation)
    (eq : samePadding filterSize dilation = some paddings) :
    paddings.1 = filterSpread filterSize dilation / 2 ∧
      paddings.2 = filterSpread filterSize dilation - filterSpread filterSize dilation / 2 := by
  simp only [samePadding, Option.bind_eq_bind, Option.bind_eq_some_iff, checked64_eq_some] at eq
  obtain ⟨reach, ⟨rfl, -⟩, total, ⟨rfl, -⟩, halves⟩ := eq
  rw [show (filterSize - 1) * dilation = filterSpread filterSize dilation from rfl,
    max_eq_right spread, Int.tdiv_eq_ediv_of_nonneg spread, Option.some.injEq] at halves
  subst halves
  exact ⟨rfl, rfl⟩

theorem fusedPadding_iff {dim : SpatialDim} {output : WindowedOutput} (valid : dim.Valid)
    (eq : samePadding dim.filterSize dim.dilation = some paddings)
    (isSame : dim.same = some (.ok output)) :
    (toInt32 (dim.padBefore + paddings.1) = dim.padBefore + output.paddingBefore ∧
      toInt32 (dim.padAfter + paddings.2) = dim.padAfter + output.paddingAfter) ↔
      dim.Unaffected := by
  have sized : 0 ≤ dim.paddedSize := valid.paddedSize
  obtain ⟨strided, dilated, -, -, -, -, pre, after⟩ := same_spec sized valid.filterSize isSame
  have spread := filterSpread_nonneg valid.filterSize dilated
  obtain ⟨first, snd⟩ := samePadding_spec spread eq
  have total : dim.needed = filterSpread dim.filterSize dim.dilation -
      spareSize dim.paddedSize dim.filterSize dim.dilation dim.stride := rfl
  rw [show output.paddingBefore = dim.needed / 2 from pre,
    show output.paddingAfter = dim.needed - dim.needed / 2 from after, first, snd,
    toInt32_eq_iff, toInt32_eq_iff]
  -- the two halves differ by multiples of 2^32 together exactly if the whole does by 2^33
  constructor
  · rintro ⟨⟨firstSame, firstFits⟩, secondSame, secondFits⟩
    exact ⟨by omega, firstFits, secondFits⟩
  · rintro ⟨spare, firstFits, secondFits⟩
    exact ⟨⟨by omega, firstFits⟩, by omega, secondFits⟩

def paddingAmounts (tensor : TensorProto) : Option (List Int) :=
  match tensor.dtype with
  | .int32 => decode int32Element tensor
  | .int64 => decode int64Element tensor
  | _ => none

/-- A pad that was fused into a `SAME` convolution, with what the two nodes are given. -/
structure SameFusion (ctx : RemapperContext) (conv : NodeDef) where
  found : PadWithConv2D
  pad : NodeDef
  paddings : NodeDef
  tensor : TensorProto
  amounts : List Int
  indices : DimIndices
  filter : List Int
  strides : List Int
  dilations : List Int
  isFound : findPadWithConv2D ctx conv = .ok found
  isSame : conv.getAttr "padding" = some (.s "SAME")
  isPad : findPad ctx conv = .ok pad
  isPaddings : faninNode ctx.view.graph pad 1 = some paddings
  isTensor : paddingsTensor paddings = .ok tensor
  isAmounts : paddingAmounts tensor = some amounts
  amounts_length : amounts.length = 8
  isIndices : dimIndices conv = .ok indices
  isFilter : filterShape ctx conv = .ok filter
  isStrides : conv.getAttr "strides" = some (.listI strides)
  isDilations : conv.getAttr "dilations" = some (.listI dilations)

variable {tensor : TensorProto} {values amounts : List Int}

theorem readElements_ok {x : ElementType Int} (read : (List.range 8).mapM (fun i =>
      (defined (getTensorElement x tensor i)).map toInt32) = .ok values)
    (decoded : decode x tensor = some amounts) (eight : amounts.length = 8) :
    values = amounts.map toInt32 := by
  obtain ⟨lens, each⟩ := forall₂_iff_get.mp (Lib.forall₂_of_mapM_ok read)
  rw [length_range] at lens
  apply ext_getElem
  · rw [length_map, eight, lens]
  · intro i lt lt'
    have isRead := each i (by simpa [lens] using lt) lt
    simp only [get_eq_getElem, getElem_range, map_defined_eq_ok] at isRead
    obtain ⟨amount, got, put⟩ := isRead
    have isAmount := getTensorElement_of_decode decoded got (by omega)
    rw [getElem_map, ← put]
    exact congrArg toInt32 (List.getElem?_eq_some_iff.mp isAmount).2.symm

theorem readPaddings_ok (read : readPaddings tensor = .ok values)
    (isAmounts : paddingAmounts tensor = some amounts) (eight : amounts.length = 8) :
    values = amounts.map toInt32 := by
  unfold readPaddings at read
  unfold paddingAmounts at isAmounts
  cases dtype : tensor.dtype with
  | int32 =>
    simp only [dtype] at read isAmounts
    exact readElements_ok read isAmounts eight
  | int64 =>
    simp only [dtype] at read isAmounts
    exact readElements_ok read isAmounts eight
  | _ => simp [dtype] at isAmounts

variable {sums : List Int}

theorem addPadding_ok {index : Nat} {amount : Int}
    (added : addPadding values index amount = .ok sums) (lt : index < values.length) :
    sums.length = values.length ∧ ∀ j, sums.getD j 0 =
      if j = index then toInt32 (values.getD index 0 + amount) else values.getD j 0 := by
  simp only [addPadding, bind_eq_ok, defined_eq_ok, Except.ok.injEq, checked64_eq_some] at added
  obtain ⟨sum, ⟨rfl, -⟩, rfl⟩ := added
  refine ⟨length_set, fun j => ?_⟩
  by_cases same : index = j
  · subst same
    simp [getD_eq_getElem?_getD, lt]
  · simp [getD_eq_getElem?_getD, same, Ne.symm same]

variable {indices : DimIndices}

theorem dimIndices_ok {conv : NodeDef} (isIndices : dimIndices conv = .ok indices) :
    indices.h < 4 ∧ indices.w < 4 ∧ indices.h ≠ indices.w := by
  simp only [dimIndices, bind_eq_ok, defined_eq_ok] at isIndices
  obtain ⟨format, -, isFormat⟩ := isIndices
  split at isFormat
  · split at isFormat
    · rename_i format _
      obtain rfl := Except.ok.inj isFormat
      cases format <;> decide
    · simp at isFormat
  · simp at isFormat

theorem addConvPadding_same {ctx : RemapperContext} {conv : NodeDef} {dilations filter : List Int}
    (isSame : conv.getAttr "padding" = some (.s "SAME"))
    (isDilations : conv.getAttr "dilations" = some (.listI dilations))
    (isFilter : filterShape ctx conv = .ok filter) (isIndices : dimIndices conv = .ok indices)
    (eight : values.length = 8) (added : addConvPadding ctx conv indices values = .ok sums) :
    ∃ rows cols, samePadding (filter.getD 0 0) (dilations.getD indices.h 0) = some rows ∧
      samePadding (filter.getD 1 0) (dilations.getD indices.w 0) = some cols ∧
      sums.getD (indices.h * 2) 0 = toInt32 (values.getD (indices.h * 2) 0 + rows.1) ∧
      sums.getD (indices.h * 2 + 1) 0 = toInt32 (values.getD (indices.h * 2 + 1) 0 + rows.2) ∧
      sums.getD (indices.w * 2) 0 = toInt32 (values.getD (indices.w * 2) 0 + cols.1) ∧
      sums.getD (indices.w * 2 + 1) 0 = toInt32 (values.getD (indices.w * 2 + 1) 0 + cols.2) := by
  obtain ⟨hSmall, wSmall, differ⟩ := dimIndices_ok isIndices
  simp only [addConvPadding, isSame, isFilter, isDilations, bind_eq_ok, defined_eq_ok,
    Option.some.injEq, Except.ok.injEq, exists_eq_left', require_eq_ok, listOfAttr] at added
  obtain ⟨-, -, height, isHeight, rows, isRows, width, isWidth, cols, isColumns, values₁, first,
    values₂, snd, values₃, third, fourth⟩ := added
  obtain ⟨length₁, get₁⟩ := addPadding_ok first (by omega)
  obtain ⟨length₂, get₂⟩ := addPadding_ok snd (by omega)
  obtain ⟨length₃, get₃⟩ := addPadding_ok third (by omega)
  obtain ⟨-, get₄⟩ := addPadding_ok fourth (by omega)
  refine ⟨rows, cols, by simpa [isHeight] using isRows, by simpa [isWidth] using isColumns,
    ?_, ?_, ?_, ?_⟩
  · rw [get₄, if_neg (by omega), get₃, if_neg (by omega), get₂, if_neg (by omega), get₁, if_pos rfl]
  · rw [get₄, if_neg (by omega), get₃, if_neg (by omega), get₂, if_pos rfl, get₁, if_neg (by omega)]
  · rw [get₄, if_neg (by omega), get₃, if_pos rfl, get₂, if_neg (by omega), get₁, if_neg (by omega)]
  · rw [get₄, if_pos rfl, get₃, if_neg (by omega), get₂, if_neg (by omega), get₁, if_neg (by omega)]

namespace SameFusion

variable {ctx : RemapperContext} {conv : NodeDef} (fusion : SameFusion ctx conv)

/-- The spatial dimensions, for an input of some size. -/
def rows (inputSize : Int) : SpatialDim where
  inputSize := inputSize
  padBefore := fusion.amounts.getD (fusion.indices.h * 2) 0
  padAfter := fusion.amounts.getD (fusion.indices.h * 2 + 1) 0
  filterSize := fusion.filter.getD 0 0
  dilation := fusion.dilations.getD fusion.indices.h 0
  stride := fusion.strides.getD fusion.indices.h 0

def columns (inputSize : Int) : SpatialDim where
  inputSize := inputSize
  padBefore := fusion.amounts.getD (fusion.indices.w * 2) 0
  padAfter := fusion.amounts.getD (fusion.indices.w * 2 + 1) 0
  filterSize := fusion.filter.getD 1 0
  dilation := fusion.dilations.getD fusion.indices.w 0
  stride := fusion.strides.getD fusion.indices.w 0

/-- The paddings that are written on the fused node, with the output size given. -/
def writtenRows (outputSize : Int) : WindowedOutput where
  outputSize := outputSize
  paddingBefore := fusion.found.newPaddingValues.getD (fusion.indices.h * 2) 0
  paddingAfter := fusion.found.newPaddingValues.getD (fusion.indices.h * 2 + 1) 0

def writtenColumns (outputSize : Int) : WindowedOutput where
  outputSize := outputSize
  paddingBefore := fusion.found.newPaddingValues.getD (fusion.indices.w * 2) 0
  paddingAfter := fusion.found.newPaddingValues.getD (fusion.indices.w * 2 + 1) 0

end SameFusion

/-- What is written pads a dimension as the pad and the convolution did, and gives an output
    of the same size. -/
structure SpatialDim.Preserved (dim : SpatialDim) (written same : WindowedOutput) : Prop where
  before : written.paddingBefore = dim.padBefore + same.paddingBefore
  after : written.paddingAfter = dim.padAfter + same.paddingAfter
  size : written.outputSize = same.outputSize
  explicit : dim.explicit written.paddingBefore written.paddingAfter = some (.ok written)

def SpatialDim.window (dim : SpatialDim) (output : WindowedOutput) : Plane.Window :=
  ⟨dim.dilation, dim.stride, output⟩

structure SameFusion.Preserves {ctx : RemapperContext} {conv : NodeDef}
    (fusion : SameFusion ctx conv) (height width : Int) (rows columns : WindowedOutput) : Prop where
  keptRows : (fusion.rows height).Preserved (fusion.writtenRows rows.outputSize) rows
  keptColumns : (fusion.columns width).Preserved (fusion.writtenColumns columns.outputSize) columns
  pixels : ∀ (V W : Type) (zero : V) (filter : (Int → Int → V) → W) (plane : Plane V),
    plane.height = height → plane.width = width → plane.convolve zero filter
        ((fusion.rows height).window (fusion.writtenRows rows.outputSize))
        ((fusion.columns width).window (fusion.writtenColumns columns.outputSize)) =
      (plane.padded zero (fusion.rows height).padBefore (fusion.rows height).padAfter
          (fusion.columns width).padBefore (fusion.columns width).padAfter).convolve zero filter
        ((fusion.rows height).window rows) ((fusion.columns width).window columns)

theorem convolve_padded {V W : Type} (zero : V) (filter : (Int → Int → V) → W)
    (plane : Plane V) {rows cols : SpatialDim} {writtenRows sameRows writtenColumns
    sameColumns : WindowedOutput} (validRows : 0 ≤ rows.padBefore ∧ 0 ≤ rows.padAfter)
    (validColumns : 0 ≤ cols.padBefore ∧ 0 ≤ cols.padAfter)
    (rowsBefore : writtenRows.paddingBefore = rows.padBefore + sameRows.paddingBefore)
    (columnsBefore : writtenColumns.paddingBefore = cols.padBefore + sameColumns.paddingBefore)
    (height : writtenRows.outputSize = sameRows.outputSize)
    (width : writtenColumns.outputSize = sameColumns.outputSize) :
    plane.convolve zero filter (rows.window writtenRows) (cols.window writtenColumns) =
      (plane.padded zero rows.padBefore rows.padAfter cols.padBefore
        cols.padAfter).convolve zero filter (rows.window sameRows)
        (cols.window sameColumns) := by
  have positionRows (out tap : Int) : (rows.window writtenRows).position out tap =
      (rows.window sameRows).position out tap - rows.padBefore := by
    simp only [SpatialDim.window, Plane.Window.position, rowsBefore]
    omega
  have positionColumns (out tap : Int) : (cols.window writtenColumns).position out tap =
      (cols.window sameColumns).position out tap - cols.padBefore := by
    simp only [SpatialDim.window, Plane.Window.position, columnsBefore]
    omega
  simp only [Plane.convolve, Plane.mk.injEq]
  refine ⟨height, width, ?_⟩
  funext y x
  congr 1
  funext tapY tapX
  rw [positionRows, positionColumns, Plane.read_padded zero plane _ _ validRows.1 validRows.2
    validColumns.1 validColumns.2]

theorem SpatialDim.preserved_iff {dim : SpatialDim} {put same : WindowedOutput}
    (valid : dim.Valid) (eq : samePadding dim.filterSize dim.dilation = some paddings)
    (pre : put.paddingBefore = toInt32 (dim.padBefore + paddings.1))
    (after : put.paddingAfter = toInt32 (dim.padAfter + paddings.2))
    (size : put.outputSize = same.outputSize) (isSame : dim.same = some (.ok same)) :
    dim.Preserved put same ↔ dim.Unaffected := by
  rw [← fusedPadding_iff valid eq isSame, ← pre, ← after]
  constructor
  · exact fun kept => ⟨kept.before, kept.after⟩
  · rintro ⟨sameBefore, sameAfter⟩
    refine ⟨sameBefore, sameAfter, size, ?_⟩
    have explicit := explicit_spec valid.inputSize valid.padBefore valid.padAfter
      valid.filterSize isSame
    rw [← sameBefore, ← sameAfter, ← size] at explicit
    exact explicit

theorem getD_map_toInt32 (amounts : List Int) (index : Nat) :
    (amounts.map toInt32).getD index 0 = toInt32 (amounts.getD index 0) := by
  cases got : amounts[index]? with
  | none => simp [getD_eq_getElem?_getD, got, toInt32]
  | some amount => simp [getD_eq_getElem?_getD, got]

namespace SameFusion

variable {ctx : RemapperContext} {conv : NodeDef} (fusion : SameFusion ctx conv)

theorem written_spec : ∃ rows cols : Int × Int,
    (∀ height, samePadding (fusion.rows height).filterSize (fusion.rows height).dilation =
        some rows ∧ ∀ outputSize, (fusion.writtenRows outputSize).paddingBefore =
          toInt32 ((fusion.rows height).padBefore + rows.1) ∧
        (fusion.writtenRows outputSize).paddingAfter =
          toInt32 ((fusion.rows height).padAfter + rows.2)) ∧
    ∀ width, samePadding (fusion.columns width).filterSize (fusion.columns width).dilation =
        some cols ∧ ∀ outputSize, (fusion.writtenColumns outputSize).paddingBefore =
          toInt32 ((fusion.columns width).padBefore + cols.1) ∧
        (fusion.writtenColumns outputSize).paddingAfter =
          toInt32 ((fusion.columns width).padAfter + cols.2) := by
  obtain ⟨pad, paddings, indices, tensor, values, sums, isPad, isPaddings, -, isIndices, -, -,
    isTensor, read, -, added, isFound⟩ := findPadWithConv2D_ok.mp fusion.isFound
  obtain rfl := Except.ok.inj (fusion.isPad.symm.trans isPad)
  obtain rfl := Option.some.inj (fusion.isPaddings.symm.trans isPaddings)
  obtain rfl := Except.ok.inj (fusion.isIndices.symm.trans isIndices)
  obtain rfl := Except.ok.inj (fusion.isTensor.symm.trans isTensor)
  obtain rfl := readPaddings_ok read fusion.isAmounts fusion.amounts_length
  obtain ⟨rows, cols, isRows, isColumns, top, bottom, left, right⟩ :=
    addConvPadding_same fusion.isSame fusion.isDilations fusion.isFilter fusion.isIndices
      (by rw [length_map, fusion.amounts_length]) added
  have put : fusion.found.newPaddingValues = sums := congrArg _ isFound
  rw [getD_map_toInt32, toInt32_toInt32_add, ← put] at top bottom left right
  exact ⟨rows, cols, fun height => ⟨isRows, fun outputSize => ⟨top, bottom⟩⟩,
    fun width => ⟨isColumns, fun outputSize => ⟨left, right⟩⟩⟩

end SameFusion

/-- The fused convolution computes the same exactly if in both spatial dimensions the stride
    takes nothing off the padding and the paddings fit. -/
theorem same_fusion_preserves_iff {ctx : RemapperContext} {conv : NodeDef}
    (fusion : SameFusion ctx conv) (height width : Int) (rows columns : WindowedOutput)
    (validRows : (fusion.rows height).Valid) (validColumns : (fusion.columns width).Valid)
    (isRows : (fusion.rows height).same = some (.ok rows))
    (isColumns : (fusion.columns width).same = some (.ok columns)) :
    fusion.Preserves height width rows columns ↔
      (fusion.rows height).Unaffected ∧ (fusion.columns width).Unaffected := by
  obtain ⟨paddingH, paddingW, ofRows, ofColumns⟩ := fusion.written_spec
  obtain ⟨computedRows, storedRows⟩ := ofRows height
  obtain ⟨computedColumns, storedColumns⟩ := ofColumns width
  have keptRows : (fusion.rows height).Preserved (fusion.writtenRows rows.outputSize) rows ↔
      (fusion.rows height).Unaffected :=
    SpatialDim.preserved_iff validRows computedRows (storedRows _).1 (storedRows _).2 rfl isRows
  have keptColumns : (fusion.columns width).Preserved
      (fusion.writtenColumns columns.outputSize) columns ↔ (fusion.columns width).Unaffected :=
    SpatialDim.preserved_iff validColumns computedColumns (storedColumns _).1
      (storedColumns _).2 rfl isColumns
  rw [← keptRows, ← keptColumns]
  constructor
  · exact fun preserves => ⟨preserves.keptRows, preserves.keptColumns⟩
  · rintro ⟨rowsKept, columnsKept⟩
    refine ⟨rowsKept, columnsKept, fun V W zero filter plane _ _ => ?_⟩
    exact convolve_padded zero filter plane ⟨validRows.padBefore, validRows.padAfter⟩
      ⟨validColumns.padBefore, validColumns.padAfter⟩ rowsKept.before columnsKept.before
      rowsKept.size columnsKept.size

section Example

variable (stride : Int)

def samePad : NodeDef :=
  { name := "pad", op := "Pad", attr := [("T", .type .float)]
    regularFanins := [⟨"x", 0⟩, ⟨"paddings", 0⟩] }

def sameConv : NodeDef :=
  { name := "conv", op := "Conv2D", regularFanins := [⟨"pad", 0⟩, ⟨"filter", 0⟩]
    attr := [("T", .type .float), ("data_format", .s "NHWC"), ("padding", .s "SAME"),
      ("strides", .listI [1, stride, stride, 1]), ("dilations", .listI [1, 1, 1, 1])] }

def samePaddings : TensorProto :=
  { dtype := .int32, tensorShape := some [4, 2], intVal := [0, 0, 1, 1, 1, 1, 0, 0] }

/-- A padding of one on each side of the spatial dimensions, before a `SAME` convolution. -/
def sameGraph : List NodeDef :=
  [{ name := "x", op := "Placeholder" },
   { name := "paddings", op := "Const", attr := [("value", .tensor samePaddings)] }, samePad,
   { name := "filter", op := "Placeholder" }, sameConv stride]

def sameContext : RemapperContext where
  view :=
    { graph := sameGraph stride
      unique := by
        show ["x", "paddings", "pad", "filter", "conv"].Nodup
        decide
      present := by simp [sameGraph, samePad, sameConv]
      controlsPresent := by simp [sameGraph, samePad, sameConv]
      noSelfCycle := by simp [sameGraph, samePad, sameConv]
      noControlSelfCycle := by simp [sameGraph, samePad, sameConv] }
  nodesToPreserve := []
  getInputProperties := fun name =>
    if name = "pad" then [⟨none⟩, ⟨some [4, 2]⟩] else [⟨none⟩, ⟨some [3, 3, 1, 1]⟩]

theorem sameGraph_findPad : findPad (sameContext stride) (sameConv stride) = .ok samePad := by
  have isPad : faninNode (sameGraph stride) (sameConv stride) 0 = some samePad := rfl
  simp only [findPad, bind_eq_ok, require_eq_ok, defined_eq_ok]
  exact ⟨(), rfl, (), rfl, (), rfl, samePad, isPad, (), rfl, (), rfl, (), rfl, (), rfl,
    (), rfl, rfl⟩

/-- The pass writes a padding of two on each side, whatever the stride is. -/
def sameFusion : SameFusion (sameContext stride) (sameConv stride) where
  found := ⟨"pad", "conv", [0, 0, 2, 2, 2, 2, 0, 0]⟩
  pad := samePad
  paddings := { name := "paddings", op := "Const", attr := [("value", .tensor samePaddings)] }
  tensor := samePaddings
  amounts := [0, 0, 1, 1, 1, 1, 0, 0]
  indices := ⟨0, 1, 2, 3⟩
  filter := [3, 3, 1, 1]
  strides := [1, stride, stride, 1]
  dilations := [1, 1, 1, 1]
  isFound := by
    rw [findPadWithConv2D_ok]
    exact ⟨samePad, _, _, _, _, _, sameGraph_findPad stride, rfl, rfl, rfl, rfl, rfl, rfl, rfl,
      rfl, rfl, rfl⟩
  isSame := rfl
  isPad := sameGraph_findPad stride
  isPaddings := rfl
  isTensor := rfl
  isAmounts := rfl
  amounts_length := rfl
  isIndices := rfl
  isFilter := rfl
  isStrides := rfl
  isDilations := rfl

theorem sameFusion_validRows {height : Int} (sized : 0 ≤ height) :
    ((sameFusion stride).rows height).Valid :=
  ⟨sized, Int.one_nonneg, Int.one_nonneg, (by decide : (1 : Int) ≤ 3)⟩

theorem sameFusion_validColumns {width : Int} (sized : 0 ≤ width) :
    ((sameFusion stride).columns width).Valid :=
  ⟨sized, Int.one_nonneg, Int.one_nonneg, (by decide : (1 : Int) ≤ 3)⟩

end Example

/-- Without a stride, the fused convolution pads two on each side as the two nodes did. -/
theorem unitStride_preserves : ((sameFusion 1).rows 2).same = some (.ok ⟨4, 1, 1⟩) ∧
      (sameFusion 1).Preserves 2 2 ⟨4, 1, 1⟩ ⟨4, 1, 1⟩ := by
  have isSame : ((sameFusion 1).rows 2).same = some (.ok ⟨4, 1, 1⟩) := by decide
  have unaffected : ((sameFusion 1).rows 2).Unaffected := by
    refine ⟨by decide, ⟨by decide, by decide⟩, ⟨by decide, by decide⟩⟩
  exact ⟨isSame, (same_fusion_preserves_iff (sameFusion 1) 2 2 _ _
    (sameFusion_validRows 1 (by decide)) (sameFusion_validColumns 1 (by decide)) isSame
    isSame).mpr ⟨unaffected, unaffected⟩⟩

/-- With a stride of two, `SAME` pads a size of four by one only, and at its end. -/
theorem doubleStride_differs : ¬ ∀ ctx conv (fusion : SameFusion ctx conv) height width rows
    columns, (fusion.rows height).Valid → (fusion.columns width).Valid →
    (fusion.rows height).same = some (.ok rows) → (fusion.columns width).same = some (.ok columns) →
    fusion.Preserves height width rows columns := by
  intro claim
  have isSame : ((sameFusion 2).rows 2).same = some (.ok ⟨2, 0, 1⟩) := by decide
  have preserves := claim _ _ (sameFusion 2) 2 2 _ _ (sameFusion_validRows 2 (by decide))
    (sameFusion_validColumns 2 (by decide)) isSame isSame
  exact absurd preserves.keptRows.before (by decide)

end TfDml.Optimizer.Remapper
