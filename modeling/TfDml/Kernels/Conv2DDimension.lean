import TfDml.Optimizer.Remapper

/-! # The dimensions of a convolution

What `Conv2D` checks of its attributes and of the shapes of its inputs, and the sizes and
paddings that it computes from them.
-/

namespace TfDml.Conv2D

open Optimizer Optimizer.Remapper

/-- The attributes of the op. An absent `explicit_paddings` is empty. -/
structure Conv2DAttributes where
  dilations : List Int
  strides : List Int
  padding : String
  explicitPaddings : List Int
  dataFormat : String

structure Conv2DParameters where
  dilations : List Int
  strides : List Int
  padding : Padding
  explicitPaddings : List Int
  dataFormat : TensorFormat

def getPaddingFromString (value : String) : Option Padding :=
  if value = "SAME" then some .same
  else if value = "VALID" then some .valid
  else if value = "EXPLICIT" then some .explicit
  else none

def getTensorBatchDimIndex (numDims : Nat) : TensorFormat → Nat
  | .nhwc | .nchw | .nchwVectC | .nhwcVectW => 0
  | .hwnc => numDims - 2
  | .hwcn => numDims - 1

def getTensorFeatureDimIndex (numDims : Nat) : TensorFormat → Nat
  | .nhwc | .hwnc => numDims - 1
  | .nhwcVectW | .hwcn => numDims - 2
  | .nchw | .nchwVectC => 1

def getTensorDim {α : Type} [Zero α] (entries : List α) (format : TensorFormat)
    (dimension : DimIndices → Nat) : α :=
  entries.getD (dimension (getTensorDimIndices format)) 0

def checkValidPadding (paddingType : Padding) (explicitPaddings : List Int) (numDims : Nat)
    (dataFormat : TensorFormat) : Except Status Unit :=
  if paddingType = .explicit then do
    opRequires (explicitPaddings.length = 2 * numDims)
      (.invalidArgument ("explicit_paddings attribute must contain " ++ toString (2 * numDims) ++
        " values, but got: " ++ toString explicitPaddings.length))
    opRequires (explicitPaddings.all (0 ≤ ·))
      (.invalidArgument "All elements of explicit_paddings must be nonnegative")
    let batchIndex := getTensorBatchDimIndex numDims dataFormat
    let depthIndex := getTensorFeatureDimIndex numDims dataFormat
    opRequires (explicitPaddings.getD (2 * batchIndex) 0 = 0 &&
        explicitPaddings.getD (2 * batchIndex + 1) 0 = 0 &&
        explicitPaddings.getD (2 * depthIndex) 0 = 0 &&
        explicitPaddings.getD (2 * depthIndex + 1) 0 = 0)
      (.invalidArgument ("Nonzero explicit padding in the batch or depth dimensions is not " ++
        "supported"))
  else
    opRequires explicitPaddings.isEmpty
      (.invalidArgument ("explicit_paddings attribute must be empty if the padding attribute " ++
        "is not EXPLICIT"))

/-- Nothing for a padding that is refused where the attribute is read. -/
def initConv2DParameters (attributes : Conv2DAttributes) :
    Option (Except Status Conv2DParameters) :=
  (getPaddingFromString attributes.padding).map fun padding => do
    match formatFromString attributes.dataFormat with
    | none => .error (.invalidArgument "Invalid data format")
    | some dataFormat => do
      opRequires (attributes.dilations.length = 4)
        (.invalidArgument
          "Sliding window dilations field must specify 4 dimensions")
      opRequires (attributes.strides.length = 4)
        (.invalidArgument "Sliding window strides field must specify 4 dimensions")
      let strideOf := getTensorDim attributes.strides dataFormat
      opRequires (strideOf DimIndices.n = 1 && strideOf DimIndices.c = 1)
        (.unimplemented ("Current implementation does not yet support strides in the batch " ++
          "and depth dimensions."))
      opRequires (0 < strideOf DimIndices.h && 0 < strideOf DimIndices.w)
        (.invalidArgument "Row and column strides should be larger than 0.")
      let dilationOf := getTensorDim attributes.dilations dataFormat
      opRequires (dilationOf DimIndices.n = 1 && dilationOf DimIndices.c = 1)
        (.unimplemented ("Current implementation does not yet support dilations in the batch " ++
          "and depth dimensions."))
      opRequires (0 < dilationOf DimIndices.h && 0 < dilationOf DimIndices.w)
        (.invalidArgument "Dilated rates should be larger than 0.")
      checkValidPadding padding attributes.explicitPaddings 4 dataFormat
      .ok ⟨attributes.dilations, attributes.strides, padding, attributes.explicitPaddings,
        dataFormat⟩

structure Conv2DDimensions where
  batch : Int
  inputRows : Int
  inputCols : Int
  inDepth : Int
  filterRows : Int
  filterCols : Int
  patchDepth : Int
  outDepth : Int
  strideRows : Int
  strideCols : Int
  dilationRows : Int
  dilationCols : Int
  outRows : Int
  outCols : Int
  padRowsBefore : Int
  padRowsAfter : Int
  padColsBefore : Int
  padColsAfter : Int
  deriving DecidableEq

/-- `std::numeric_limits<int>::max()`. -/
def intMax : Nat := 2 ^ 31 - 1

/-- The checks of `ComputeConv2DDimension` on the two shapes. -/
def checkConv2DShapes (params : Conv2DParameters) (inputShape filterShape : TensorShape) :
    Except Status Unit := do
  opRequires (inputShape.length = 4)
    (.invalidArgument ("input must be 4-dimensional" ++ inputShape.debugString))
  opRequires (filterShape.length = 4)
    (.invalidArgument ("filter must be 4-dimensional: " ++ filterShape.debugString))
  opRequires ((filterShape.take 3).all (· < intMax)) (.invalidArgument "filter too large")
  let inDepth := getTensorDim inputShape params.dataFormat DimIndices.c
  let patchDepth := filterShape.getD 2 0
  opRequires (inDepth < intMax) (.invalidArgument "Input depth too large")
  opRequires (patchDepth < intMax) (.invalidArgument "Patch depth too large")
  opRequires (0 < patchDepth)
    (.invalidArgument ("filter depth must be stricly positive, got " ++ toString patchDepth))
  opRequires (inDepth % patchDepth = 0)
    (.invalidArgument ("input depth must be evenly divisible by filter depth: " ++
      toString inDepth ++ " vs " ++ toString patchDepth))
  opRequires (0 < filterShape.numElements)
    (.invalidArgument ("filter must not have zero elements (i.e. all dimensions must be " ++
      "non-zero)"))
  let numGroups : Int := inDepth / patchDepth
  opRequires (0 < numGroups)
    (.invalidArgument ("number of groups must be stricly positive, got " ++ toString numGroups))
  let outDepth := toInt32 (filterShape.getD 3 0 : Nat)
  opRequires (outDepth.tmod numGroups = 0 && numGroups ≤ outDepth)
    (.invalidArgument ("output depth must be evenly divisible by number of groups: " ++
      toString outDepth ++ " vs " ++ toString numGroups))
  opRequires (getTensorDim inputShape params.dataFormat DimIndices.h < intMax)
    (.invalidArgument "Input rows too large")
  opRequires (getTensorDim inputShape params.dataFormat DimIndices.w < intMax)
    (.invalidArgument "Input cols too large")
  opRequires (getTensorDim inputShape params.dataFormat DimIndices.n < intMax)
    (.invalidArgument "batch is too large")

/-- The window of a spatial dimension; `EXPLICIT` reads the paddings of the dimension. -/
def conv2DWindow (params : Conv2DParameters) (inputShape : TensorShape) (filterSize : Nat)
    (dimension : DimIndices → Nat) : Option (Except Status WindowedOutput) :=
  let index := dimension (getTensorDimIndices params.dataFormat)
  getWindowedOutputSizeVerboseV2 (getTensorDim inputShape params.dataFormat dimension : Nat)
    filterSize (getTensorDim params.dilations params.dataFormat dimension)
    (getTensorDim params.strides params.dataFormat dimension) params.padding
    (params.explicitPaddings.getD (2 * index) 0) (params.explicitPaddings.getD (2 * index + 1) 0)

def conv2DDimensions (params : Conv2DParameters) (inputShape filterShape : TensorShape)
    (rows columns : WindowedOutput) : Conv2DDimensions where
  batch := (getTensorDim inputShape params.dataFormat DimIndices.n : Nat)
  inputRows := (getTensorDim inputShape params.dataFormat DimIndices.h : Nat)
  inputCols := (getTensorDim inputShape params.dataFormat DimIndices.w : Nat)
  inDepth := (getTensorDim inputShape params.dataFormat DimIndices.c : Nat)
  filterRows := (filterShape.getD 0 0 : Nat)
  filterCols := (filterShape.getD 1 0 : Nat)
  patchDepth := (filterShape.getD 2 0 : Nat)
  outDepth := toInt32 (filterShape.getD 3 0 : Nat)
  strideRows := getTensorDim params.strides params.dataFormat DimIndices.h
  strideCols := getTensorDim params.strides params.dataFormat DimIndices.w
  dilationRows := getTensorDim params.dilations params.dataFormat DimIndices.h
  dilationCols := getTensorDim params.dilations params.dataFormat DimIndices.w
  outRows := rows.outputSize
  outCols := columns.outputSize
  padRowsBefore := rows.paddingBefore
  padRowsAfter := rows.paddingAfter
  padColsBefore := columns.paddingBefore
  padColsAfter := columns.paddingAfter

/-- Nothing where the size of a window overflows. -/
def computeConv2DDimension (params : Conv2DParameters) (inputShape filterShape : TensorShape) :
    Option (Except Status Conv2DDimensions) :=
  match checkConv2DShapes params inputShape filterShape with
  | .error status => some (.error status)
  | .ok () =>
    (conv2DWindow params inputShape (filterShape.getD 0 0) DimIndices.h).bind fun
    | .error status => some (.error status)
    | .ok rows =>
      (conv2DWindow params inputShape (filterShape.getD 1 0) DimIndices.w).map fun columns =>
        columns.map fun columns =>
          conv2DDimensions params inputShape filterShape rows columns

variable {attributes : Conv2DAttributes} {params : Conv2DParameters}

theorem initConv2DParameters_ok (isParams : initConv2DParameters attributes = some (.ok params)) :
    getPaddingFromString attributes.padding = some params.padding ∧
      formatFromString attributes.dataFormat = some params.dataFormat ∧
      params.explicitPaddings = attributes.explicitPaddings ∧
      checkValidPadding params.padding params.explicitPaddings 4 params.dataFormat = .ok () := by
  obtain ⟨padding, isPadding, checked⟩ := Option.map_eq_some_iff.mp isParams
  split at checked
  · cases checked
  · rename_i dataFormat isFormat
    simp only [bind_eq_ok, opRequires_eq_ok, Except.ok.injEq] at checked
    obtain ⟨-, -, -, -, -, -, -, -, -, -, -, -, ⟨⟩, valid, rfl⟩ := checked
    exact ⟨isPadding, isFormat, rfl, valid⟩

theorem initConv2DParameters_explicit
    (isParams : initConv2DParameters attributes = some (.ok params)) {paddings : List Int}
    (valid : checkValidPadding .explicit paddings 4 params.dataFormat = .ok ()) :
    initConv2DParameters { attributes with padding := "EXPLICIT", explicitPaddings := paddings } =
      some (.ok { params with padding := .explicit, explicitPaddings := paddings }) := by
  obtain ⟨padding, isPadding, checked⟩ := Option.map_eq_some_iff.mp isParams
  split at checked
  · cases checked
  · rename_i dataFormat isFormat
    simp only [bind_eq_ok, opRequires_eq_ok, Except.ok.injEq] at checked
    obtain ⟨⟨⟩, dilations, ⟨⟩, strides, ⟨⟩, first, ⟨⟩, snd, ⟨⟩, third, ⟨⟩, fourth, ⟨⟩, -,
      rfl⟩ := checked
    refine Option.map_eq_some_iff.mpr ⟨.explicit, rfl, ?_⟩
    simp only [isFormat, bind_eq_ok, opRequires_eq_ok]
    exact ⟨(), dilations, (), strides, (), first, (), snd, (), third, (), fourth, (), valid, trivial⟩

variable {inputShape filterShape : TensorShape}

theorem checkConv2DShapes_of_le {params' : Conv2DParameters} {inputShape' : TensorShape}
    (sameFormat : params'.dataFormat = params.dataFormat)
    (checked : checkConv2DShapes params inputShape filterShape = .ok ())
    (four : inputShape'.length = 4)
    (depth : getTensorDim inputShape' params.dataFormat DimIndices.c =
      getTensorDim inputShape params.dataFormat DimIndices.c)
    (rows : getTensorDim inputShape' params.dataFormat DimIndices.h ≤
      getTensorDim inputShape params.dataFormat DimIndices.h)
    (cols : getTensorDim inputShape' params.dataFormat DimIndices.w ≤
      getTensorDim inputShape params.dataFormat DimIndices.w)
    (batch : getTensorDim inputShape' params.dataFormat DimIndices.n ≤
      getTensorDim inputShape params.dataFormat DimIndices.n) :
    checkConv2DShapes params' inputShape' filterShape = .ok () := by
  simp only [checkConv2DShapes, bind_eq_ok, opRequires_eq_ok, decide_eq_true_eq] at checked ⊢
  obtain ⟨-, -, ⟨⟩, filterFour, ⟨⟩, filterSmall, ⟨⟩, depthSmall, ⟨⟩, patchSmall, ⟨⟩, patch, ⟨⟩,
    dvd, ⟨⟩, xs, ⟨⟩, groups, ⟨⟩, outDepth, ⟨⟩, rowsSmall, ⟨⟩, columnsSmall, batchSmall⟩ := checked
  rw [sameFormat, depth]
  exact ⟨(), four, (), filterFour, (), filterSmall, (), depthSmall, (), patchSmall, (), patch, (),
    dvd, (), xs, (), groups, (), outDepth, (), rows.trans_lt rowsSmall, (),
    cols.trans_lt columnsSmall, batch.trans_lt batchSmall⟩

theorem checkConv2DShapes_ok (checked : checkConv2DShapes params inputShape filterShape = .ok ()) :
    inputShape.length = 4 ∧ getTensorDim inputShape params.dataFormat DimIndices.h < intMax ∧
      getTensorDim inputShape params.dataFormat DimIndices.w < intMax := by
  simp only [checkConv2DShapes, bind_eq_ok, opRequires_eq_ok, decide_eq_true_eq] at checked
  obtain ⟨⟨⟩, four, -, -, -, -, -, -, -, -, -, -, -, -, -, -, -, -, -, -, -, rows, -, cols,
    -⟩ := checked
  exact ⟨four, rows, cols⟩

theorem computeConv2DDimension_ok {dims : Conv2DDimensions} :
    computeConv2DDimension params inputShape filterShape = some (.ok dims) ↔
      checkConv2DShapes params inputShape filterShape = .ok () ∧ ∃ rows columns,
        conv2DWindow params inputShape (filterShape.getD 0 0) DimIndices.h = some (.ok rows) ∧
        conv2DWindow params inputShape (filterShape.getD 1 0) DimIndices.w = some (.ok columns) ∧
        dims = conv2DDimensions params inputShape filterShape rows columns := by
  unfold computeConv2DDimension
  constructor
  · intro eq
    split at eq
    · cases eq
    · rename_i checked
      obtain ⟨rows, isRows, rest⟩ := Option.bind_eq_some_iff.mp eq
      cases rows with
      | error status => cases rest
      | ok rows =>
        obtain ⟨columns, isColumns, made⟩ := Option.map_eq_some_iff.mp rest
        cases columns with
        | error status => cases made
        | ok columns => exact ⟨checked, rows, columns, isRows, isColumns, (Except.ok.inj made).symm⟩
  · rintro ⟨checked, rows, columns, isRows, isColumns, rfl⟩
    rw [checked, isRows, isColumns]
    rfl

end TfDml.Conv2D
