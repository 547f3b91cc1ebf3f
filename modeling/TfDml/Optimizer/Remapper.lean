import TfDml.Optimizer.GraphView
import TfDml.Core.KernelShapeUtil

/-! # Fusing a padding into a convolution

`FindPadWithConv2D` and the node that replaces the convolution. What shape inference
found is a parameter.
-/

namespace TfDml.Optimizer.Remapper

open Lib FloatFormat

def formatFromString (format : String) : Option TensorFormat :=
  if format = "NHWC" ∨ format = "NDHWC" then some .nhwc
  else if format = "NCHW" ∨ format = "NCDHW" then some .nchw
  else if format = "NCHW_VECT_C" then some .nchwVectC
  else if format = "NHWC_VECT_W" then some .nhwcVectW
  else if format = "HWNC" then some .hwnc
  else if format = "HWCN" then some .hwcn
  else none

/-- The indices of the batch, the two spatial and the channel dimensions among four. -/
structure DimIndices where
  n : Nat
  h : Nat
  w : Nat
  c : Nat

def getTensorDimIndices : TensorFormat → DimIndices
  | .nhwc | .nhwcVectW => ⟨0, 1, 2, 3⟩
  | .nchw | .nchwVectC => ⟨0, 2, 3, 1⟩
  | .hwnc => ⟨2, 0, 1, 3⟩
  | .hwcn => ⟨3, 0, 1, 2⟩

/-- What shape inference knows of a tensor: the sizes of its dimensions, negative where a
    size is unknown. -/
structure TensorProperties where
  shape : Option (List Int)

structure RemapperContext where
  view : MutableGraphView
  nodesToPreserve : List NodeName
  getInputProperties : NodeName → List TensorProperties

structure PadWithConv2D where
  pad : NodeName
  conv2D : NodeName
  newPaddingValues : List Int
  deriving DecidableEq

def getDataTypeFromAttr (node : NodeDef) (typeAttr : String) : Option DataType :=
  match node.getAttr typeAttr with
  | some (.type dtype) => some dtype
  | _ => none

def haveSameDataType (lhs rhs : NodeDef) : Bool :=
  match getDataTypeFromAttr lhs "T", getDataTypeFromAttr rhs "T" with
  | some a, some b => a = b
  | _, _ => false

def hasControlFaninOrFanout (graph : List NodeDef) (node : NodeDef) : Bool :=
  0 < node.controllingFanins.length || 0 < numControlledFanouts graph node.name

def hasAtMostOneFanoutAtPort0 (graph : List NodeDef) (node : NodeDef) : Bool :=
  (regularFanout graph ⟨node.name, 0⟩).length ≤ 1

/-- The value of a half as a float, in the float's units. -/
def halfToFloat : Value → Value
  | .nan => .nan
  | .infinity negative => .infinity negative
  | .finite units => .finite (units * 2 ^ 125)

def paddingValue (tensor : TensorProto) : Matching Value :=
  let numElements := getNumElements tensor
  match tensor.dtype with
  | .half =>
    if numElements = 0 then .ok (.finite 0)
    else (defined (getTensorElement halfElement tensor 0)).map fun bits =>
      halfToFloat (value bits)
  | .float =>
    if numElements = 0 then .ok (.finite 0)
    else (defined (getTensorElement floatElement tensor 0)).map value
  | _ => .error .noMatch

/-- The checks on the constant of a `PadV2`. -/
def checkPadConstant (ctx : RemapperContext) (pad : NodeDef) : Matching Unit := do
  if pad.op = "PadV2" then
    require ((ctx.getInputProperties pad.name).length = 3)
    let constant ← defined (faninNode ctx.view.graph pad 2)
    require (isConstant constant)
    match constant.getAttr "value" with
    | some (.tensor tensor) => do
      let floatVal ← paddingValue tensor
      require (floatVal = .finite 0)
    | some _ => .error .noMatch
    | none => .error .noMatch
  else require (pad.op = "Pad")

/-- The eight amounts of the constant, as stored in an `int32_t` each. -/
def readPaddings (tensor : TensorProto) : Matching (List Int) :=
  match tensor.dtype with
  | .int32 =>
    (List.range 8).mapM fun i => (defined (getTensorElement int32Element tensor i)).map toInt32
  | .int64 =>
    (List.range 8).mapM fun i => (defined (getTensorElement int64Element tensor i)).map toInt32
  | _ => .error .noMatch

/-- `values[index] += amount`, for an `int32_t` and an `int64_t`. -/
def addPadding (values : List Int) (index : Nat) (amount : Int) : Matching (List Int) := do
  let sum ← defined (checked64 (values.getD index 0 + amount))
  .ok (values.set index (toInt32 sum))

/-- The shape of the filter, if all its dimensions are known. -/
def filterShape (ctx : RemapperContext) (conv : NodeDef) : Matching (List Int) := do
  let convProps := ctx.getInputProperties conv.name
  require (convProps.length = 2)
  match convProps[1]?.bind TensorProperties.shape with
  | none => .error .noMatch
  | some shape =>
    require (shape.length = 4)
    if shape.all (0 ≤ ·) then .ok shape
    else
      -- an unknown filter may still be a placeholder of a known shape
      require (2 ≤ conv.regularFanins.length)
      let filter ← defined (faninNode ctx.view.graph conv 1)
      require (isPlaceholder filter)
      match filter.getAttr "shape" with
      | none => .error .noMatch
      | some (.shape dims) => do
        require (dims.all (0 ≤ ·))
        .ok dims
      | some _ => .ok []

/-- The padding of a `SAME` convolution, before and after the dimension. -/
def samePadding (filterSize dilation : Int) : Option (Int × Int) := do
  let reach ← checked64 (filterSize - 1)
  let spread ← checked64 (reach * dilation)
  let paddingNeeded := max 0 spread
  let paddingBefore := paddingNeeded.tdiv 2
  some (paddingBefore, paddingNeeded - paddingBefore)

def listOfAttr : AttrValue → List Int
  | .listI values => values
  | _ => []

def addConvPadding (ctx : RemapperContext) (conv : NodeDef) (indices : DimIndices)
    (values : List Int) : Matching (List Int) := do
  match conv.getAttr "padding" with
  | some (.s "VALID") => .ok values
  | some (.s "EXPLICIT") => do
    let paddings := listOfAttr (← defined (conv.getAttr "explicit_paddings"))
    require (paddings.length = 8)
    (List.range 8).foldlM (fun values i => addPadding values i (paddings.getD i 0)) values
  | some (.s "SAME") => do
    let filter ← filterShape ctx conv
    let dilations := listOfAttr (← defined (conv.getAttr "dilations"))
    require (dilations.length = 4)
    let paddingH ← defined (samePadding (← defined filter[0]?) (dilations.getD indices.h 0))
    let paddingW ← defined (samePadding (← defined filter[1]?) (dilations.getD indices.w 0))
    let values ← addPadding values (indices.h * 2) paddingH.1
    let values ← addPadding values (indices.h * 2 + 1) paddingH.2
    let values ← addPadding values (indices.w * 2) paddingW.1
    addPadding values (indices.w * 2 + 1) paddingW.2
  | _ => .error .noMatch

/-- The shape of the paddings of the pad is (4, 2). -/
def hasPaddingsShape (ctx : RemapperContext) (pad : NodeDef) : Bool :=
  match (ctx.getInputProperties pad.name)[1]?.bind TensorProperties.shape with
  | some [rows, columns] => rows = 4 && columns = 2
  | _ => false

/-- The pad that a convolution reads, if it may go. -/
def findPad (ctx : RemapperContext) (conv : NodeDef) : Matching NodeDef := do
  let graph := ctx.view.graph
  require (isConv2D conv)
  require !(hasControlFaninOrFanout graph conv)
  require (1 ≤ conv.regularFanins.length)
  let pad ← defined (faninNode graph conv 0)
  require (isPad pad)
  require (haveSameDataType conv pad)
  require !(hasControlFaninOrFanout graph pad)
  require (hasAtMostOneFanoutAtPort0 graph pad)
  require !(pad.name ∈ ctx.nodesToPreserve)
  .ok pad

def dimIndices (conv : NodeDef) : Matching DimIndices := do
  match ← defined (conv.getAttr "data_format") with
  | .s format =>
    match formatFromString format with
    | some format => .ok (getTensorDimIndices format)
    | none => .error .noMatch
  | _ => .error .noMatch

def paddingsTensor (paddings : NodeDef) : Matching TensorProto :=
  match paddings.getAttr "value" with
  | some (.tensor tensor) => .ok tensor
  | _ => .error .noMatch

def padsOnlySpatial (indices : DimIndices) (values : List Int) : Bool :=
  values.getD (indices.n * 2) 0 = 0 && values.getD (indices.n * 2 + 1) 0 = 0 &&
    values.getD (indices.c * 2) 0 = 0 && values.getD (indices.c * 2 + 1) 0 = 0

def findPadWithConv2D (ctx : RemapperContext) (conv : NodeDef) : Matching PadWithConv2D := do
  let pad ← findPad ctx conv
  let paddings ← defined (faninNode ctx.view.graph pad 1)
  require (isConstant paddings)
  let indices ← dimIndices conv
  checkPadConstant ctx pad
  require (hasPaddingsShape ctx pad)
  let values ← readPaddings (← paddingsTensor paddings)
  require (padsOnlySpatial indices values)
  let values ← addConvPadding ctx conv indices values
  .ok ⟨pad.name, conv.name, values⟩

/-- The node that replaces the convolution: the attributes of `CopyConv2DAttributes`, with
    the paddings of `FuseConv2DExplicitPaddings`. -/
def fusedConv2D (pad conv : NodeDef) (found : PadWithConv2D) : Option NodeDef := do
  let input ← pad.regularFanins[0]?
  let filter ← conv.regularFanins[1]?
  let copied ← ["T", "strides", "padding", "explicit_paddings", "dilations", "data_format",
    "use_cudnn_on_gpu"].mapM fun attrName =>
      (conv.getAttr attrName).map fun value => (attrName, value)
  some
    { name := conv.name
      op := conv.op
      device := conv.device
      regularFanins := [input, filter]
      attr := setAttr (setAttr copied "padding" (.s "EXPLICIT")) "explicit_paddings"
        (.listI found.newPaddingValues) }

variable {ctx : RemapperContext}

theorem checkPadConstant_ok {pad : NodeDef} (isPadV2 : pad.op = "PadV2") :
    checkPadConstant ctx pad = .ok () ↔
      (ctx.getInputProperties pad.name).length = 3 ∧ ∃ constant tensor,
        faninNode ctx.view.graph pad 2 = some constant ∧ isConstant constant = true ∧
        constant.getAttr "value" = some (.tensor tensor) ∧
        paddingValue tensor = .ok (.finite 0) := by
  simp only [checkPadConstant, isPadV2, if_true, bind_eq_ok, require_eq_ok, defined_eq_ok,
    decide_eq_true_eq]
  constructor
  · rintro ⟨-, three, constant, got, -, isConst, rest⟩
    split at rest
    · rename_i tensor isTensor
      simp only [bind_eq_ok, require_eq_ok, decide_eq_true_eq] at rest
      obtain ⟨floatVal, read, rfl⟩ := rest
      exact ⟨three, constant, tensor, got, isConst, isTensor, read⟩
    · simp at rest
    · simp at rest
  · rintro ⟨three, constant, tensor, got, isConst, isTensor, read⟩
    refine ⟨(), three, constant, got, (), isConst, ?_⟩
    simp [isTensor, bind_eq_ok, read]

variable {conv : NodeDef}

theorem findPadWithConv2D_ok {got : PadWithConv2D} : findPadWithConv2D ctx conv = .ok got ↔
      ∃ pad paddings indices tensor values sums, findPad ctx conv = .ok pad ∧
        faninNode ctx.view.graph pad 1 = some paddings ∧ isConstant paddings = true ∧
        dimIndices conv = .ok indices ∧ checkPadConstant ctx pad = .ok () ∧
        hasPaddingsShape ctx pad = true ∧ paddingsTensor paddings = .ok tensor ∧
        readPaddings tensor = .ok values ∧ padsOnlySpatial indices values = true ∧
        addConvPadding ctx conv indices values = .ok sums ∧ got = ⟨pad.name, conv.name, sums⟩ := by
  simp only [findPadWithConv2D, bind_eq_ok, require_eq_ok, defined_eq_ok, Except.ok.injEq]
  constructor
  · rintro ⟨pad, isPad, paddings, isPaddings, -, constant, indices, isIndices, ⟨⟩, checked,
      -, shaped, tensor, isTensor, values, read, -, spatial, sums, added, rfl⟩
    exact ⟨pad, paddings, indices, tensor, values, sums, isPad, isPaddings, constant, isIndices,
      checked, shaped, isTensor, read, spatial, added, rfl⟩
  · rintro ⟨pad, paddings, indices, tensor, values, sums, isPad, isPaddings, constant, isIndices,
      checked, shaped, isTensor, read, spatial, added, rfl⟩
    exact ⟨pad, isPad, paddings, isPaddings, (), constant, indices, isIndices, (), checked, (),
      shaped, tensor, isTensor, values, read, (), spatial, sums, added, rfl⟩

/-- The value that the runtime decodes, of a constant of one element. -/
def constantValue (tensor : TensorProto) : Option Value :=
  match tensor.dtype with
  | .half =>
    match decode halfElement tensor with
    | some [bits] => some (halfToFloat (value bits))
    | _ => none
  | .float =>
    match decode floatElement tensor with
    | some [bits] => some (value bits)
    | _ => none
  | _ => none

/-- The pass fuses a `PadV2` with this constant into the convolution. -/
def FusesConstant (ctx : RemapperContext) (conv : NodeDef) (tensor : TensorProto) : Prop :=
  conv ∈ ctx.view.graph ∧ ∃ found pad constant, findPadWithConv2D ctx conv = .ok found ∧
    findPad ctx conv = .ok pad ∧ pad.op = "PadV2" ∧ faninNode ctx.view.graph pad 2 = some constant ∧
    constant.getAttr "value" = some (.tensor tensor)

variable {tensor : TensorProto}

theorem FusesConstant.paddingValue (fuses : FusesConstant ctx conv tensor) :
    paddingValue tensor = .ok (.finite 0) := by
  obtain ⟨-, got, pad, constant, matched, isPad, isPadV2, isConstant, isValue⟩ := fuses
  obtain ⟨pad', -, -, -, -, -, isPad', -, -, -, checked, -⟩ := findPadWithConv2D_ok.mp matched
  obtain rfl := Except.ok.inj (isPad.symm.trans isPad')
  obtain ⟨-, constant', tensor', isConstant', -, isValue', read⟩ :=
    (checkPadConstant_ok isPadV2).mp checked
  obtain rfl := Option.some.inj (isConstant.symm.trans isConstant')
  obtain rfl := AttrValue.tensor.inj (Option.some.inj (isValue.symm.trans isValue'))
  exact read

theorem constantValue_of_paddingValue {decoded read : Value}
    (isDecoded : constantValue tensor = some decoded) (isRead : paddingValue tensor = .ok read)
    (dim : tensor.dims ≠ []) : read = decoded := by
  unfold constantValue at isDecoded
  unfold paddingValue at isRead
  split at isDecoded
  · rename_i dtype
    split at isDecoded
    · rename_i bits decodes
      have one := getNumElements_of_decode decodes dim
      simp only [dtype, one, one_ne_zero, if_false, map_defined_eq_ok] at isRead
      obtain ⟨bits', got, rfl⟩ := isRead
      obtain rfl := Option.some.inj (getTensorElement_of_decode decodes got one_pos)
      exact Option.some.inj isDecoded
    · simp at isDecoded
  · rename_i dtype
    split at isDecoded
    · rename_i bits decodes
      have one := getNumElements_of_decode decodes dim
      simp only [dtype, one, one_ne_zero, if_false, map_defined_eq_ok] at isRead
      obtain ⟨bits', got, rfl⟩ := isRead
      obtain rfl := Option.some.inj (getTensorElement_of_decode decodes got one_pos)
      exact Option.some.inj isDecoded
    · simp at isDecoded
  · simp at isDecoded

theorem paddingValue_scalar (scalar : tensor.dims = [])
    (dtype : tensor.dtype = .half ∨ tensor.dtype = .float) :
    paddingValue tensor = .ok (.finite 0) := by
  have zero : getNumElements tensor = 0 := by
    rw [getNumElements, scalar]
    rfl
  rcases dtype with half | float
  · simp [paddingValue, half, zero]
  · simp [paddingValue, float, zero]

def padNode (tensor : TensorProto) : NodeDef :=
  { name := "pad", op := "PadV2", attr := [("T", .type tensor.dtype)]
    regularFanins := [⟨"x", 0⟩, ⟨"paddings", 0⟩, ⟨"constant", 0⟩] }

def convNode (tensor : TensorProto) : NodeDef :=
  { name := "conv", op := "Conv2D", regularFanins := [⟨"pad", 0⟩, ⟨"filter", 0⟩]
    attr := [("T", .type tensor.dtype), ("data_format", .s "NHWC"), ("padding", .s "VALID")] }

/-- A padding of one on each side of the spatial dimensions, with the constant given, before a
    convolution without padding. -/
def paddedGraph (tensor : TensorProto) : List NodeDef :=
  [{ name := "x", op := "Placeholder" },
   { name := "paddings", op := "Const"
     attr := [("value", .tensor
       { dtype := .int32, tensorShape := some [4, 2], intVal := [0, 0, 1, 1, 1, 1, 0, 0] })] },
   { name := "constant", op := "Const", attr := [("value", .tensor tensor)] }, padNode tensor,
   { name := "filter", op := "Placeholder" }, convNode tensor]

def paddedContext (tensor : TensorProto) : RemapperContext where
  view :=
    { graph := paddedGraph tensor
      unique := by
        show ["x", "paddings", "constant", "pad", "filter", "conv"].Nodup
        decide
      present := by simp [paddedGraph, padNode, convNode]
      controlsPresent := by simp [paddedGraph, padNode, convNode]
      noSelfCycle := by simp [paddedGraph, padNode, convNode]
      noControlSelfCycle := by simp [paddedGraph, padNode, convNode] }
  nodesToPreserve := []
  getInputProperties := fun _ => [⟨none⟩, ⟨some [4, 2]⟩, ⟨some []⟩]

theorem paddedGraph_findPad (tensor : TensorProto) :
    findPad (paddedContext tensor) (convNode tensor) = .ok (padNode tensor) := by
  have same : haveSameDataType (convNode tensor) (padNode tensor) = true := decide_eq_true rfl
  have isPad : faninNode (paddedGraph tensor) (convNode tensor) 0 = some (padNode tensor) := rfl
  simp only [findPad, bind_eq_ok, require_eq_ok, defined_eq_ok]
  exact ⟨(), rfl, (), rfl, (), rfl, padNode tensor, isPad, (), rfl, (), same, (), rfl, (), rfl,
    (), rfl, rfl⟩

theorem paddedGraph_fuses (read : paddingValue tensor = .ok (.finite 0)) :
    FusesConstant (paddedContext tensor) (convNode tensor) tensor := by
  have checked : checkPadConstant (paddedContext tensor) (padNode tensor) = .ok () :=
    (checkPadConstant_ok rfl).mpr ⟨rfl, _, tensor, rfl, rfl, rfl, read⟩
  have mem : convNode tensor ∈ (paddedContext tensor).view.graph := by
    simp [paddedContext, paddedGraph, convNode]
  refine ⟨mem, ⟨"pad", "conv", [0, 0, 1, 1, 1, 1, 0, 0]⟩, padNode tensor, _, ?_,
    paddedGraph_findPad tensor, rfl, rfl, rfl⟩
  rw [findPadWithConv2D_ok]
  exact ⟨padNode tensor, _, _, _, _, _, paddedGraph_findPad tensor, rfl, rfl, rfl, checked, rfl,
    rfl, rfl, rfl, rfl, rfl⟩

/-- Of the constants that the pass reads, those that are fused only as zeros are the ones
    with a dimension, and the zeros. -/
theorem padV2_fused_iff (tensor : TensorProto) (decoded : Value)
    (isDecoded : constantValue tensor = some decoded) :
    (∀ ctx conv, FusesConstant ctx conv tensor → decoded = .finite 0) ↔
      tensor.dims ≠ [] ∨ decoded = .finite 0 := by
  constructor
  · intro claim
    by_cases scalar : tensor.dims = []
    · have dtype : tensor.dtype = .half ∨ tensor.dtype = .float := by
        unfold constantValue at isDecoded
        split at isDecoded
        · exact Or.inl ‹_›
        · exact Or.inr ‹_›
        · simp at isDecoded
      exact Or.inr (claim _ _ (paddedGraph_fuses (paddingValue_scalar scalar dtype)))
    · exact Or.inl scalar
  · rintro (dim | zero) ctx conv fuses
    · exact (constantValue_of_paddingValue isDecoded fuses.paddingValue dim).symm
    · exact zero

def oneVector : TensorProto :=
  { dtype := .float, tensorShape := some [1], floatVal := [0x3f800000#32] }

theorem oneVector_not_fused : constantValue oneVector = some (.finite (2 ^ 149)) ∧
    ∀ ctx conv, ¬ FusesConstant ctx conv oneVector := by
  have isOne : constantValue oneVector = some (.finite (2 ^ 149)) := by decide
  refine ⟨isOne, fun ctx conv fuses => ?_⟩
  have zero := (padV2_fused_iff oneVector _ isOne).mpr (Or.inl (by decide)) ctx conv fuses
  exact absurd zero (by decide)

def oneConstant : TensorProto :=
  { dtype := .float, tensorShape := some [], floatVal := [0x3f800000#32] }

theorem oneConstant_fused : ¬ ∀ tensor decoded, constantValue tensor = some decoded →
    ∀ ctx conv, FusesConstant ctx conv tensor → decoded = .finite 0 := by
  intro claim
  have isOne : constantValue oneConstant = some (.finite (2 ^ 149)) := by decide
  have zero := claim oneConstant _ isOne _ _
    (paddedGraph_fuses (paddingValue_scalar rfl (Or.inr rfl)))
  exact absurd zero (by decide)

end TfDml.Optimizer.Remapper
