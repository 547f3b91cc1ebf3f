import TfDml.Core.BufferRegion
import TfDml.Core.WindowSums
import TfDml.Kernels.BiasAdd
import TfDml.Kernels.ConcatOp
import Mathlib.Algebra.Order.BigOperators.Group.List
import Mathlib.Algebra.Order.BigOperators.GroupWithZero.List

/-! # The parameters of an RNN

`CudnnRNNParamsToCanonical` copies consecutive ranges of a flat buffer into the weights and the
biases, which `CudnnRNNCanonicalToParams` joins in the order of its arguments. The sizes come from
tensors in host memory and from attributes, and are divided by before they are checked.
-/

namespace TfDml.CudnnRnn

open Lib
open List hiding flatten
open BiasAdd (made product32)
open BufferRegion (region region_of_pos region_zero subregion)
open ConcatOp (Value)
open DmlGraph (Expression)
open Stop DmlTensorDesc NoOpKernel

inductive RnnDirectionMode where
  | unidirectional
  | bidirectional
  deriving DecidableEq

def numDirs : RnnDirectionMode → Int
  | .unidirectional => 1
  | .bidirectional => 2

/-- A tensor of `int` in host memory, with its first element. -/
structure HostTensor where
  shape : TensorShape
  value : Int
  above : -2 ^ 31 ≤ value
  below : value < 2 ^ 31

/-- The attributes that a node may have. Those that count tensors are not negative. -/
structure Node where
  numProj : Option Int
  numParams : Option Nat
  numParamsWeights : Option Nat
  numParamsBiases : Option Nat
  direction : RnnDirectionMode

structure Attributes where
  numProj : Int
  numParamsWeights : Nat
  numParamsBiases : Nat
  direction : RnnDirectionMode

def Node.attributes (node : Node) : Attributes :=
  let numProj := node.numProj.getD 0
  let numParams := node.numParams.getD 0
  if numProj = 0 then ⟨numProj, numParams, numParams, node.direction⟩
  else ⟨numProj, node.numParamsWeights.getD 0, node.numParamsBiases.getD 0, node.direction⟩

structure Arguments where
  attr : Attributes
  numLayers : HostTensor
  numUnits : HostTensor
  inputSize : HostTensor

namespace Arguments

variable (c : Arguments)

def notScalar (name : String) (tensor : HostTensor) : Status :=
  .invalidArgument (name ++ " must be a scalar, received shape: " ++ tensor.shape.debugString)

def checkScalars : Except Stop Unit := do
  require c.numLayers.shape.isScalar (notScalar "num_layers" c.numLayers)
  require c.numUnits.shape.isScalar (notScalar "num_units" c.numUnits)
  require c.inputSize.shape.isScalar (notScalar "input_size" c.inputSize)

/-- `num_params_weights_per_layer_` -/
def weightsPerLayer : Except Stop Int := do
  let perLayer ← Stop.quotient c.attr.numParamsWeights c.numLayers.value
  Stop.quotient perLayer (numDirs c.attr.direction)

/-- The checks of `CudnnRNNParamsToCanonicalKernel`, with `num_params_weights_per_layer_`. -/
def checkCounts : Except Stop Int := do
  let perLayer ← c.weightsPerLayer
  let layers ← product32 c.numLayers.value (numDirs c.attr.direction)
  let rest ← remainder c.attr.numParamsWeights layers
  require (rest == 0) (.invalidArgument
    "Number of params (weights) is not a multipleof num_layers * num_dirs.")
  let rest ← remainder c.attr.numParamsBiases layers
  require (rest == 0) (.invalidArgument
    "Number of params (biases) is not a multipleof num_layers * num_dirs.")
  if c.attr.numProj = 0 then
    require (perLayer.tmod 2 == 0) (.invalidArgument
      "Number of params (weights) per layer is notan even number with no projection.")
  else
    require (perLayer.tmod 2 != 0) (.invalidArgument
      "Number of params (weights) per layer is notan odd number with projection.")
  .ok perLayer

def hNumUnits : Int := if c.attr.numProj = 0 then c.numUnits.value else c.attr.numProj

def cNumUnits : Int := if c.attr.numProj = 0 then 0 else c.numUnits.value

/-- What is copied to a tensor: its dimensions, and the number of elements. -/
structure Piece where
  dims : List Int
  size : Int

/-- The `width` of the weights, before it may be swapped with their `height`. -/
def width (layerIdx indexWithinLayer inputState : Int) : Except Stop Int :=
  let applyOnInputState := indexWithinLayer < inputState
  match c.attr.direction with
  | .unidirectional =>
    .ok (if layerIdx = 0 ∧ applyOnInputState then c.inputSize.value else c.hNumUnits)
  | .bidirectional =>
    if applyOnInputState then
      if layerIdx ≤ 1 then .ok c.inputSize.value else product32 2 c.hNumUnits
    else .ok c.hNumUnits

/-- The loop over the weights, at position `i`. -/
def weight (perLayer : Int) (i : Nat) : Except Stop Piece := do
  let layerIdx ← Stop.quotient i perLayer
  let indexWithinLayer ← remainder i perLayer
  let height := if c.attr.numProj = 0 then c.hNumUnits else c.cNumUnits
  let width ← c.width layerIdx indexWithinLayer (perLayer.tdiv 2)
  let swapped := c.attr.numProj ≠ 0 ∧ indexWithinLayer = perLayer - 1
  let (height, width) := if swapped then (width, height) else (height, width)
  let size ← product32 height width
  .ok ⟨[height, width], size⟩

def pieces (perLayer : Int) : List (Except Stop Piece) :=
  (range c.attr.numParamsWeights).map (c.weight perLayer) ++
    replicate c.attr.numParamsBiases (.ok ⟨[c.numUnits.value], c.numUnits.value⟩)

end Arguments

open Arguments (Piece)

/-- A tensor with a negative dimension is not allocated. -/
def allocated (dims : List Int) : Except Stop TensorShape :=
  if ∀ dim ∈ dims, 0 ≤ dim then .ok (dims.map Int.toNat) else .error .fatal

structure Copy where
  shape : TensorShape
  srcOffset : Nat
  sizeInBytes : Nat

/-- A call of `CudnnRNNParamsToCanonical`, with the bytes of an element and the number of elements
    of the flat buffer. -/
structure ParamsCall extends Arguments where
  elementSize : Nat
  count : Nat

namespace ParamsCall

variable (c : ParamsCall)

def bytes : Nat := c.count * c.elementSize

def copyPiece (offset : Nat) (piece : Piece) : Except Stop Copy := do
  let shape ← allocated piece.dims
  let input ← region c.bytes
  let output ← region (shape.numElements * c.elementSize)
  let source ← subregion input offset (piece.size.toNat * c.elementSize)
  check (source ≤ output)
  .ok ⟨shape, offset, source⟩

/-- The loops. The offset does not wrap around, since each piece begins inside of the buffer. -/
def copyPieces (offset : Nat) : List (Except Stop Piece) → Except Stop (List Copy)
  | [] => .ok []
  | piece :: rest => do
    let piece ← piece
    let copy ← c.copyPiece offset piece
    let copies ← copyPieces (offset + piece.size.toNat * c.elementSize) rest
    .ok (copy :: copies)

/-- `CudnnRNNParamsToCanonicalKernel::ComputeImpl` -/
def paramsToCanonical : Except Stop (List Copy) := do
  c.checkScalars
  let perLayer ← c.checkCounts
  c.copyPieces 0 (c.pieces perLayer)

end ParamsCall

/-- A call of `CudnnRNNCanonicalToParams`, with the weights and then the biases. -/
structure CanonicalCall (α : Type) extends Arguments where
  tensors : List (Value α)

namespace CanonicalCall

variable {α : Type} (c : CanonicalCall α)

def outputSize : Nat := (c.tensors.map fun tensor => tensor.shape.numElements).sum

def kernelInput (tensor : Value α) : Option (DmlTensorDesc × List α) := do
  let inputShape := [1, 1, 1, tensor.shape.numElements]
  let desc ← create inputShape inputShape
  return (desc, tensor.values)

/-- `CudnnRNNCanonicalToParamsKernel`. The result of `dml::Join` has the sizes of its operands
    added up in 32 bits. -/
def canonicalToParamsKernel : Option (List (Option α)) := do
  let _ ← create [c.outputSize] [c.outputSize]
  let inputs ← c.tensors.mapM kernelInput
  let sizes := [1, 1, 1, c.outputSize % 2 ^ 32]
  let joined ← dmlJoin inputs ⟨sizes, packedStrides sizes⟩ 3
  let joined : Expression α := ⟨sizes, none, joined⟩
  let result ← joined.reinterpret [c.outputSize % 2 ^ 32] none
  return result.buffer

def isNoOp : Bool :=
  isNoOpKernel ([c.numLayers.shape, c.numUnits.shape, c.inputSize.shape] ++
    c.tensors.map Value.shape) [[c.outputSize]]

def canonicalToParams [Zero α] : Except Stop (List (Option α)) := do
  c.checkScalars
  let _ ← c.weightsPerLayer
  let _ ← int64 c.outputSize
  if c.isNoOp then .ok (zeroed [c.outputSize]) else made c.canonicalToParamsKernel

end CanonicalCall

/-- The function completes within bounds, or it reports an error about its arguments. -/
def Completes {β : Type} (Inside : β → Prop) : Except Stop β → Prop
  | .ok result => Inside result
  | .error (.status reported) => reported.isInvalidArgument = true
  | .error _ => False

def ParamsCall.Safe (c : ParamsCall) : Prop :=
  Completes (fun copies => ∀ copy ∈ copies, copy.srcOffset + copy.sizeInBytes ≤ c.bytes)
    c.paramsToCanonical

def CanonicalCall.Safe {α : Type} [Zero α] (c : CanonicalCall α) : Prop :=
  Completes (fun _ => True) c.canonicalToParams

namespace Arguments

variable (c : Arguments)

def Scalars : Prop :=
  c.numLayers.shape.isScalar = true ∧ c.numUnits.shape.isScalar = true ∧
    c.inputSize.shape.isScalar = true

def layers : Int := c.numLayers.value * numDirs c.attr.direction

def perLayer : Int :=
  ((c.attr.numParamsWeights : Int).tdiv c.numLayers.value).tdiv (numDirs c.attr.direction)

def Counts : Prop :=
  (c.attr.numParamsWeights : Int).tmod c.layers = 0 ∧
    (c.attr.numParamsBiases : Int).tmod c.layers = 0 ∧ (c.attr.numProj = 0 ↔ c.perLayer.tmod 2 = 0)

/-- `width`, without a bound on the arithmetic. -/
def widthOf (layerIdx indexWithinLayer inputState : Int) : Int :=
  let applyOnInputState := indexWithinLayer < inputState
  match c.attr.direction with
  | .unidirectional => if layerIdx = 0 ∧ applyOnInputState then c.inputSize.value else c.hNumUnits
  | .bidirectional =>
    if applyOnInputState then if layerIdx ≤ 1 then c.inputSize.value else 2 * c.hNumUnits
    else c.hNumUnits

/-- The dimensions of the weights at a position, without a bound on the arithmetic. -/
def weightDims (i : Nat) : List Int :=
  let indexWithinLayer := (i : Int).tmod c.perLayer
  let height := if c.attr.numProj = 0 then c.hNumUnits else c.cNumUnits
  let width := c.widthOf ((i : Int).tdiv c.perLayer) indexWithinLayer (c.perLayer.tdiv 2)
  if c.attr.numProj ≠ 0 ∧ indexWithinLayer = c.perLayer - 1 then [width, height]
  else [height, width]

def dims : List (List Int) :=
  (range c.attr.numParamsWeights).map c.weightDims ++
    replicate c.attr.numParamsBiases [c.numUnits.value]

end Arguments

/-- A tensor has elements, whose number is an `int`. -/
def Fits (dims : List Int) : Prop := (∀ dim ∈ dims, 0 < dim) ∧ dims.prod < 2 ^ 31

def elements (dims : List Int) : Nat := dims.prod.toNat

/-- The tensors fit, and the flat buffer has their elements. -/
def ParamsCall.Room (c : ParamsCall) : Prop :=
  (∀ dims ∈ c.dims, Fits dims) ∧ (c.dims.map elements).sum ≤ c.count

/-- No division by zero and no overflow come before the checks, and what they let through has
    room. -/
def ParamsCall.Sound (c : ParamsCall) : Prop :=
  c.Scalars → c.numLayers.value ≠ 0 ∧ (-2 ^ 31 ≤ c.layers ∧ c.layers < 2 ^ 31) ∧ (c.Counts → c.Room)

/-- The layers are not zero, and a flat buffer that is joined has fewer than 2^32 elements. -/
def CanonicalCall.Sound {α : Type} (c : CanonicalCall α) : Prop :=
  c.Scalars → c.numLayers.value ≠ 0 ∧ c.outputSize < 2 ^ 63 ∧
    (c.isNoOp = false → c.outputSize < 2 ^ 32)

namespace Arguments

variable {c : Arguments} {β : Type} {Inside : β → Prop}

theorem scalars_spec : (c.Scalars → c.checkScalars = .ok ()) ∧
      (¬ c.Scalars → ∃ message, c.checkScalars = .error (.status (.invalidArgument message))) := by
  rw [Scalars, checkScalars]
  cases c.numLayers.shape.isScalar with
  | false => simp [require, error_bind, notScalar]
  | true =>
    cases c.numUnits.shape.isScalar with
    | false => simp [require, ok_bind, error_bind, notScalar]
    | true =>
      cases c.inputSize.shape.isScalar <;>
        simp [require, ok_bind, notScalar]

theorem numDirs_pos (direction : RnnDirectionMode) : 0 < numDirs direction := by
  cases direction <;> decide

theorem weightsPerLayer_eq (ne : c.numLayers.value ≠ 0) : c.weightsPerLayer = .ok c.perLayer := by
  rw [weightsPerLayer, Stop.quotient, if_neg ne, ok_bind, quotient_of_pos (numDirs_pos _)]
  rfl

theorem weightsPerLayer_zero (zero : c.numLayers.value = 0) :
    c.weightsPerLayer = .error .divisionByZero := by
  rw [weightsPerLayer, Stop.quotient, if_pos zero]
  rfl

theorem layers_ne_zero (ne : c.numLayers.value ≠ 0) : c.layers ≠ 0 :=
  mul_ne_zero ne (numDirs_pos _).ne'

theorem counts_spec (ne : c.numLayers.value ≠ 0)
    (fits : -2 ^ 31 ≤ c.layers ∧ c.layers < 2 ^ 31) : (c.Counts → c.checkCounts = .ok c.perLayer) ∧
      (¬ c.Counts → ∃ message, c.checkCounts = .error (.status (.invalidArgument message))) := by
  have product : product32 c.numLayers.value (numDirs c.attr.direction) = .ok c.layers :=
    if_pos fits
  have dvd (n : Int) : remainder n c.layers = .ok (n.tmod c.layers) := if_neg (layers_ne_zero ne)
  rw [Counts, checkCounts, weightsPerLayer_eq ne, ok_bind, product, ok_bind, dvd, ok_bind, dvd]
  by_cases weights : (c.attr.numParamsWeights : Int).tmod c.layers = 0
  · by_cases biases : (c.attr.numParamsBiases : Int).tmod c.layers = 0
    · by_cases even : c.perLayer.tmod 2 = 0
      · by_cases proj : c.attr.numProj = 0
        · simp [weights, biases, even, proj, require, ok_bind]
        · simp [weights, biases, even, proj, require, ok_bind, error_bind]
      · by_cases proj : c.attr.numProj = 0
        · simp [weights, biases, even, proj, require, ok_bind, error_bind]
        · simp [weights, biases, even, proj, require, ok_bind]
    · simp [weights, biases, require, ok_bind, error_bind]
  · simp [weights, require, error_bind]

theorem perLayer_ne_zero (ne : c.numLayers.value ≠ 0) (counts : c.Counts)
    (some_ : 0 < c.attr.numParamsWeights) : c.perLayer ≠ 0 := by
  intro zero
  obtain ⟨q, whole⟩ := Int.dvd_of_tmod_eq_zero counts.1
  have quotient : c.perLayer = q := by
    rw [perLayer, whole, layers, Int.mul_assoc, Int.mul_tdiv_cancel_left _ ne,
      Int.mul_tdiv_cancel_left _ (numDirs_pos _).ne']
  rw [← quotient, zero, Int.mul_zero] at whole
  omega

end Arguments

/-- What a piece is copied to: a tensor that may fit, or there is no such piece and no tensor. -/
def Describes (piece : Except Stop Piece) (dims : List Int) : Prop :=
  (piece = .ok ⟨dims, dims.prod⟩ ∧ dims.prod < 2 ^ 31) ∨ piece = .error .overflow ∧ ¬ Fits dims

theorem describes_of_product {height width : Int} : Describes (do
      let size ← product32 height width
      .ok ⟨[height, width], size⟩) [height, width] := by
  rw [product32]
  have product : [height, width].prod = height * width := by simp
  split
  case isTrue fits => exact .inl ⟨by rw [product]; rfl, by rw [product]; exact fits.2⟩
  case isFalse large =>
    refine .inr ⟨rfl, fun ⟨positive, lt⟩ => large ?_⟩
    rw [product] at lt
    have first := positive height (by simp)
    have second := positive width (by simp)
    have := mul_pos first second
    omega

namespace Arguments

variable {c : Arguments}

theorem width_spec (layerIdx indexWithinLayer inputState : Int) :
    c.width layerIdx indexWithinLayer inputState =
        .ok (c.widthOf layerIdx indexWithinLayer inputState) ∨
      c.width layerIdx indexWithinLayer inputState = .error .overflow ∧
        ¬ (-2 ^ 31 ≤ c.widthOf layerIdx indexWithinLayer inputState ∧
          c.widthOf layerIdx indexWithinLayer inputState < 2 ^ 31) := by
  rw [width, widthOf]
  cases c.attr.direction with
  | unidirectional => exact .inl rfl
  | bidirectional =>
    simp only
    split_ifs
    · exact .inl rfl
    · rw [product32]
      split
      case isTrue => exact .inl rfl
      case isFalse large => exact .inr ⟨rfl, large⟩
    · exact .inl rfl

theorem not_fits_of_large {height width : Int} (large : ¬ (-2 ^ 31 ≤ width ∧ width < 2 ^ 31)) :
    ¬ Fits [height, width] ∧ ¬ Fits [width, height] := by
  have refuted (positive : 0 < height ∧ 0 < width) : ¬ height * width < 2 ^ 31 := by
    have := le_mul_of_one_le_left (Int.le_of_lt positive.2) positive.1
    omega
  constructor
  · rintro ⟨positive, lt⟩
    exact refuted ⟨positive height (by simp), positive width (by simp)⟩ (by simpa using lt)
  · rintro ⟨positive, lt⟩
    refine refuted ⟨positive height (by simp), positive width (by simp)⟩ ?_
    rw [mul_comm]
    simpa using lt

theorem describes_weight (ne : c.perLayer ≠ 0) (i : Nat) :
    Describes (c.weight c.perLayer i) (c.weightDims i) := by
  rw [weight, Stop.quotient, if_neg ne, ok_bind, remainder, if_neg ne, ok_bind, weightDims]
  simp only
  generalize (if c.attr.numProj = 0 then c.hNumUnits else c.cNumUnits) = height
  rcases c.width_spec ((i : Int).tdiv c.perLayer) ((i : Int).tmod c.perLayer)
    (c.perLayer.tdiv 2) with isOk | ⟨err, large⟩
  · rw [isOk, ok_bind]
    split
    · exact describes_of_product
    · exact describes_of_product
  · rw [err, error_bind]
    obtain ⟨first, second⟩ := @not_fits_of_large height _ large
    split
    · exact .inr ⟨rfl, second⟩
    · exact .inr ⟨rfl, first⟩

theorem describes_pieces (ne : c.numLayers.value ≠ 0) (counts : c.Counts) :
    List.Forall₂ Describes (c.pieces c.perLayer) c.dims := by
  rw [pieces, dims]
  refine rel_append ?_ ?_
  · rw [forall₂_map_left_iff, forall₂_map_right_iff, forall₂_same]
    intro i mem
    refine describes_weight (perLayer_ne_zero ne counts ?_) i
    exact Nat.zero_lt_of_lt (mem_range.mp mem)
  · induction c.attr.numParamsBiases with
    | zero => exact .nil
    | succ n ih =>
      refine .cons (.inl ⟨?_, ?_⟩) ih
      · rw [prod_singleton]
      · rw [prod_singleton]
        exact c.numUnits.below

end Arguments

theorem allocated_of_fits {dims : List Int} (fits : Fits dims) :
    allocated dims = .ok (dims.map Int.toNat) ∧
      TensorShape.numElements (dims.map Int.toNat) = elements dims ∧ 0 < elements dims := by
  have natural : (dims.map Int.toNat).map Nat.cast = dims := by
    rw [map_map]
    refine (map_congr_left fun dim mem => ?_).trans (map_id dims)
    exact Int.toNat_of_nonneg (fits.1 dim mem).le
  have product : ((dims.map Int.toNat).prod : Int) = dims.prod := by
    rw [Nat.cast_list_prod, natural]
  have positive : 0 < dims.prod := prod_pos fits.1
  refine ⟨if_pos fun dim mem => (fits.1 dim mem).le, ?_, ?_⟩
  · rw [elements, ← product]
    rfl
  · rw [elements]
    omega

/-- The types of the elements, in a buffer whose bytes are counted. -/
structure ParamsCall.Sized (c : ParamsCall) : Prop where
  type : c.elementSize ∈ [2, 4, 8]
  addressable : c.bytes < 2 ^ 63

namespace ParamsCall

variable {c : ParamsCall} {offset : Nat} {dims : List Int}

theorem Sized.bounds (sized : c.Sized) : 0 < c.elementSize ∧ c.elementSize ≤ 8 := by
  have type := sized.type
  simp only [mem_cons, not_mem_nil, or_false] at type
  omega

def bytesOf (c : ParamsCall) (dims : List Int) : Nat := elements dims * c.elementSize

theorem bytesOf_bounds (sized : c.Sized) (fits : Fits dims) :
    0 < c.bytesOf dims ∧ c.bytesOf dims < 2 ^ 63 := by
  obtain ⟨positive, few⟩ := sized.bounds
  have some_ := (allocated_of_fits fits).2.2
  have below : elements dims < 2 ^ 31 := by
    have := fits.2
    rw [elements] at some_ ⊢
    omega
  exact ⟨mul_pos some_ positive, (Nat.mul_le_mul below.le few).trans_lt (by decide)⟩

theorem copyPiece_eq (sized : c.Sized) (fits : Fits dims) {copy : Copy} :
    c.copyPiece offset ⟨dims, dims.prod⟩ = .ok copy ↔
      ∃ size, region c.bytes = .ok size ∧ offset + c.bytesOf dims ≤ size ∧
        copy = ⟨dims.map Int.toNat, offset, c.bytesOf dims⟩ := by
  obtain ⟨made, count, -⟩ := allocated_of_fits fits
  obtain ⟨positive, small⟩ := bytesOf_bounds sized fits
  obtain ⟨output, isOutput, wide⟩ := region_of_pos positive small
  rw [copyPiece, made, ok_bind, count]
  cases isInput : region c.bytes with
  | error stop => simp [error_bind]
  | ok input =>
    have piece : dims.prod.toNat * c.elementSize = c.bytesOf dims := rfl
    rw [ok_bind, ← bytesOf, isOutput, ok_bind, subregion, piece, if_neg positive.ne']
    simp only [Except.ok.injEq, exists_eq_left']
    by_cases inside : offset + c.bytesOf dims ≤ input
    · have starts : offset < input := by omega
      have ends : c.bytesOf dims ≤ input - offset := by omega
      simp [check, starts, ends, wide, inside, ok_bind, eq_comm]
    · by_cases starts : offset < input
      · have ends : ¬ c.bytesOf dims ≤ input - offset := by omega
        simp [check, starts, ends, inside, ok_bind, error_bind]
      · simp [check, starts, inside, error_bind]

theorem copyPiece_of_not_fits (small : dims.prod < 2 ^ 31) (unfit : ¬ Fits dims) (size : Int)
    (copy : Copy) : c.copyPiece offset ⟨dims, size⟩ ≠ .ok copy := by
  obtain ⟨dim, mem, low⟩ : ∃ dim ∈ dims, dim ≤ 0 := by
    by_contra all
    push Not at all
    exact unfit ⟨all, small⟩
  intro copied
  rw [copyPiece, allocated] at copied
  split at copied
  case isFalse => exact nomatch copied
  case isTrue natural =>
    have zero : TensorShape.numElements (dims.map Int.toNat) = 0 := by
      refine prod_eq_zero (mem_map.mpr ⟨dim, mem, ?_⟩)
      exact Int.toNat_of_nonpos low
    rw [ok_bind, zero, zero_mul, region_zero] at copied
    cases isInput : region c.bytes with
    | error stop => rw [isInput] at copied; exact nomatch copied
    | ok input => rw [isInput] at copied; exact nomatch copied

theorem check_quiet {condition : Bool} (err : Status) : check condition ≠ .error (.status err) := by
  cases condition <;> exact nofun

theorem copyPiece_quiet (piece : Piece) (reported : Status) :
    c.copyPiece offset piece ≠ .error (.status reported) := by
  have regions (bytes : Nat) : region bytes ≠ .error (.status reported) :=
    bind_ne_error (check_quiet reported) nofun
  refine bind_ne_error ?_ fun shape _ => bind_ne_error (regions _) fun input _ =>
    bind_ne_error (regions _) fun output _ => bind_ne_error ?_ fun source _ =>
      bind_ne_error (check_quiet reported) nofun
  · rw [allocated]
    split <;> exact nofun
  · exact bind_ne_error (check_quiet reported) fun _ _ =>
      bind_ne_error (check_quiet reported) nofun

theorem copyPieces_quiet {pieces : List (Except Stop Piece)} {all : List (List Int)}
    (desc : List.Forall₂ Describes pieces all) (err : Status) :
    c.copyPieces offset pieces ≠ .error (.status err) := by
  induction desc generalizing offset with
  | nil => exact nofun
  | cons first _ ih =>
    refine bind_ne_error ?_ fun piece _ =>
      bind_ne_error (copyPiece_quiet piece err) fun copy _ =>
        bind_ne_error ih nofun
    rcases first with ⟨isOk, -⟩ | ⟨failed, -⟩
    · rw [isOk]
      exact nofun
    · rw [failed]
      exact nofun

def copies (c : ParamsCall) (offset : Nat) : List (List Int) → List Copy
  | [] => []
  | dims :: rest =>
    ⟨dims.map Int.toNat, offset, c.bytesOf dims⟩ :: c.copies (offset + c.bytesOf dims) rest

def Inside (c : ParamsCall) (copy : Copy) : Prop := copy.srcOffset + copy.sizeInBytes ≤ c.bytes

theorem copyPieces_spec (sized : c.Sized) {pieces : List (Except Stop Piece)}
    {all : List (List Int)} (desc : List.Forall₂ Describes pieces all)
    (starts : offset ≤ c.bytes) :
    (((∀ dims ∈ all, Fits dims) ∧ offset + (all.map c.bytesOf).sum ≤ c.bytes) →
        c.copyPieces offset pieces = .ok (c.copies offset all) ∧
          ∀ copy ∈ c.copies offset all, c.Inside copy) ∧
      ∀ result, c.copyPieces offset pieces = .ok result → (∀ copy ∈ result, c.Inside copy) →
        (∀ dims ∈ all, Fits dims) ∧ offset + (all.map c.bytesOf).sum ≤ c.bytes := by
  induction desc generalizing offset with
  | nil => exact ⟨fun _ => ⟨rfl, nofun⟩, fun _ _ _ => ⟨nofun, starts⟩⟩
  | @cons piece dims pieces all first rest ih =>
    rw [forall_mem_cons, map_cons, sum_cons, copyPieces]
    by_cases fits : Fits dims
    · obtain ⟨isOk, -⟩ := first.resolve_right fun err => err.2 fits
      rw [isOk, ok_bind]
      have positive := (bytesOf_bounds sized fits).1
      have size : dims.prod.toNat * c.elementSize = c.bytesOf dims := rfl
      simp only [size]
      by_cases lt : offset + c.bytesOf dims ≤ c.bytes
      · obtain ⟨input, isInput, wide⟩ := region_of_pos (by omega) sized.addressable
        have copied : c.copyPiece offset ⟨dims, dims.prod⟩ =
            .ok ⟨dims.map Int.toNat, offset, c.bytesOf dims⟩ :=
          (copyPiece_eq sized fits).mpr ⟨input, isInput, lt.trans wide, rfl⟩
        rw [copied, ok_bind]
        obtain ⟨made, only⟩ := ih lt
        refine ⟨fun room => ?_, fun result isResult inside => ?_⟩
        · obtain ⟨all_, within_⟩ := made ⟨room.1.2, by omega⟩
          rw [all_]
          exact ⟨rfl, forall_mem_cons.mpr ⟨lt, within_⟩⟩
        · cases later : c.copyPieces (offset + c.bytesOf dims) pieces with
          | error stop => rw [later] at isResult; exact nomatch isResult
          | ok others =>
            rw [later] at isResult
            obtain rfl := Except.ok.inj isResult
            obtain ⟨others_, room⟩ := only others later fun copy mem =>
              inside copy (mem_cons_of_mem _ mem)
            exact ⟨⟨fits, others_⟩, by omega⟩
      · refine ⟨fun room => absurd room.2 (by omega), fun result isResult inside => ?_⟩
        cases copied : c.copyPiece offset ⟨dims, dims.prod⟩ with
        | error stop => rw [copied] at isResult; exact nomatch isResult
        | ok copy =>
          rw [copied, ok_bind] at isResult
          obtain ⟨-, -, -, rfl⟩ := (copyPiece_eq sized fits).mp copied
          cases later : c.copyPieces (offset + c.bytesOf dims) pieces with
          | error stop => rw [later] at isResult; exact nomatch isResult
          | ok others =>
            rw [later] at isResult
            obtain rfl := Except.ok.inj isResult
            exact absurd (inside _ mem_cons_self) lt
    · refine ⟨fun room => absurd room.1.1 fits, fun result isResult => ?_⟩
      rcases first with ⟨isOk, small⟩ | ⟨err, -⟩
      · rw [isOk, ok_bind] at isResult
        cases copied : c.copyPiece offset ⟨dims, dims.prod⟩ with
        | error stop => rw [copied] at isResult; exact nomatch isResult
        | ok copy => exact absurd copied (copyPiece_of_not_fits small fits _ copy)
      · rw [err] at isResult
        exact nomatch isResult

end ParamsCall

theorem ParamsCall.room_iff {c : ParamsCall} (sized : c.Sized) :
    c.Room ↔ (∀ dims ∈ c.dims, Fits dims) ∧ 0 + (c.dims.map c.bytesOf).sum ≤ c.bytes := by
  have total : (c.dims.map c.bytesOf).sum = (c.dims.map elements).sum * c.elementSize := by
    rw [← sum_map_mul_right]
    rfl
  rw [Room, zero_add, total, bytes, Nat.mul_le_mul_right_iff sized.bounds.1]

theorem ParamsCall.safe_iff {c : ParamsCall} (sized : c.Sized) : c.Safe ↔ c.Sound := by
  rw [Safe, Sound, paramsToCanonical]
  obtain ⟨scalar, refused⟩ := c.scalars_spec
  by_cases scalars : c.Scalars
  · rw [scalar scalars, ok_bind]
    by_cases zero : c.numLayers.value = 0
    · rw [Arguments.checkCounts, Arguments.weightsPerLayer_zero zero]
      exact iff_of_false id fun sound => (sound scalars).1 zero
    · by_cases fits : -2 ^ 31 ≤ c.layers ∧ c.layers < 2 ^ 31
      · obtain ⟨counted, uncounted⟩ := Arguments.counts_spec zero fits
        by_cases counts : c.Counts
        · obtain ⟨room, only⟩ := copyPieces_spec sized (c.describes_pieces zero counts) (Nat.zero_le _)
          rw [← room_iff sized] at room only
          rw [counted counts, ok_bind]
          constructor
          · intro safe _
            refine ⟨zero, fits, fun _ => ?_⟩
            cases copied : c.copyPieces 0 (c.pieces c.perLayer) with
            | ok result => exact only result copied (by rwa [copied] at safe)
            | error stop =>
              rw [copied] at safe
              cases stop with
              | status err =>
                exact absurd copied (copyPieces_quiet (c.describes_pieces zero counts) err)
              | _ => exact safe.elim
          · intro sound
            obtain ⟨isOk, inside⟩ := room ((sound scalars).2.2 counts)
            rw [isOk]
            exact inside
        · obtain ⟨message, failed⟩ := uncounted counts
          rw [failed]
          exact iff_of_true rfl fun _ => ⟨zero, fits, fun counted => absurd counted counts⟩
      · have product : product32 c.numLayers.value (numDirs c.attr.direction) = .error .overflow :=
          if_neg fits
        rw [Arguments.checkCounts, Arguments.weightsPerLayer_eq zero, ok_bind, product]
        exact iff_of_false id fun sound => fits (sound scalars).2.1
  · obtain ⟨message, failed⟩ := refused scalars
    rw [failed]
    exact iff_of_true rfl fun all => absurd all scalars

section Join

variable {α : Type}

theorem describable_flat {count : Nat} (lt : count < 2 ^ 32) :
    DmlTensorDesc.Describable [1, 1, 1, count] where
  rank := (by decide : 4 ≤ maxDimensionCount)
  dims := by simpa using lt

def flatDesc (count : Nat) : DmlTensorDesc := ⟨[1, 1, 1, count], packedStrides [1, 1, 1, count]⟩

theorem joinEntry_flat (buffers : List (List α)) (k : Nat) :
    joinEntry 3 (buffers.map fun buffer => (flatDesc buffer.length, buffer))
      [0, 0, 0, k] = buffers.flatten[k]? := by
  induction buffers generalizing k with
  | nil => simp [joinEntry]
  | cons buffer rest ih =>
    have size : (flatDesc buffer.length).sizes.getD 3 0 = buffer.length := rfl
    have position : address (flatDesc buffer.length).strides [0, 0, 0, k] = k := by
      simp [flatDesc, packedStrides, address]
    have later : [0, 0, 0, k].modify 3 (· - buffer.length) = [0, 0, 0, k - buffer.length] := rfl
    have last : [0, 0, 0, k].getD 3 0 = k := rfl
    rw [map_cons, joinEntry, size, last, flatten_cons]
    by_cases here : k < buffer.length
    · rw [if_pos here, position, getElem?_append_left here]
    · rw [if_neg here, later, ih, getElem?_append_right (Nat.not_lt.mp here)]

theorem dmlJoin_flat (buffers : List (List α)) :
    dmlJoin (buffers.map fun buffer => (flatDesc buffer.length, buffer))
      (flatDesc buffers.flatten.length) 3 = some (buffers.flatten.map some) := by
  have parts : DmlTensorDesc.PartsOf
      ((buffers.map fun buffer => (flatDesc buffer.length, buffer)).map Prod.fst)
      (flatDesc buffers.flatten.length) 3 := by
    refine ⟨fun desc mem => ?_, ?_⟩
    · obtain ⟨_, inside, rfl⟩ := mem_map.mp mem
      obtain ⟨buffer, -, rfl⟩ := mem_map.mp inside
      rfl
    · rw [map_map, map_map]
      exact length_flatten.symm
  have whole : buffers.flatten.length = [1, 1, 1, buffers.flatten.length].prod := by simp
  rw [dmlJoin, if_pos parts, Option.some.injEq, ← map_getElem?_flatten whole]
  refine map_congr_left fun index mem => ?_
  obtain ⟨a, first, _, inside, rfl⟩ := mem_indices_cons.mp mem
  obtain ⟨b, second, _, inside', rfl⟩ := mem_indices_cons.mp inside
  obtain ⟨d, third, _, inside'', rfl⟩ := mem_indices_cons.mp inside'
  obtain ⟨k, -, _, nil, rfl⟩ := mem_indices_cons.mp inside''
  obtain rfl := mem_singleton.mp nil
  obtain rfl := Nat.lt_one_iff.mp first
  obtain rfl := Nat.lt_one_iff.mp second
  obtain rfl := Nat.lt_one_iff.mp third
  rw [joinEntry_flat]
  simp [flatten]

end Join

namespace CanonicalCall

variable {α : Type} {c : CanonicalCall α}

def Sized (c : CanonicalCall α) : Prop :=
  ∀ tensor ∈ c.tensors, tensor.values.length = tensor.shape.numElements

def flat (c : CanonicalCall α) : List α := (c.tensors.map Value.values).flatten

theorem length_flat (sized : c.Sized) : c.flat.length = c.outputSize := by
  rw [flat, length_flatten, map_map, outputSize]
  exact congrArg List.sum (map_congr_left sized)

theorem kernel_eq (sized : c.Sized) (lt : c.outputSize < 2 ^ 32) :
    c.canonicalToParamsKernel = some (c.flat.map some) := by
  have output : create [c.outputSize] [c.outputSize] = some _ :=
    create_self_eq_some.mpr
      ⟨⟨(by decide : 1 ≤ maxDimensionCount), by simpa using lt⟩, rfl⟩
  have inputs : c.tensors.mapM kernelInput =
      some ((c.tensors.map Value.values).map fun buffer => (flatDesc buffer.length, buffer)) := by
    rw [map_map]
    refine mapM_eq_some fun tensor mem => ?_
    have below : tensor.shape.numElements < 2 ^ 32 :=
      (le_sum_of_mem (mem_map_of_mem mem)).trans_lt lt
    have desc := create_self_eq_some.mpr ⟨describable_flat below, rfl⟩
    simp only [kernelInput, desc, Function.comp_apply, sized tensor mem]
    rfl
  have joined := dmlJoin_flat (c.tensors.map Value.values)
  rw [← flat, length_flat sized] at joined
  simp only [canonicalToParamsKernel, output, inputs, Nat.mod_eq_of_lt lt, Option.bind_eq_bind,
    Option.bind_some]
  rw [← flatDesc, joined, Option.bind_some]
  have view : (⟨[1, 1, 1, c.outputSize], none, c.flat.map some⟩ : Expression α).reinterpret
      [c.outputSize] none = some ⟨[c.outputSize], none, c.flat.map some⟩ :=
    DmlGraph.Expression.reinterpret_eq_some.mpr ⟨rfl, by simp [Expression.extent, length_flat sized]⟩
  rw [view]
  rfl

theorem kernel_of_large (large : 2 ^ 32 ≤ c.outputSize) : c.canonicalToParamsKernel = none := by
  have output : create [c.outputSize] [c.outputSize] = none := by
    refine Option.eq_none_iff_forall_ne_some.mpr fun desc hit => ?_
    have below := (create_self_eq_some.mp hit).1.dims c.outputSize (by simp)
    omega
  rw [canonicalToParamsKernel, output]
  rfl

theorem canonicalToParams_eq [Zero α] (scalars : c.Scalars) (ne : c.numLayers.value ≠ 0)
    (lt : c.outputSize < 2 ^ 63) :
    c.canonicalToParams = if c.isNoOp then .ok (zeroed [c.outputSize])
      else made c.canonicalToParamsKernel := by
  rw [canonicalToParams, c.scalars_spec.1 scalars, ok_bind,
    Arguments.weightsPerLayer_eq ne, ok_bind, int64, if_pos, ok_bind]
  exact ⟨by omega, by omega⟩

theorem safe_iff [Zero α] (sized : c.Sized) : c.Safe ↔ c.Sound := by
  rw [Safe, Sound]
  by_cases scalars : c.Scalars
  · by_cases zero : c.numLayers.value = 0
    · rw [canonicalToParams, c.scalars_spec.1 scalars, ok_bind, Arguments.weightsPerLayer_zero zero]
      exact iff_of_false id fun sound => (sound scalars).1 zero
    · by_cases lt : c.outputSize < 2 ^ 63
      · rw [canonicalToParams_eq scalars zero lt]
        cases skip : c.isNoOp with
        | true => exact iff_of_true trivial fun _ => ⟨zero, lt, nofun⟩
        | false =>
          by_cases below : c.outputSize < 2 ^ 32
          · rw [kernel_eq sized below]
            exact iff_of_true trivial fun _ => ⟨zero, lt, fun _ => below⟩
          · rw [kernel_of_large (Nat.not_lt.mp below)]
            exact iff_of_false id fun sound => below ((sound scalars).2.2 rfl)
      · rw [canonicalToParams, c.scalars_spec.1 scalars, ok_bind,
          Arguments.weightsPerLayer_eq zero, ok_bind, int64, if_neg fun fits => lt
            (by have := fits.2; omega)]
        exact iff_of_false id fun sound => lt (sound scalars).2.1
  · obtain ⟨message, err⟩ := c.scalars_spec.2 scalars
    rw [canonicalToParams, err]
    exact iff_of_true rfl fun all => absurd all scalars

end CanonicalCall

inductive Invocation (α : Type) where
  | paramsToCanonical (c : ParamsCall) (sized : c.Sized)
  | canonicalToParams (c : CanonicalCall α) (sized : c.Sized)

namespace Invocation

variable {α : Type}

def Safe [Zero α] : Invocation α → Prop
  | paramsToCanonical c _ => c.Safe
  | canonicalToParams c _ => c.Safe

def Sound : Invocation α → Prop
  | paramsToCanonical c _ => c.Sound
  | canonicalToParams c _ => c.Sound

end Invocation

def hostScalar (value : Int) (above : -2 ^ 31 ≤ value) (below : value < 2 ^ 31) : HostTensor :=
  ⟨[], value, above, below⟩

def withoutLayers : ParamsCall where
  attr := ⟨0, 8, 8, .unidirectional⟩
  numLayers := hostScalar 0 (by decide) (by decide)
  numUnits := hostScalar 1 (by decide) (by decide)
  inputSize := hostScalar 1 (by decide) (by decide)
  elementSize := 4
  count := 16

/-- Arguments that the checks let through, with sizes below 2^31. -/
structure RoundTrip extends Arguments where
  elementSize : Nat
  type : elementSize ∈ [2, 4, 8]
  scalars : toArguments.Scalars
  someLayers : 1 ≤ numLayers.value
  someUnits : 1 ≤ numUnits.value
  someInput : 1 ≤ inputSize.value
  proj : 0 ≤ attr.numProj
  checkedPerLayer : Int
  checked : toArguments.checkCounts = .ok checkedPerLayer
  small : (toArguments.dims.map elements).sum < 2 ^ 31

/-- What an output holds after the copy, in elements. -/
def Copy.read {α : Type} (copy : Copy) (elementSize : Nat) (params : List α) :
    TensorShape × List (Option α) :=
  (copy.shape, (range (copy.sizeInBytes / elementSize)).map fun k =>
    params[copy.srcOffset / elementSize + k]?)

namespace RoundTrip

open Arguments (checkCounts counts_spec weightsPerLayer_eq hNumUnits cNumUnits widthOf weightDims)

variable {α : Type} (c : RoundTrip)

def ofParams (params : List α) : ParamsCall := ⟨c.toArguments, c.elementSize, params.length⟩

def ofCanonical (tensors : List (Value α)) : CanonicalCall α := ⟨c.toArguments, tensors⟩

/-- Tensors of the shapes that `CudnnRNNParamsToCanonicalKernel` reports. -/
def Canonical (tensors : List (Value α)) : Prop :=
  List.Forall₂ (fun dims tensor => tensor.shape = dims.map Int.toNat ∧
    tensor.values.length = tensor.shape.numElements) c.dims tensors

/-- The first op gives exactly the tensors for the parameters. -/
def Splits (params : List α) (tensors : List (Value α)) : Prop :=
  ∃ copies, (c.ofParams params).paramsToCanonical = .ok copies ∧
    copies.map (fun copy => copy.read c.elementSize params) =
      tensors.map fun tensor => (tensor.shape, tensor.values.map some)

def Joins [Zero α] (tensors : List (Value α)) (params : List α) : Prop :=
  (c.ofCanonical tensors).canonicalToParams = .ok (params.map some)

def Inverse (α : Type) [Zero α] : Prop :=
  (∀ tensors : List (Value α), c.Canonical tensors →
      ∃ params, c.Joins tensors params ∧ c.Splits params tensors) ∧
    ∀ params : List α, params.length = (c.dims.map elements).sum →
      ∃ tensors, c.Splits params tensors ∧ c.Joins tensors params

variable {c}

theorem nonzero : c.numLayers.value ≠ 0 := by
  have := c.someLayers
  omega

theorem fits : -2 ^ 31 ≤ c.layers ∧ c.layers < 2 ^ 31 := by
  by_contra large
  have product : product32 c.numLayers.value (numDirs c.attr.direction) = .error .overflow :=
    if_neg large
  have checked := c.checked
  rw [checkCounts, weightsPerLayer_eq nonzero, ok_bind, product] at checked
  exact nomatch checked

theorem counts : c.Counts := by
  by_contra uncounted
  obtain ⟨message, err⟩ := (counts_spec nonzero fits).2 uncounted
  exact nomatch err.symm.trans c.checked

theorem positive : ∀ dims ∈ c.dims, ∀ dim ∈ dims, 0 < dim := by
  have units := c.someUnits
  have input := c.someInput
  have proj := c.proj
  have hidden : 0 < c.hNumUnits := by
    rw [hNumUnits]
    split <;> omega
  have tall : 0 < if c.attr.numProj = 0 then c.hNumUnits else c.cNumUnits := by
    rw [cNumUnits]
    split <;> omega
  have wide (layer index state : Int) : 0 < c.widthOf layer index state := by
    rw [widthOf]
    cases c.attr.direction with
    | unidirectional => simp only; split <;> omega
    | bidirectional => simp only; split_ifs <;> omega
  intro dims mem
  rcases mem_append.mp mem with weight | bias
  · obtain ⟨i, -, rfl⟩ := mem_map.mp weight
    rw [weightDims]
    split <;> simp [tall, wide]
  · rw [eq_of_mem_replicate bias]
    simpa using Int.lt_of_lt_of_le Int.zero_lt_one units

theorem fits_dims : ∀ dims ∈ c.dims, Fits dims := by
  intro dims mem
  refine ⟨positive dims mem, ?_⟩
  have below := (le_sum_of_mem (mem_map_of_mem mem)).trans_lt c.small
  rw [elements] at below
  omega

theorem read_copies {params : List α} {all : List (List Int)} {tensors : List (Value α)}
    (canonical : List.Forall₂ (fun dims tensor => tensor.shape = dims.map Int.toNat ∧
      tensor.values.length = tensor.shape.numElements) all tensors)
    (fits : ∀ dims ∈ all, Fits dims) (start : Nat)
    (rest : params.drop start = (tensors.map Value.values).flatten) :
    ((c.ofParams params).copies (start * c.elementSize) all).map
        (fun copy => copy.read c.elementSize params) =
      tensors.map fun tensor => (tensor.shape, tensor.values.map some) := by
  induction canonical generalizing start with
  | nil => rfl
  | @cons dims tensor all tensors first _ ih =>
    obtain ⟨shape, length⟩ := first
    rw [forall_mem_cons] at fits
    have some_ : 0 < c.elementSize := (ParamsCall.Sized.bounds (c := c.ofParams ([] : List α))
      ⟨c.type, by simp [ParamsCall.bytes, ofParams]⟩).1
    have count : tensor.values.length = elements dims := by
      rw [length, shape]
      exact (allocated_of_fits fits.1).2.1
    rw [map_cons, flatten_cons] at rest
    have next : start * c.elementSize + (c.ofParams params).bytesOf dims =
        (start + tensor.values.length) * c.elementSize := by
      rw [count, Nat.add_mul]
      rfl
    have later : params.drop (start + tensor.values.length) =
        (tensors.map Value.values).flatten := by
      rw [← drop_drop, rest, drop_left]
    rw [ParamsCall.copies, map_cons, map_cons, next, ih fits.2 _ later, List.cons.injEq]
    refine ⟨Prod.ext shape.symm ?_, rfl⟩
    have size : (c.ofParams params).bytesOf dims / c.elementSize = tensor.values.length := by
      rw [count]
      exact Nat.mul_div_cancel _ some_
    rw [Copy.read, size, Nat.mul_div_cancel _ some_]
    refine ext_getElem (by simp) fun k inside _ => ?_
    have below : k < tensor.values.length := by simpa using inside
    rw [getElem_map, getElem_range, ← getElem?_drop, rest,
      getElem?_append_left below, getElem?_eq_getElem below, getElem_map]

theorem outputSize_eq {tensors : List (Value α)} (canonical : c.Canonical tensors) :
    (c.ofCanonical tensors).outputSize = (c.dims.map elements).sum ∧
      (c.ofCanonical tensors).Sized ∧ ∀ tensor ∈ tensors, tensor.shape.numElements ≠ 0 := by
  have fits : ∀ dims ∈ c.dims, Fits dims := fits_dims
  rw [CanonicalCall.outputSize, CanonicalCall.Sized, ofCanonical]
  rw [Canonical] at canonical
  generalize c.dims = all at canonical fits
  induction canonical with
  | nil => exact ⟨rfl, nofun, nofun⟩
  | @cons dims tensor all tensors first _ ih =>
    obtain ⟨shape, length⟩ := first
    rw [forall_mem_cons] at fits
    obtain ⟨-, count, some_⟩ := allocated_of_fits fits.1
    obtain ⟨total, sized, others⟩ := ih fits.2
    rw [← shape] at count
    rw [map_cons, sum_cons, map_cons, sum_cons, total, count]
    refine ⟨rfl, forall_mem_cons.mpr ⟨length, sized⟩, forall_mem_cons.mpr ⟨?_, others⟩⟩
    rw [count]
    exact some_.ne'

theorem joins [Zero α] {tensors : List (Value α)} (canonical : c.Canonical tensors) :
    c.Joins tensors (c.ofCanonical tensors).flat := by
  obtain ⟨total, sized, others⟩ := outputSize_eq canonical
  have lt := c.small
  rw [← total] at lt
  rw [Joins, CanonicalCall.canonicalToParams_eq c.scalars nonzero (lt.trans (by decide))]
  cases skip : (c.ofCanonical tensors).isNoOp with
  | true =>
    rw [CanonicalCall.isNoOp, isNoOpKernel_iff] at skip
    have scalar {shape : TensorShape} (isScalar : shape.isScalar = true) :
        shape.numElements ≠ 0 := by
      rw [List.isEmpty_iff.mp isScalar]
      decide
    have empty : (c.ofCanonical tensors).outputSize = 0 := by
      rcases skip with ⟨shape, mem, zero⟩ | ⟨shape, mem, zero⟩
      · rcases mem_append.mp mem with host | device
        · simp only [mem_cons, not_mem_nil, or_false] at host
          rcases host with rfl | rfl | rfl
          · exact absurd zero (scalar c.scalars.1)
          · exact absurd zero (scalar c.scalars.2.1)
          · exact absurd zero (scalar c.scalars.2.2)
        · obtain ⟨tensor, inside, rfl⟩ := mem_map.mp device
          exact absurd zero (others tensor inside)
      · rw [mem_singleton.mp mem] at zero
        simpa [TensorShape.numElements] using zero
    have nothing : (c.ofCanonical tensors).flat = [] := by
      rw [← length_eq_zero_iff, CanonicalCall.length_flat sized, empty]
    rw [nothing, empty]
    rfl
  | false =>
    rw [CanonicalCall.kernel_eq sized (lt.trans (by decide))]
    rfl

theorem splits {tensors : List (Value α)} (canonical : c.Canonical tensors) :
    c.Splits (c.ofCanonical tensors).flat tensors := by
  obtain ⟨total, sized, -⟩ := outputSize_eq canonical
  have length := CanonicalCall.length_flat sized
  have below : (c.ofParams (c.ofCanonical tensors).flat).Sized := by
    have bounded : c.elementSize ≤ 8 := by
      have type := c.type
      simp only [mem_cons, not_mem_nil, or_false] at type
      omega
    have lt := c.small
    refine ⟨c.type, ?_⟩
    rw [ParamsCall.bytes, ofParams, length, total]
    exact (Nat.mul_le_mul lt.le bounded).trans_lt (by decide)
  have room : (c.ofParams (c.ofCanonical tensors).flat).Room := by
    refine ⟨fits_dims, ?_⟩
    rw [ofParams, length, total]
  have copied := ((ParamsCall.copyPieces_spec below (c.describes_pieces nonzero counts)
    (Nat.zero_le _)).1 ((ParamsCall.room_iff below).mp room)).1
  refine ⟨_, ?_, read_copies canonical fits_dims 0 rfl⟩
  rw [ParamsCall.paramsToCanonical, ofParams, c.scalars_spec.1 c.scalars, ok_bind,
    (counts_spec nonzero fits).1 counts, ok_bind]
  rw [zero_mul]
  exact copied

theorem exists_canonical {params : List α} (length : params.length = (c.dims.map elements).sum) :
    ∃ tensors, c.Canonical tensors ∧ (c.ofCanonical tensors).flat = params := by
  have fits : ∀ dims ∈ c.dims, Fits dims := fits_dims
  simp only [Canonical, CanonicalCall.flat, ofCanonical]
  generalize c.dims = all at length fits
  induction all generalizing params with
  | nil => exact ⟨[], .nil, (length_eq_zero_iff.mp length).symm⟩
  | cons dims all ih =>
    rw [forall_mem_cons] at fits
    rw [map_cons, sum_cons] at length
    have rest : (params.drop (elements dims)).length = (all.map elements).sum := by
      rw [length_drop]
      omega
    obtain ⟨tensors, canonical, flat⟩ := ih rest fits.2
    refine ⟨⟨dims.map Int.toNat, params.take (elements dims)⟩ :: tensors,
      .cons ⟨rfl, ?_⟩ canonical, ?_⟩
    · rw [(allocated_of_fits fits.1).2.1, length_take]
      omega
    · rw [map_cons, flatten_cons, flat, take_append_drop]

end RoundTrip

end TfDml.CudnnRnn
