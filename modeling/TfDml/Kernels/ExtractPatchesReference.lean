import TfDml.Kernels.ExtractPatchesGather

/-! # The patches of an input

A window starts at every `stride`-th element of the padded dimension, and its elements are `rate`
apart. The patch at an output index has the elements of the windows there, in all dimensions, with
their channels.
-/

namespace TfDml.ExtractPatches

open Lib

/-- A spatial dimension of the input and its windows. The attributes are of 32 bits. -/
structure Window where
  size : Nat
  ksize : Nat
  stride : Nat
  rate : Nat
  ksize_pos : 1 ≤ ksize
  stride_pos : 1 ≤ stride
  rate_pos : 1 ≤ rate
  ksize_lt : ksize < 2 ^ 31
  stride_lt : stride < 2 ^ 31
  rate_lt : rate < 2 ^ 31

namespace Window

variable (w : Window)

def reach : Nat := (w.ksize - 1) * w.rate + 1

def count : Padding → Nat
  | .same => (w.size + w.stride - 1) / w.stride
  | _ => (w.size + w.stride - w.reach) / w.stride

def missing : Padding → Nat
  | .same => (w.count .same - 1) * w.stride + w.reach - w.size
  | _ => 0

def padDim (padding : Padding) : PadDim :=
  ⟨w.size, w.missing padding / 2, w.missing padding - w.missing padding / 2⟩

def paddedSize (padding : Padding) : Nat := (w.padDim padding).total

def position (o k : Nat) : Nat := o * w.stride + k * w.rate

theorem paddedSize_eq (padding : Padding) : w.paddedSize padding = w.size + w.missing padding := by
  rw [paddedSize, padDim, PadDim.total]
  simp only
  omega

theorem reach_pos : 1 ≤ w.reach := Nat.le_add_left 1 _

theorem last_le {padding : Padding} (some_ : 0 < w.count padding) :
    (w.count padding - 1) * w.stride + w.reach ≤ w.paddedSize padding := by
  rw [paddedSize_eq]
  have stride := w.stride_pos
  have valid (pos : 0 < (w.size + w.stride - w.reach) / w.stride) :
      ((w.size + w.stride - w.reach) / w.stride - 1) * w.stride + w.reach ≤ w.size := by
    have whole := Nat.div_mul_le_self (w.size + w.stride - w.reach) w.stride
    have one := Nat.le_mul_of_pos_left w.stride pos
    rw [Nat.sub_mul, one_mul]
    omega
  cases padding with
  | same =>
    simp only [missing]
    omega
  | valid => exact valid some_
  | explicit => exact valid some_

theorem position_lt {padding : Padding} {o k : Nat} (outer : o < w.count padding)
    (inner : k < w.ksize) : w.position o k < w.paddedSize padding := by
  have last := w.last_le (Nat.zero_lt_of_lt outer)
  have start : o * w.stride ≤ (w.count padding - 1) * w.stride := Nat.mul_le_mul_right _ (by omega)
  have further : k * w.rate ≤ (w.ksize - 1) * w.rate := Nat.mul_le_mul_right _ (by omega)
  rw [reach] at last
  rw [position]
  omega

theorem size_pos {padding : Padding} (some_ : 0 < w.count padding) : 0 < w.size := by
  have reach := w.reach_pos
  have stride := w.stride_pos
  have least {n : Nat} (pos : 0 < n / w.stride) : w.stride ≤ n := (Nat.div_pos_iff.mp pos).2
  cases padding with
  | same =>
    have enough := least some_
    omega
  | valid =>
    have enough := least some_
    omega
  | explicit =>
    have enough := least some_
    omega

end Window

/-- A call with attributes that are accepted, and with an input of the rank of the operator. -/
structure Call where
  op : Op
  padding : Padding
  batch : Nat
  windows : List Window
  depth : Nat
  implicit : padding ≠ .explicit
  rank : windows.length = op.spatialDims
  volume : op = .volume → ∀ w ∈ windows, w.rate = 1

/-- The position on each dimension, from the window and the element in each. -/
def spatial : List Window → List Nat → List Nat → List Nat
  | w :: windows, o :: os, k :: ks => w.position o k :: spatial windows os ks
  | _, _, _ => []

namespace Call

variable (call : Call)

/-- An attribute, with ones for the batch and the depth. -/
def vector (f : Window → Nat) : List Nat := [1] ++ call.windows.map f ++ [1]

def padDims : List PadDim :=
  [⟨call.batch, 0, 0⟩] ++ call.windows.map (·.padDim call.padding) ++ [⟨call.depth, 0, 0⟩]

def input : TensorShape := call.padDims.map PadDim.size

def toArguments : Arguments where
  op := call.op
  ksizes := (call.vector Window.ksize).map Int.ofNat
  strides := (call.vector Window.stride).map Int.ofNat
  rates := (call.vector Window.rate).map Int.ofNat
  padding := call.padding
  input := call.input

def counts : List Nat := call.windows.map (·.count call.padding)

def ksizes : List Nat := call.windows.map Window.ksize

def outputShape : TensorShape := [call.batch] ++ call.counts ++ [call.ksizes.prod * call.depth]

def paddedSpatial : Nat := (call.windows.map (·.paddedSize call.padding)).prod

/-- The output has elements, and fewer than 2^32. -/
def Due : Prop := 0 < call.outputShape.prod ∧ call.outputShape.prod < 2 ^ 32

def source (b : Nat) (os ks : List Nat) (c : Nat) : List Nat :=
  [b] ++ spatial call.windows os ks ++ [c]

def target (b : Nat) (os ks : List Nat) (c : Nat) : List Nat :=
  [b] ++ os ++ [flatten (call.ksizes ++ [call.depth]) (ks ++ [c])]

/-- The patches, as elements of the padded input. -/
structure Patches {α : Type} [Zero α] (values : List α) (result : List (Option α)) : Prop where
  length : result.length = call.outputShape.prod
  element : ∀ b < call.batch, ∀ os ∈ indices call.counts, ∀ ks ∈ indices call.ksizes,
    ∀ c < call.depth, result[flatten call.outputShape (call.target b os ks c)]? =
      (padded .constant call.padDims 0 values)[
        flatten (call.padDims.map PadDim.total) (call.source b os ks c)]?

end Call

def IndexesInside (input : TensorShape) (attr : Attributes) (init : Init) : Prop :=
  ∀ dims, DmlGraph.Expression.padDims input init.startPadding init.endPadding = some dims →
    ∀ row count, gatherIndices (patchAxes attr (init.outputShape.map Int.toNat)
        (dims.map PadDim.total)) = some (row, count) →
      ∀ entry ∈ row.buffer, ∃ k < (middle (dims.map PadDim.total)).prod, entry = some k

/-- The output has the shape and the elements of the patches, and the shortcut is taken only if they
    are the input. -/
structure Call.Correct (call : Call) (attr : Attributes) (init : Init) : Prop where
  constructs : construct call.toArguments = some (.ok (attr, init))
  shape : init.outputShape = call.outputShape.map Int.ofNat
  inside : IndexesInside call.input attr init
  shortcut : isIdentity attr.ksizes attr.strides = true →
    ∀ (α : Type) [Zero α] (values : List α), values.length = call.input.prod →
      call.Patches values (values.map some)
  extracts : ∀ (α : Type) [Zero α] (values : List α), values.length = call.input.prod →
    ∃ result, compute call.toArguments values = some (.ok result) ∧ call.Patches values result

end TfDml.ExtractPatches
