import TfDml.Core.WindowSums
import TfDml.Kernels.Conv2DDimension
import TfDml.Kernels.SimplifySlice

/-! # The dimensions of a 3-D convolution

The attributes that `Conv3D` and its gradients share, and what `Conv3D` checks of the shapes of its
inputs.
-/

namespace TfDml.Conv3D

open Optimizer.Remapper (formatFromString)
open StridedSlice (u32)
open Stop

/-- A value for each of the dimensions `z`, `y` and `x`. -/
structure Spatial (α : Type) where
  d : α
  h : α
  w : α
  deriving DecidableEq

inductive SpatialAxis where
  | d
  | h
  | w

namespace Spatial

variable {α β : Type}

def get (s : Spatial α) : SpatialAxis → α
  | .d => s.d
  | .h => s.h
  | .w => s.w

def map (f : α → β) (s : Spatial α) : Spatial β := ⟨f s.d, f s.h, f s.w⟩

def All (p : α → Prop) (s : Spatial α) : Prop := p s.d ∧ p s.h ∧ p s.w

instance (p : α → Prop) [DecidablePred p] (s : Spatial α) : Decidable (s.All p) :=
  inferInstanceAs (Decidable (_ ∧ _ ∧ _))

/-- The loop over the three dimensions, which ends with the first that fails. -/
def forDims (f : α → Except Stop β) (s : Spatial α) : Except Stop (Spatial β) := do
  let d ← f s.d
  let h ← f s.h
  let w ← f s.w
  .ok ⟨d, h, w⟩

@[simp] theorem get_map (f : α → β) (s : Spatial α) (axis : SpatialAxis) :
    (s.map f).get axis = f (s.get axis) := by
  cases axis with
  | d | h | w => rfl

end Spatial

theorem Spatial.exists_forDims {α β : Type} {f : α → Except Stop β} {s : Spatial α} :
    (∃ result, s.forDims f = .ok result) ↔ s.All fun a => ∃ b, f a = .ok b := by
  simp only [Spatial.forDims, Spatial.All, bind_eq_ok]
  constructor
  · rintro ⟨-, d, isD, h, isH, w, isW, -⟩
    exact ⟨⟨d, isD⟩, ⟨h, isH⟩, ⟨w, isW⟩⟩
  · rintro ⟨⟨d, isD⟩, ⟨h, isH⟩, ⟨w, isW⟩⟩
    exact ⟨_, d, isD, h, isH, w, isW, rfl⟩

theorem Spatial.forDims_get {α β : Type} {f : α → Except Stop β} {s : Spatial α}
    {result : Spatial β} (ret : s.forDims f = .ok result) (axis : SpatialAxis) :
    f (s.get axis) = .ok (result.get axis) := by
  simp only [Spatial.forDims, bind_eq_ok] at ret
  obtain ⟨d, isD, h, isH, w, isW, ⟨⟩⟩ := ret
  cases axis with
  | d => exact isD
  | h => exact isH
  | w => exact isW

theorem Spatial.orderly_forDims {α β : Type} {f : α → Except Stop β} {s : Spatial α}
    (each : s.All fun a => Stop.Orderly (f a)) : Stop.Orderly (s.forDims f) :=
  orderly_bind each.1 fun _ _ => orderly_bind each.2.1 fun _ _ =>
    orderly_bind each.2.2 fun _ _ => orderly_ok

structure DimIndices3 where
  n : Nat
  c : Nat
  spatial : Spatial Nat

def getTensorDimIndices3 : TensorFormat → DimIndices3
  | .nhwc => ⟨0, 4, 1, 2, 3⟩
  -- a format with a vector dimension is looked up as one with two spatial dimensions
  | .nhwcVectW => ⟨0, 3, 1, 2, 3⟩
  | .nchw | .nchwVectC => ⟨0, 1, 2, 3, 4⟩
  | .hwnc => ⟨3, 4, 0, 1, 2⟩
  | .hwcn => ⟨4, 3, 0, 1, 2⟩

/-- The attributes of an op; the first gradient ops have no `data_format`. -/
structure Conv3DNode where
  dataFormat : Option String
  strides : List Int
  dilations : List Int
  padding : Padding

structure Conv3DAttributes where
  dataFormat : TensorFormat
  padding : Padding
  strides : Spatial Int
  dilations : Spatial Int

def nodeFormat (dataFormat : Option String) : Except Status TensorFormat :=
  match dataFormat with
  | none => .ok .nhwc
  | some format =>
    match formatFromString format with
    | none => .error (.invalidArgument "Invalid data format")
    | some dataFormat => .ok dataFormat

def conv3DAttributes (node : Conv3DNode) : Except Status Conv3DAttributes := do
  let dataFormat ← nodeFormat node.dataFormat
  let indices := getTensorDimIndices3 dataFormat
  opRequires (node.strides.length = 5)
    (.invalidArgument "Sliding window strides field must specify 5 dimensions")
  let strides := indices.spatial.map fun index => node.strides.getD index 0
  opRequires (node.strides.getD indices.n 0 = 1 && node.strides.getD indices.c 0 = 1)
    (.invalidArgument ("Current implementation does not yet support strides in the batch and " ++
      "depth dimensions."))
  opRequires (strides.All (0 < ·))
    (.invalidArgument "Spatial strides should be larger than 0.")
  opRequires (node.dilations.length = 5)
    (.invalidArgument "Dilation rates field must specify 5 dimensions")
  let dilations := indices.spatial.map fun index => node.dilations.getD index 0
  opRequires (node.dilations.getD indices.n 0 = 1 && node.dilations.getD indices.c 0 = 1)
    (.invalidArgument ("Current implementation does not yet support dilation rates in the batch " ++
      "and depth dimensions."))
  opRequires (dilations.All (0 < ·))
    (.invalidArgument "Dilated rates should be larger than 0.")
  .ok ⟨dataFormat, node.padding, strides, dilations⟩

structure Window where
  inputSize : Int
  filterSize : Int
  dilationRate : Int
  stride : Int

def getWindowedOutputSizeV2 (paddingType : Padding) (window : Window) : Except Stop (Int × Int) :=
  if paddingType = .explicit then
    .error (.status (.internal ("GetWindowedOutputSizeV2 does not handle EXPLICIT padding; call " ++
      "GetWindowedOutputSizeVerboseV2 instead")))
  else do
    -- what the padding variables of the caller hold is not read
    let windowed ← Stop.windowed window.inputSize window.filterSize window.dilationRate
      window.stride paddingType 0 0
    .ok (windowed.outputSize, windowed.paddingBefore)

theorem exists_getWindowedOutputSizeV2 {paddingType : Padding} {window : Window} :
    (∃ sizes, getWindowedOutputSizeV2 paddingType window = .ok sizes) ↔
      paddingType ≠ .explicit ∧ 0 < window.stride ∧ 1 ≤ window.dilationRate ∧
        WindowFits window.inputSize window.filterSize window.dilationRate window.stride paddingType
          0 0 ∧
        0 ≤ (windowedOutput window.inputSize window.filterSize window.dilationRate window.stride
          paddingType 0 0).outputSize := by
  unfold getWindowedOutputSizeV2
  split
  · rename_i explicit
    simp [explicit]
  · rename_i other
    rw [← exists_windowed]
    simp only [bind_eq_ok, ne_eq, other, not_false_eq_true, true_and]
    constructor
    · rintro ⟨-, win, isWindowed, -⟩
      exact ⟨win, isWindowed⟩
    · rintro ⟨win, isWindowed⟩
      exact ⟨_, win, isWindowed, rfl⟩

theorem orderly_getWindowedOutputSizeV2 {paddingType : Padding} {window : Window}
    (fits : WindowFits window.inputSize window.filterSize window.dilationRate window.stride
      paddingType 0 0) : Stop.Orderly (getWindowedOutputSizeV2 paddingType window) := by
  unfold getWindowedOutputSizeV2
  split
  · exact orderly_error
  · exact orderly_bind (orderly_windowed fun _ _ => fits) fun _ _ => orderly_ok

def get3dOutputSizeV2 (paddingType : Padding) (windows : Spatial Window) :
    Except Stop (Spatial (Int × Int)) :=
  windows.forDims (getWindowedOutputSizeV2 paddingType)

/-- What `Conv3DInitHelper` keeps of a call, in 32 bits. -/
structure Conv3DDimensions where
  batchSize : Nat
  inChannels : Nat
  inSizes : Spatial Nat
  filterChannels : Nat
  filterSizes : Spatial Nat
  outChannels : Nat
  outSizes : Spatial Nat
  strides : Spatial Nat
  dilations : Spatial Nat
  startPadding : Spatial Nat
  endPadding : Spatial Nat
  outPadding : Spatial Nat
  deriving DecidableEq

/-- The sizes of the spatial dimensions of the input, and of the filter. -/
def inputSizes (format : TensorFormat) (input : TensorShape) : Spatial Nat :=
  (getTensorDimIndices3 format).spatial.map fun index => input.getD index 0

def filterSizes (filter : TensorShape) : Spatial Nat :=
  ⟨filter.getD 0 0, filter.getD 1 0, filter.getD 2 0⟩

def windows (attr : Conv3DAttributes) (input filter : TensorShape) : Spatial Window :=
  let inputs := inputSizes attr.dataFormat input
  let filters := filterSizes filter
  ⟨⟨inputs.d, filters.d, attr.dilations.d, attr.strides.d⟩,
    ⟨inputs.h, filters.h, attr.dilations.h, attr.strides.h⟩,
    ⟨inputs.w, filters.w, attr.dilations.w, attr.strides.w⟩⟩

/-- The checks of `Conv3DInitHelper` on the two shapes. -/
def checkConv3DShapes (attr : Conv3DAttributes) (input filter : TensorShape) :
    Except Stop Unit := do
  require (input.length = 5) (.invalidArgument "input must be 5-dimensional")
  require (filter.length = 5) (.invalidArgument "filter must be 5-dimensional")
  let inChannels := input.getD (getTensorDimIndices3 attr.dataFormat).c 0
  let filterChannels := filter.getD 3 0
  require (filter.getD 0 0 ≠ 0) (.invalidArgument "filter_depth must be non-zero")
  let rest ← remainder inChannels filterChannels
  require (rest = 0)
    (.invalidArgument ("Input depth must be evenly divisible by filter depth: " ++
      toString inChannels ++ " vs " ++ toString filterChannels))
  require (0 < filter.numElements)
    (.invalidArgument ("filter must not have zero elements (i.e. all dimensions must be " ++
      "non-zero)"))

/-- `Conv3DInitHelper`. -/
def conv3DDimensions (attr : Conv3DAttributes) (input filter : TensorShape) :
    Except Stop Conv3DDimensions := do
  checkConv3DShapes attr input filter
  let sizes ← get3dOutputSizeV2 attr.padding (windows attr input filter)
  .ok {
    batchSize := u32 (input.getD (getTensorDimIndices3 attr.dataFormat).n 0 : Nat)
    inChannels := u32 (input.getD (getTensorDimIndices3 attr.dataFormat).c 0 : Nat)
    inSizes := (inputSizes attr.dataFormat input).map fun size : Nat => u32 size
    filterChannels := u32 (filter.getD 3 0 : Nat)
    filterSizes := (filterSizes filter).map fun size : Nat => u32 size
    outChannels := u32 (filter.getD 4 0 : Nat)
    outSizes := sizes.map fun size => u32 size.1
    strides := attr.strides.map u32
    dilations := attr.dilations.map u32
    startPadding := sizes.map fun size => u32 size.2
    -- the paddings after the dimensions are not computed
    endPadding := ⟨0, 0, 0⟩
    outPadding := ⟨0, 0, 0⟩ }

end TfDml.Conv3D
