import TfDml.Core.DmlConvolution

/-! # Operators on shapes that are broadcast

What an operator reads through a descriptor that is made of two shapes, and what it writes to the
tensor of an output shape. The reduction operator sums over some of DirectML's dimensions.
-/

namespace TfDml.DmlTensorDesc

/-- `DmlTensorDesc::Create` of two shapes. -/
def createShape (helper : BufferTensorSize) (dataType : DataType)
    (shape nonBroadcastShape : TensorShape) : Option Buffer := do
  let dimensions ← narrowTensorShape shape
  let nonBroadcastDimensions ← narrowTensorShape nonBroadcastShape
  createSpan helper dataType dimensions nonBroadcastDimensions true

end TfDml.DmlTensorDesc

namespace TfDml.DmlGraph

open Lib Option
open DmlTensorDesc (BufferTensorSize address createShape createSpan lastElement maxDimensionCount
  narrowTensorShape_eq_some)

namespace Expression

def ofShape {α : Type} (helper : BufferTensorSize) (dataType : DataType)
    (shape nonBroadcastShape : TensorShape) (values : List α) : Option (Expression α) := do
  let buffer ← createShape helper dataType shape nonBroadcastShape
  return ⟨buffer.desc.sizes, some buffer.desc.strides, values.map some⟩

def shapeSizes (shape : TensorShape) : List Nat :=
  List.replicate (DmlTensorDesc.kNchwDimensionCount - shape.length) 1 ++ shape

section Create

variable (view : BroadcastView) (helper : BufferTensorSize) {dataType : DataType}
  {dmlDataType : DmlDataType}

theorem createShape_eq (narrow : ∀ dim ∈ view.nonBroadcast, dim < 2 ^ 32) :
    createShape helper dataType view.dimensions view.nonBroadcast =
      createSpan helper dataType view.dimensions view.nonBroadcast true := by
  rw [createShape, narrowTensorShape_eq_some.mpr ⟨view.narrow, rfl⟩,
    narrowTensorShape_eq_some.mpr ⟨narrow, rfl⟩]
  rfl

theorem exists_createShape (known : getDmlDataTypeFromTfDataType dataType = some dmlDataType)
    (narrow : ∀ dim ∈ view.nonBroadcast, dim < 2 ^ 32)
    (rank : view.dimensions.length ≤ maxDimensionCount) :
    ∃ buffer, createShape helper dataType view.dimensions view.nonBroadcast = some buffer ∧
      view.Addresses dmlDataType.sizeInBytes (BroadcastView.leadingIndex true) buffer ∧
      buffer.desc.sizes = shapeSizes view.dimensions ∧
      buffer.desc.strides.length = buffer.desc.sizes.length := by
  obtain ⟨buffer, new, addresses⟩ := view.createSpan_addresses helper known rank true
  refine ⟨buffer, (createShape_eq view helper narrow).trans new, addresses, ?_⟩
  simp only [createSpan, view.computeStrides_eq, bind_eq_bind, bind_some, known] at new
  rw [if_pos ⟨view.fits, rank⟩, DmlTensorDesc.construct, ite_none_right_eq_some] at new
  rw [← some.inj new.2]
  exact ⟨rfl, new.1.2⟩

theorem broadcasts_of_createShape
    (known : getDmlDataTypeFromTfDataType dataType = some dmlDataType)
    {shape physical : TensorShape} {buffer : DmlTensorDesc.Buffer}
    (new : createShape helper dataType shape physical = some buffer) :
    broadcast physical shape = some shape := by
  simp only [createShape, bind_eq_bind, bind_eq_some_iff, narrowTensorShape_eq_some] at new
  obtain ⟨_, ⟨narrow, rfl⟩, _, ⟨narrow', rfl⟩, new⟩ := new
  have made := DmlTensorDesc.map_createSpan helper known narrow narrow'
  rw [new, map_some] at made
  obtain ⟨-, fits, stretches, -⟩ := DmlTensorDesc.create_eq_some.mp made.symm
  exact broadcast_eq_right_iff.mpr ⟨fits, stretches⟩

end Create

structure Packed (shape : TensorShape) : Prop where
  rank : shape.length ≤ maxDimensionCount
  positive : ∀ size ∈ shape, 0 < size
  small : shape.prod < 2 ^ 32

namespace Packed

variable {shape : TensorShape} (packed : Packed shape)

include packed

theorem prod_pos : 0 < shape.prod :=
  Nat.pos_of_ne_zero fun zero => (packed.positive 0 (List.prod_eq_zero_iff.mp zero)).ne' rfl

theorem narrow : ∀ size ∈ shape, size < 2 ^ 32 := fun _ mem =>
  (Nat.le_of_dvd packed.prod_pos (List.dvd_prod mem)).trans_lt packed.small

def view {physical : TensorShape} (broadcasts : broadcast physical shape = some shape) :
    BroadcastView where
  dimensions := shape
  nonBroadcast := physical
  narrow := packed.narrow
  broadcasts := broadcasts
  small := by
    have stretches := (broadcast_eq_right_iff.mp broadcasts).2
    have smaller := prod_le_of_stretches stretches packed.positive
    rw [prod_aligned] at smaller
    exact smaller.trans_lt packed.small

theorem ofShape_eq_some {physical : TensorShape}
    (broadcasts : broadcast physical shape = some shape) (helper : BufferTensorSize)
    {dataType : DataType} {dmlDataType : DmlDataType}
    (known : getDmlDataTypeFromTfDataType dataType = some dmlDataType) {α : Type}
    (values : List α) :
    ∃ t, ofShape helper dataType shape physical values = some t ∧ t.sizes = shapeSizes shape ∧
      ∀ index ∈ indices shape, t.read (BroadcastView.leadingIndex true index) =
        values[flatten physical (broadcastIndex physical index)]? := by
  have narrow : ∀ dim ∈ physical, dim < 2 ^ 32 := fun dim mem =>
    (broadcast_eq_right_iff.mp broadcasts).2.forall_lt (by decide) packed.narrow dim
      (List.mem_append_right _ mem)
  obtain ⟨buffer, new, addresses, sizes, -⟩ :=
    exists_createShape (packed.view broadcasts) helper known narrow packed.rank
  have new : createShape helper dataType shape physical = some buffer := new
  refine ⟨_, by rw [ofShape, new]; rfl, sizes, fun index mem => ?_⟩
  rw [read_values, addresses.address index mem]
  rfl

end Packed

theorem exists_stored {shape : TensorShape} (packed : Packed shape) (helper : BufferTensorSize)
    {dataType : DataType} {dmlDataType : DmlDataType}
    (known : getDmlDataTypeFromTfDataType dataType = some dmlDataType) :
    ∃ buffer, createShape helper dataType shape shape = some buffer ∧
      buffer.desc.sizes = shapeSizes shape ∧
      ∀ {α : Type} (f : List Nat → Option α), (stored buffer.desc f).buffer =
        (indices shape).map fun index => f (BroadcastView.leadingIndex true index) := by
  let view := packed.view (broadcast_self shape)
  obtain ⟨buffer, created, addresses, sizes, length⟩ :=
    exists_createShape view helper known packed.narrow packed.rank
  have source (index : List Nat) (mem : index ∈ indices shape) :
      address buffer.desc.strides (BroadcastView.leadingIndex true index) =
        flatten shape index := by
    rw [addresses.address index mem, BroadcastView.source]
    exact congrArg (flatten shape) (broadcastIndex_of_mem mem)
  have last := lastElement_of_addresses packed.prod_pos addresses.indices source length
  exact ⟨buffer, created, sizes, fun f => buffer_stored addresses.indices source last f⟩

def elementWise₂ {α β γ : Type} (f : α → β → γ) (a : Expression α) (b : Expression β)
    (output : DmlTensorDesc) : Option (Expression γ) := do
  let result ← map₂ f a b
  if output.sizes = result.sizes then some (stored output result.read) else none

theorem leadingIndex_mem {shape index : List Nat} (mem : index ∈ indices shape) :
    BroadcastView.leadingIndex true index ∈ indices (shapeSizes shape) := by
  rw [shapeSizes, indices_leading]
  refine List.mem_map.mpr ⟨index, mem, ?_⟩
  rw [BroadcastView.leadingIndex, length_of_mem_indices mem]
  rfl

theorem elementWise₂_eq_some {α β γ : Type} {f : α → β → γ} {a : Expression α} {b : Expression β}
    {shape : TensorShape} {output : DmlTensorDesc} (left : a.sizes = shapeSizes shape)
    (right : b.sizes = shapeSizes shape) (sized : output.sizes = shapeSizes shape)
    (put : ∀ g : List Nat → Option γ, (stored output g).buffer =
      (indices shape).map fun index => g (BroadcastView.leadingIndex true index)) :
    ∃ t, elementWise₂ f a b output = some t ∧ t.buffer = (indices shape).map fun index =>
      (a.read (BroadcastView.leadingIndex true index)).bind fun x =>
        (b.read (BroadcastView.leadingIndex true index)).map (f x) := by
  obtain ⟨t, made, sizes, reads⟩ := map₂_eq_some (f := f) (left.trans right.symm)
  refine ⟨stored output t.read, ?_, ?_⟩
  · rw [elementWise₂, made, bind_eq_bind, bind_some, if_pos (sized.trans (sizes.trans left).symm)]
  · rw [put]
    refine List.map_congr_left fun index mem => ?_
    rw [reads _ (left ▸ leadingIndex_mem mem)]

def setAxes (axes : List Nat) (value : Nat) (entries : List Nat) : List Nat :=
  entries.zipIdx.map fun entry => if entry.2 ∈ axes then value else entry.1

/-- `DML_REDUCE_FUNCTION_SUM` -/
def reduceSums {R : Type} [AddMonoid R] (t : Expression R) (axes : List Nat)
    (output : DmlTensorDesc) : Option (Expression R) :=
  if output.sizes = setAxes axes 1 t.sizes then
    some (stored output fun index => do
      let terms ← ((indices t.sizes).filter fun source => setAxes axes 0 source = index).mapM t.read
      return terms.sum)
  else none

end Expression

end TfDml.DmlGraph
