import TfDml.Core.DmlGraph
import TfDml.Lib.Correlation

/-! # Convolutions of a graph

What `dml::Join` and the convolution operator compute, between tensors that a layout describes.
-/

namespace TfDml.DmlGraph

open Lib
open List hiding flatten
open DmlTensorDesc (BufferTensorSize address createLayout dmlDimensionCountOf lastElement
  layoutPlaces)
open BroadcastView

/-- `DML_CONVOLUTION_OPERATOR_DESC`: a cross-correlation in the forward direction, without a bias
    and without an activation. -/
structure Convolution where
  strides : List Nat
  dilations : List Nat
  startPadding : List Nat
  endPadding : List Nat
  groupCount : Nat

def Convolution.sweeps (desc : Convolution) : List Sweep :=
  (desc.strides.zip (desc.dilations.zip desc.startPadding)).map fun entry =>
    ⟨entry.1, entry.2.1, entry.2.2⟩

namespace Expression

variable {α : Type}

def readJoined (axis : Nat) : List (Expression α) → List Nat → Option α
  | [], _ => none
  | t :: rest, index =>
    let size := t.sizes.getD axis 0
    if index.getD axis 0 < size then t.read index
    else readJoined axis rest (index.set axis (index.getD axis 0 - size))

def join (parts : List (Expression α)) (axis : Nat) : Option (Expression α) :=
  match parts with
  | [] => none
  | first :: _ =>
    if ∀ t ∈ parts, t.sizes.set axis 0 = first.sizes.set axis 0 then
      some (ofIndices (first.sizes.set axis (parts.map fun t => t.sizes.getD axis 0).sum)
        (readJoined axis parts))
    else none

theorem readJoined_slices {parts : List (Expression α)} {rest : List Nat}
    (slices : ∀ t ∈ parts, t.sizes = 1 :: rest) (k : Nat) (index : List Nat) :
    readJoined 0 parts (k :: index) = parts[k]?.bind fun t => t.read (0 :: index) := by
  induction parts generalizing k with
  | nil => rfl
  | cons t parts ih =>
    rw [forall_mem_cons] at slices
    have size : t.sizes.getD 0 0 = 1 := by rw [slices.1, getD_cons_zero]
    rw [readJoined, size]
    cases k with
    | zero => rfl
    | succ k =>
      rw [if_neg (by simp), getElem?_cons_succ]
      exact ih slices.2 k

theorem join_slices {parts : List (Expression α)} {rest : List Nat} (some_ : parts ≠ [])
    (slices : ∀ t ∈ parts, t.sizes = 1 :: rest) :
    join parts 0 = some (ofIndices (parts.length :: rest) (readJoined 0 parts)) := by
  cases parts with
  | nil => exact absurd rfl some_
  | cons first others =>
    have sizes := slices first mem_cons_self
    have same : ∀ t ∈ first :: others, t.sizes.set 0 0 = first.sizes.set 0 0 := by
      intro t mem
      rw [slices t mem, sizes]
    have total : ((first :: others).map fun t => t.sizes.getD 0 0).sum =
        (first :: others).length := by
      have ones : ((first :: others).map fun t => t.sizes.getD 0 0) =
          (first :: others).map fun _ => 1 := by
        refine map_congr_left fun t mem => ?_
        rw [slices t mem, getD_cons_zero]
      rw [ones, map_const', sum_replicate_nat, mul_one]
    rw [join, if_pos same, total, sizes, set_cons_zero]

/-- An input of the graph, whose descriptor is made with a layout. -/
def ofLayout (helper : BufferTensorSize) (dataType : DataType) (shape : List Nat)
    (tensorLayout : DmlTensorLayout) (values : List α) : Option (Expression α) := do
  let buffer ← createLayout helper dataType shape shape tensorLayout
  return ⟨buffer.desc.sizes, some buffer.desc.strides, values.map some⟩

/-- An output of the graph: each element is stored at the address of its index. -/
def stored (desc : DmlTensorDesc) (f : List Nat → Option α) : Expression α where
  sizes := desc.sizes
  strides := some desc.strides
  buffer := (List.range (lastElement desc.sizes desc.strides + 1)).map fun a =>
    ((indices desc.sizes).find? fun index => address desc.strides index = a).bind f

section Stored

variable {desc : DmlTensorDesc} {shape : List Nat} {toDml : List Nat → List Nat}

theorem lastElement_of_addresses (some_ : 0 < shape.prod)
    (moved : ∀ index', index' ∈ indices desc.sizes ↔ ∃ index ∈ indices shape, toDml index = index')
    (addresses : ∀ index ∈ indices shape, address desc.strides (toDml index) = flatten shape index)
    (length : desc.strides.length = desc.sizes.length) :
    lastElement desc.sizes desc.strides + 1 = shape.prod := by
  have inside : shape.prod - 1 < (indices shape).length := by
    rw [length_indices]
    omega
  have mem := getElem_mem inside
  have member' := (moved _).mpr ⟨_, mem, rfl⟩
  have positive : ∀ size ∈ desc.sizes, 0 < size := by
    intro size named
    obtain ⟨d, below, rfl⟩ := getElem_of_mem named
    have length := length_of_mem_indices member'
    exact Nat.zero_lt_of_lt (getElem_lt_of_mem_indices member' below (by omega))
  have last : IsGreatest {a | ∃ index ∈ indices desc.sizes, address desc.strides index = a}
      (shape.prod - 1) := by
    refine ⟨⟨_, member', ?_⟩, ?_⟩
    · rw [addresses _ mem, flatten_getElem_indices inside]
    · rintro a ⟨index', other, rfl⟩
      obtain ⟨index, there, rfl⟩ := (moved index').mp other
      rw [addresses index there]
      exact Nat.le_sub_one_of_lt (flatten_lt there)
  rw [(DmlTensorDesc.isGreatest_lastElement length positive).unique last]
  omega

theorem buffer_stored {α : Type}
    (moved : ∀ index', index' ∈ indices desc.sizes ↔ ∃ index ∈ indices shape, toDml index = index')
    (addresses : ∀ index ∈ indices shape, address desc.strides (toDml index) = flatten shape index)
    (last : lastElement desc.sizes desc.strides + 1 = shape.prod) (f : List Nat → Option α) :
    (stored desc f).buffer = (indices shape).map fun index => f (toDml index) := by
  have each (index : List Nat) (mem : index ∈ indices shape) :
      ((indices desc.sizes).find? fun other =>
        address desc.strides other = flatten shape index) = some (toDml index) := by
    have inside := (moved _).mpr ⟨index, mem, rfl⟩
    cases found : (indices desc.sizes).find? fun other =>
        address desc.strides other = flatten shape index with
    | none =>
      have missing := find?_eq_none.mp found _ inside
      simp [addresses index mem] at missing
    | some other =>
      have same : address desc.strides other = flatten shape index := by
        simpa using find?_some found
      obtain ⟨index', member', rfl⟩ := (moved other).mp (mem_of_find?_eq_some found)
      rw [addresses index' member'] at same
      rw [flatten_inj member' mem same]
  rw [stored, last, ← map_flatten_indices, List.map_map]
  refine map_congr_left fun index mem => ?_
  rw [Function.comp_apply, each index mem, Option.bind_some]

end Stored

/-- A shape whose elements have 32-bit positions, and a layout that names each axis once. -/
structure Described (shape : List Nat) (tensorLayout : DmlTensorLayout) : Prop where
  distinct : tensorLayout.Nodup
  named : tensorLayout ≠ []
  whole : tensorLayout.length = shape.length
  rank : shape.length ≤ DmlTensorDesc.maxLayoutDimensionCount
  positive : ∀ size ∈ shape, 0 < size
  small : shape.prod < 2 ^ 32

namespace Described

variable {shape : List Nat} {tensorLayout : DmlTensorLayout}

def sizes (tensorLayout : DmlTensorLayout) (shape : List Nat) : List Nat :=
  Lib.place (List.replicate (dmlDimensionCountOf tensorLayout) 1) (layoutPlaces tensorLayout) shape

def view (described : Described shape tensorLayout) : BroadcastView where
  dimensions := shape
  nonBroadcast := shape
  narrow := fun size mem => by
    have below := Nat.le_of_dvd (Nat.pos_of_ne_zero fun zero =>
      (described.positive 0 (prod_eq_zero_iff.mp zero)).ne' rfl)
      (dvd_prod mem)
    exact lt_of_le_of_lt below described.small
  broadcasts := broadcast_self shape
  small := described.small

theorem prod_pos (described : Described shape tensorLayout) : 0 < shape.prod :=
  Nat.pos_of_ne_zero fun zero =>
    (described.positive 0 (prod_eq_zero_iff.mp zero)).ne' rfl

theorem source_view (described : Described shape tensorLayout) {index : List Nat}
    (mem : index ∈ indices shape) : described.view.source index = flatten shape index := by
  rw [BroadcastView.source, view, broadcastIndex_of_mem mem]

variable (helper : BufferTensorSize) {dataType : DataType} {dmlDataType : DmlDataType}

theorem exists_buffer (described : Described shape tensorLayout)
    (known : getDmlDataTypeFromTfDataType dataType = some dmlDataType) :
    ∃ buffer, createLayout helper dataType shape shape tensorLayout = some buffer ∧
      buffer.desc.sizes = sizes tensorLayout shape ∧ (∀ index', index' ∈ indices buffer.desc.sizes ↔
        ∃ index ∈ indices shape, layoutIndex tensorLayout index = index') ∧
      (∀ index ∈ indices shape, address buffer.desc.strides
        (layoutIndex tensorLayout index) = flatten shape index) ∧
      buffer.desc.strides.length = buffer.desc.sizes.length := by
  obtain ⟨buffer, created, addresses⟩ := described.view.createLayout_addresses helper known
    described.distinct described.rank described.named described.whole
  have src (index : List Nat) (mem : index ∈ indices shape) :
      address buffer.desc.strides (layoutIndex tensorLayout index) = flatten shape index := by
    rw [addresses.address index mem, described.source_view mem]
  have made : buffer.desc.sizes = sizes tensorLayout shape ∧
      buffer.desc.strides.length = buffer.desc.sizes.length := by
    have assigned := @DmlTensorDesc.foldlM_assignDimension_layout tensorLayout
      described.view.dimensions described.view.strides described.whole.symm
      (described.view.length_strides.trans described.whole.symm)
    simp only [createLayout, described.view.computeStrides_eq, Option.bind_eq_bind,
      Option.bind_some, known] at created
    rw [if_pos ⟨described.view.fits, described.rank, described.named, described.whole⟩] at created
    rw [assigned, Option.bind_some] at created
    rw [DmlTensorDesc.construct, Option.ite_none_right_eq_some] at created
    rw [← Option.some.inj created.2]
    exact ⟨rfl, created.1.2⟩
  exact ⟨buffer, created, made.1, addresses.indices, src, made.2⟩

theorem ofLayout_eq_some (described : Described shape tensorLayout) {α : Type}
    (known : getDmlDataTypeFromTfDataType dataType = some dmlDataType) (values : List α) :
    ∃ t, ofLayout helper dataType shape tensorLayout values = some t ∧
      t.sizes = sizes tensorLayout shape ∧ ∀ index ∈ indices shape,
        t.read (layoutIndex tensorLayout index) = values[flatten shape index]? := by
  obtain ⟨buffer, new, sized, -, addresses, -⟩ := described.exists_buffer helper known
  refine ⟨_, by rw [ofLayout, new]; rfl, sized, fun index mem => ?_⟩
  rw [read_values, addresses index mem]

end Described

section Convolution

variable {R : Type} [CommSemiring R]

def readTap (t : Expression R) : Option (List Nat) → Option R
  | some index => t.read index
  | none => some 0

/-- The index in the input that a tap reads, for a batch and the channels of a group. -/
def tapSource (batch firstChannel : Nat) (inSizes : List Nat) (sweeps : List Sweep)
    (out : List Nat) : List Nat → Option (List Nat)
  | channel :: tap => (tapIndex inSizes sweeps out tap).map fun position =>
    batch :: (firstChannel + channel) :: position
  | [] => none

def window (input filter : Expression R) (channels : List Nat)
    (source : List Nat → Option (List Nat)) (outChannel : Nat) : Option R := do
  let terms ← (indices channels).mapM fun tap => do
    let x ← input.readTap (source tap)
    let y ← filter.read (outChannel :: tap)
    return x * y
  return terms.sum

/-- The convolution operator, if the channels of its tensors fit. -/
def convolution (desc : Convolution) (input filter : Expression R) (output : DmlTensorDesc) :
    Option (Expression R) :=
  match input.sizes, filter.sizes, output.sizes with
  | batch :: channels :: inSizes, filters :: groupChannels :: taps, outBatch :: outChannels :: _ =>
    if channels = desc.groupCount * groupChannels ∧ outBatch = batch ∧
        outChannels = filters ∧ desc.groupCount ∣ filters then
      some (stored output fun
        | n :: k :: out =>
          let group := k / (filters / desc.groupCount)
          window input filter (groupChannels :: taps)
            (tapSource n (group * groupChannels) inSizes desc.sweeps out) k
        | _ => none)
    else none
  | _, _, _ => none

theorem window_eq_some {input filter : Expression R} {channels : List Nat}
    {src : List Nat → Option (List Nat)} {outChannel : Nat} {x y : List Nat → R}
    (inputReads : ∀ tap ∈ indices channels, ∀ index, src tap = some index →
      input.read index = some (x index))
    (filterReads : ∀ tap ∈ indices channels, filter.read (outChannel :: tap) = some (y tap)) :
    window input filter channels src outChannel = some (tapSum (indices channels) src x y) := by
  have terms : (indices channels).mapM (fun tap => do
      let x ← input.readTap (src tap)
      let y ← filter.read (outChannel :: tap)
      return x * y) = some ((indices channels).map fun tap => (src tap).elim 0 x * y tap) := by
    refine mapM_eq_some fun tap mem => ?_
    rw [filterReads tap mem]
    cases read : src tap with
    | none => rfl
    | some index =>
      rw [readTap, inputReads tap mem index read]
      rfl
  rw [window, terms]
  rfl

end Convolution

end Expression

end TfDml.DmlGraph
