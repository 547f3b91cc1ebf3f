import TfDml.Core.OpKernelContext
import TfDml.Lib.Gather

/-! # Tensor descriptors

The sizes and the strides with which a buffer is addressed are 32-bit values. The strides of a
packed buffer are the row-major ones unless they wrap around, and then the end of the buffer
has no address.
-/

namespace TfDml

structure DmlTensorDesc where
  sizes : List Nat
  strides : List Nat
  deriving DecidableEq

namespace DmlTensorDesc

open Lib Option
open List hiding flatten

/-- `NarrowTensorShape`; without a result, a `CHECK` ends the process. -/
def narrowTensorShape (shape : TensorShape) : Option TensorShape :=
  if shape.all (· < 2 ^ 32) then some shape else none

/-- `ComputeStrides` and the `current_stride` that is left, for each dimension with its
    non-broadcast dimension. -/
def computeStrides : List (Nat × Nat) → Option (List Nat × Nat)
  | [] => some ([], 1)
  | (dimSize, nonBroadcastDimSize) :: rest => do
    let (strides, currentStride) ← computeStrides rest
    if dimSize ≠ nonBroadcastDimSize then
      -- Broadcasting is only valid if the non-broadcast dimension is 1.
      if nonBroadcastDimSize = 1 then some (0 :: strides, currentStride) else none
    else some (currentStride :: strides, currentStride * dimSize % 2 ^ 32)

def kNchwDimensionCount : Nat := 4

/-- `DML_TENSOR_DIMENSION_COUNT_MAX1` -/
def maxDimensionCount : Nat := 8

/-- `DmlTensorDesc::Create`, with leading dimensions up to four. -/
def create (shape nonBroadcastShape : TensorShape) : Option DmlTensorDesc := do
  let dimensions ← narrowTensorShape shape
  let nonBroadcastDimensions ← narrowTensorShape nonBroadcastShape
  let missing := dimensions.length - nonBroadcastDimensions.length
  if nonBroadcastDimensions.length ≤ dimensions.length ∧ dimensions.length ≤ maxDimensionCount then
    let (strides, _) ← computeStrides
      (dimensions.zip (replicate missing 1 ++ nonBroadcastDimensions))
    let leading := kNchwDimensionCount - dimensions.length
    some ⟨replicate leading 1 ++ dimensions, replicate leading 0 ++ strides⟩
  else none

/-- The dimensions that are left if irrelevant leading ones are ignored. -/
def trailing (desc : DmlTensorDesc) (count : Nat) : DmlTensorDesc :=
  ⟨desc.sizes.drop (desc.sizes.length - count), desc.strides.drop (desc.strides.length - count)⟩

def address (strides index : List Nat) : Nat := (zipWith (· * ·) index strides).sum

theorem address_cons (stride k : Nat) (strides index : List Nat) :
    address (stride :: strides) (k :: index) = k * stride + address strides index := rfl

/-- The strides of a packed buffer, in 32 bits. -/
def packedStrides : List Nat → List Nat
  | [] => []
  | _ :: rest => rest.prod % 2 ^ 32 :: packedStrides rest

theorem length_packedStrides (shape : TensorShape) :
    (packedStrides shape).length = shape.length := by
  induction shape with
  | nil => rfl
  | cons size rest ih => rw [packedStrides, length_cons, length_cons, ih]

theorem computeStrides_self (shape : TensorShape) :
    computeStrides (shape.zip shape) = some (packedStrides shape, shape.prod % 2 ^ 32) := by
  induction shape with
  | nil => rfl
  | cons size rest ih => simp [computeStrides, ih, packedStrides, Nat.mul_comm size]

structure Describable (shape : TensorShape) : Prop where
  rank : shape.length ≤ maxDimensionCount
  dims : ∀ dim ∈ shape, dim < 2 ^ 32

variable {shape : TensorShape}

theorem narrowTensorShape_eq_some {narrowed : TensorShape} :
    narrowTensorShape shape = some narrowed ↔ (∀ dim ∈ shape, dim < 2 ^ 32) ∧ narrowed = shape := by
  rw [narrowTensorShape, ite_none_right_eq_some, Option.some.injEq, List.all_eq_true,
    eq_comm (a := shape)]
  simp only [decide_eq_true_eq]

variable {desc : DmlTensorDesc}

theorem create_self_eq_some : create shape shape = some desc ↔ Describable shape ∧
      desc = ⟨replicate (kNchwDimensionCount - shape.length) 1 ++ shape,
        replicate (kNchwDimensionCount - shape.length) 0 ++ packedStrides shape⟩ := by
  simp only [create, bind_eq_bind, bind_eq_some_iff, narrowTensorShape_eq_some]
  constructor
  · rintro ⟨_, ⟨dims, rfl⟩, _, ⟨-, rfl⟩, built⟩
    rw [ite_none_right_eq_some] at built
    simp only [Nat.sub_self, replicate_zero, nil_append, computeStrides_self,
      bind_some, Option.some.injEq] at built
    exact ⟨⟨built.1.2, dims⟩, built.2.symm⟩
  · rintro ⟨describable, rfl⟩
    refine ⟨shape, ⟨describable.dims, rfl⟩, shape, ⟨describable.dims, rfl⟩, ?_⟩
    simp [computeStrides_self, describable.rank]

def broadcastStrides (shape : TensorShape) : List Nat :=
  shape.map fun dim => if dim = 1 then 1 else 0

theorem computeStrides_one (shape : TensorShape) :
    computeStrides (shape.zip (replicate shape.length 1)) = some (broadcastStrides shape, 1) := by
  induction shape with
  | nil => rfl
  | cons size rest ih =>
    rw [length_cons, replicate_succ, zip_cons_cons, computeStrides, ih]
    by_cases single : size = 1
    · simp [broadcastStrides, single]
    · simp [broadcastStrides, single]

theorem create_one_eq_some (some_ : shape ≠ []) : create shape [1] = some desc ↔ Describable shape ∧
      desc = ⟨replicate (kNchwDimensionCount - shape.length) 1 ++ shape,
        replicate (kNchwDimensionCount - shape.length) 0 ++ broadcastStrides shape⟩ := by
  have pos := length_pos_iff.mpr some_
  have ones : replicate (shape.length - 1) 1 ++ [1] = replicate shape.length 1 := by
    rw [← replicate_succ', Nat.sub_add_cancel pos]
  simp only [create, bind_eq_bind, bind_eq_some_iff, narrowTensorShape_eq_some]
  constructor
  · rintro ⟨_, ⟨dims, rfl⟩, _, ⟨-, rfl⟩, built⟩
    rw [ite_none_right_eq_some] at built
    simp only [length_singleton, ones, computeStrides_one, bind_some, Option.some.injEq] at built
    exact ⟨⟨built.1.2, dims⟩, built.2.symm⟩
  · rintro ⟨describable, rfl⟩
    refine ⟨shape, ⟨describable.dims, rfl⟩, [1], ⟨by decide, rfl⟩, ?_⟩
    simp [ones, computeStrides_one, describable.rank, Nat.succ_le_of_lt pos]

theorem create_ones_eq_some :
    create shape (replicate shape.length 1) = some desc ↔ Describable shape ∧
      desc = ⟨replicate (kNchwDimensionCount - shape.length) 1 ++ shape,
        replicate (kNchwDimensionCount - shape.length) 0 ++ broadcastStrides shape⟩ := by
  simp only [create, bind_eq_bind, bind_eq_some_iff, narrowTensorShape_eq_some]
  constructor
  · rintro ⟨_, ⟨dims, rfl⟩, _, ⟨-, rfl⟩, built⟩
    rw [ite_none_right_eq_some] at built
    simp only [length_replicate, Nat.sub_self, replicate_zero, nil_append,
      computeStrides_one, bind_some, Option.some.injEq] at built
    exact ⟨⟨built.1.2, dims⟩, built.2.symm⟩
  · rintro ⟨describable, rfl⟩
    have ones : ∀ dim ∈ replicate shape.length 1, dim < 2 ^ 32 := fun dim mem => by
      rw [eq_of_mem_replicate mem]
      decide
    refine ⟨shape, ⟨describable.dims, rfl⟩, _, ⟨ones, rfl⟩, ?_⟩
    simp [computeStrides_one, describable.rank]

variable {index : List Nat}

theorem address_broadcastStrides {shape : List Nat} (mem : index ∈ indices shape) :
    address (broadcastStrides shape) index = 0 := by
  rw [mem_indices] at mem
  induction mem with
  | nil => rfl
  | @cons k size index shape less inside ih =>
    rw [broadcastStrides, map_cons, address_cons, ← broadcastStrides, ih]
    by_cases single : size = 1
    · have first : k = 0 := by omega
      rw [first, Nat.zero_mul]
    · rw [if_neg single, Nat.mul_zero]

theorem trailing_leading {shape strides : List Nat} (length : strides.length = shape.length)
    (count : Nat) :
    trailing ⟨replicate count 1 ++ shape, replicate count 0 ++ strides⟩ shape.length =
      ⟨shape, strides⟩ := by
  have sizes : (replicate count 1 ++ shape).length - shape.length =
      (replicate count 1 : List Nat).length := by simp
  have steps : (replicate count 0 ++ strides).length - shape.length =
      (replicate count 0 : List Nat).length := by simp [length]
  rw [trailing, sizes, steps, drop_left, drop_left]

theorem address_leading (count : Nat) (strides index : List Nat) :
    address (replicate count 0 ++ strides) (replicate count 0 ++ index) =
      address strides index := by
  induction count with
  | zero => rfl
  | succ count ih =>
    rw [replicate_succ, cons_append, cons_append, address_cons, ih, Nat.mul_zero, Nat.zero_add]

def Addressed (shape : TensorShape) : Prop :=
  ∀ index ∈ indices shape, address (packedStrides shape) index = flatten shape index

theorem address_le_flatten {shape : List Nat} (mem : index ∈ indices shape) :
    address (packedStrides shape) index ≤ flatten shape index := by
  rw [mem_indices] at mem
  induction mem with
  | nil => exact Nat.le_refl _
  | cons less inside ih =>
    rw [packedStrides, address_cons, flatten]
    exact Nat.add_le_add (Nat.mul_le_mul_left _ (Nat.mod_le _ _)) ih

theorem address_lt {shape : List Nat} (mem : index ∈ indices shape) :
    address (packedStrides shape) index < shape.prod :=
  Nat.lt_of_le_of_lt (address_le_flatten mem) (flatten_lt mem)

theorem addressed_cons {size : Nat} {rest : List Nat} (addr : Addressed rest)
    (fits : size ≤ 1 ∨ rest.prod < 2 ^ 32) : Addressed (size :: rest) := by
  intro index mem
  obtain ⟨k, less, inner, lt, rfl⟩ := mem_indices_cons.mp mem
  have same : k * (rest.prod % 2 ^ 32) = k * rest.prod := by
    cases fits with
    | inl single =>
      obtain rfl : k = 0 := by omega
      rw [Nat.zero_mul, Nat.zero_mul]
    | inr small => rw [Nat.mod_eq_of_lt small]
  rw [packedStrides, address_cons, flatten, same, addr inner lt]

theorem addressed_of_lt (lt : shape.prod < 2 ^ 32) : Addressed shape := by
  induction shape with
  | nil =>
    intro index mem
    rw [mem_indices] at mem
    cases mem
    rfl
  | cons size rest ih =>
    rw [prod_cons] at lt
    cases Nat.eq_zero_or_pos size with
    | inl empty =>
      intro index mem
      simp [indices, empty] at mem
    | inr pos =>
      have inner := Nat.lt_of_le_of_lt (Nat.le_mul_of_pos_left rest.prod pos) lt
      exact addressed_cons (ih inner) (Or.inr inner)

theorem addressed_or_short (shape : TensorShape) : Addressed shape ∨
      ∀ index ∈ indices shape, address (packedStrides shape) index + 1 < shape.prod := by
  induction shape with
  | nil => exact Or.inl (addressed_of_lt (by decide))
  | cons size rest ih =>
    cases ih with
    | inr short =>
      refine Or.inr fun index mem => ?_
      obtain ⟨k, less, inner, inside, rfl⟩ := mem_indices_cons.mp mem
      have step : k * (rest.prod % 2 ^ 32) ≤ k * rest.prod := Nat.mul_le_mul_left _ (Nat.mod_le _ _)
      have rows : (k + 1) * rest.prod ≤ size * rest.prod := Nat.mul_le_mul_right _ less
      have below := short inner inside
      rw [Nat.succ_mul] at rows
      rw [packedStrides, address_cons, prod_cons]
      omega
    | inl addr =>
      by_cases fits : size ≤ 1 ∨ rest.prod < 2 ^ 32
      · exact Or.inl (addressed_cons addr fits)
      · push Not at fits
        refine Or.inr fun index mem => ?_
        obtain ⟨k, less, inner, inside, rfl⟩ := mem_indices_cons.mp mem
        have wraps : rest.prod % 2 ^ 32 < rest.prod :=
          Nat.lt_of_lt_of_le (Nat.mod_lt _ (by decide)) fits.2
        have rows : k * (rest.prod % 2 ^ 32) ≤ (size - 1) * (rest.prod % 2 ^ 32) :=
          Nat.mul_le_mul_right _ (by omega)
        have lost : (size - 1) * (rest.prod % 2 ^ 32) < (size - 1) * rest.prod :=
          Nat.mul_lt_mul_of_pos_left wraps (by omega)
        have whole : (size - 1) * rest.prod + rest.prod = size * rest.prod := by
          rw [← Nat.succ_mul]
          congr 1
          omega
        have below := flatten_lt inside
        rw [packedStrides, address_cons, addr inner inside, prod_cons]
        omega

theorem reads_gather_iff (ne : 0 < shape.prod) {code reference : List Nat → List Nat}
    (inside : ∀ index ∈ indices shape, code index ∈ indices shape)
    (stays : ∀ index ∈ indices shape, reference index ∈ indices shape)
    (onto : ∀ index ∈ indices shape, ∃ index' ∈ indices shape, reference index' = index) :
    (∀ values : List Nat, values.length = shape.prod → ((indices shape).map fun index =>
        values[address (packedStrides shape) (code index)]?) = gather shape reference values) ↔
      Addressed shape ∧ ∀ index ∈ indices shape, code index = reference index := by
  constructor
  · intro reads
    have last : shape.prod - 1 < (indices shape).length := by
      rw [length_indices]
      omega
    have positions : ∀ index ∈ indices shape,
        address (packedStrides shape) (code index) = flatten shape (reference index) := by
      intro index mem
      have same := map_inj_left.mp (reads (List.range shape.prod) length_range) index
        mem
      have below := address_lt (inside index mem)
      rw [getElem?_eq_getElem (by rwa [length_range]), getElem_range] at same
      obtain ⟨_, entry⟩ := List.getElem?_eq_some_iff.mp same.symm
      rw [getElem_range] at entry
      exact entry.symm
    have addr : Addressed shape := by
      refine (addressed_or_short shape).resolve_right fun short => ?_
      -- The last element is read for some index, but has no address.
      obtain ⟨index, mem, read⟩ := onto _ (getElem_mem last)
      have address := positions index mem
      rw [read, flatten_getElem_indices last] at address
      have below := short _ (inside index mem)
      omega
    refine ⟨addr, fun index mem => ?_⟩
    have same := positions index mem
    rw [addr _ (inside index mem)] at same
    exact flatten_inj (inside index mem) (stays index mem) same
  · rintro ⟨addr, same⟩ values -
    refine map_congr_left fun index mem => ?_
    rw [addr _ (inside index mem), same index mem]

end DmlTensorDesc

end TfDml
