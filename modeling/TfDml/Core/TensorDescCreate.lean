import TfDml.Core.KernelShapeUtil
import TfDml.Core.TensorDesc
import TfDml.Lib.BroadcastView
import TfDml.Lib.Placement
import Mathlib.Tactic.IntervalCases

/-! # Creating tensor descriptors

A descriptor of a broadcast shape has a stride of zero where the dimension is broadcast. The sizes
and strides are then padded by leading dimensions, or moved to where DirectML has the axes of a
layout, and the size of the buffer is computed from them.
-/

namespace TfDml

/-- `DML_TENSOR_DATA_TYPE` -/
inductive DmlDataType where
  | float32 | float16
  | uint64 | uint32 | uint16 | uint8
  | int64 | int32 | int16 | int8
  deriving DecidableEq

def DmlDataType.sizeInBytes : DmlDataType → Nat
  | .uint64 | .int64 => 8
  | .float32 | .uint32 | .int32 => 4
  | .float16 | .uint16 | .int16 => 2
  | .uint8 | .int8 => 1

def getDmlDataTypeFromTfDataType : DataType → Option DmlDataType
  | .uint64 => some .uint64
  | .int64 => some .int64
  | .float => some .float32
  | .half => some .float16
  | .uint32 => some .uint32
  | .uint16 => some .uint16
  | .uint8 | .bool => some .uint8
  | .int32 => some .int32
  | .int16 => some .int16
  | .int8 => some .int8
  | _ => none

/-- The axes of a layout, which name dimensions and are not their indices. -/
inductive DmlTensorAxis where
  | n | c | d | h | w
  deriving DecidableEq

abbrev DmlTensorLayout := List DmlTensorAxis

namespace DmlTensorDesc

open Lib Option
open List hiding flatten

def kNcdhwDimensionCount : Nat := 5

/-- `DML_TENSOR_DIMENSION_COUNT_MAX` -/
def maxLayoutDimensionCount : Nat := 5

def getDmlDimensionIndex (axis : DmlTensorAxis) (dmlDimensionCount : Nat) : Option Nat :=
  if dmlDimensionCount = kNchwDimensionCount then
    match axis with
    | .n => some 0
    | .c => some 1
    | .h => some 2
    | .w => some 3
    | .d => none
  else
    match axis with
    | .n => some 0
    | .c => some 1
    | .d => some 2
    | .h => some 3
    | .w => some 4

/-- Dimensions are dropped from the left if there are less than four. -/
def getDmlTensorLayout (format : TensorFormat) (rank : Nat) : Option DmlTensorLayout :=
  let from_ (least : Nat) (axis : DmlTensorAxis) : DmlTensorLayout :=
    if least ≤ rank then [axis] else []
  if rank ≤ maxLayoutDimensionCount then
    match format with
    | .nhwc => some (from_ 4 .n ++ from_ 5 .d ++ from_ 3 .h ++ from_ 2 .w ++ from_ 1 .c)
    | .nchw => some (from_ 4 .n ++ from_ 3 .c ++ from_ 5 .d ++ from_ 2 .h ++ from_ 1 .w)
    | _ => none
  else none

def lastElement (sizes strides : List Nat) : Nat :=
  (zipWith (fun size stride => (size - 1) * stride) sizes strides).sum

/-- `DMLCalcBufferTensorSize`, which comes with DirectML: the bytes up to the last element, rounded
    up to the nearest four. -/
structure BufferTensorSize where
  calc_ : DmlDataType → List Nat → List Nat → Nat
  documented : ∀ dataType sizes strides, (∀ size ∈ sizes, 0 < size) →
    lastElement sizes strides < 2 ^ 32 → calc_ dataType sizes strides =
      ((lastElement sizes strides + 1) * dataType.sizeInBytes + 3) / 4 * 4

/-- A descriptor with its `TotalTensorSizeInBytes`. -/
structure Buffer where
  desc : DmlTensorDesc
  totalTensorSizeInBytes : Nat

variable (helper : BufferTensorSize)

/-- `DmlTensorDesc::DmlTensorDesc`, without padding at the end. -/
def construct (dataType : DmlDataType) (sizes strides : List Nat) : Option Buffer :=
  if sizes.length ≤ maxDimensionCount ∧ strides.length = sizes.length then
    some ⟨⟨sizes, strides⟩, helper.calc_ dataType sizes strides⟩
  else none

/-- `DmlTensorDesc::Create` of 32-bit sizes. -/
def createSpan (dataType : DataType) (dimensions nonBroadcastDimensions : List Nat)
    (addLeadingDimensions : Bool) : Option Buffer := do
  let missing := dimensions.length - nonBroadcastDimensions.length
  if nonBroadcastDimensions.length ≤ dimensions.length ∧ dimensions.length ≤ maxDimensionCount then
    let (strides, _) ← computeStrides
      (dimensions.zip (replicate missing 1 ++ nonBroadcastDimensions))
    let leading := if addLeadingDimensions then kNchwDimensionCount - dimensions.length else 0
    let dmlDataType ← getDmlDataTypeFromTfDataType dataType
    construct helper dmlDataType (replicate leading 1 ++ dimensions)
      (replicate leading 0 ++ strides)
  else none

def assignDimension (dmlDimensionCount : Nat) (desc : DmlTensorDesc)
    (entry : DmlTensorAxis × Nat × Nat) : Option DmlTensorDesc := do
  let dmlDimIndex ← getDmlDimensionIndex entry.1 dmlDimensionCount
  return ⟨desc.sizes.set dmlDimIndex entry.2.1, desc.strides.set dmlDimIndex entry.2.2⟩

/-- A dimension count of 5 is used only if one of the dimensions is depth. -/
def dmlDimensionCountOf (tensorLayout : DmlTensorLayout) : Nat :=
  if DmlTensorAxis.d ∈ tensorLayout then kNcdhwDimensionCount else kNchwDimensionCount

/-- `DmlTensorDesc::Create` with a layout. -/
def createLayout (dataType : DataType) (dimensions nonBroadcastDimensions : List Nat)
    (tensorLayout : DmlTensorLayout) : Option Buffer := do
  let missing := dimensions.length - nonBroadcastDimensions.length
  if nonBroadcastDimensions.length ≤ dimensions.length ∧
      dimensions.length ≤ maxLayoutDimensionCount ∧ tensorLayout ≠ [] ∧
      tensorLayout.length = dimensions.length then
    let (strides, _) ← computeStrides
      (dimensions.zip (replicate missing 1 ++ nonBroadcastDimensions))
    let dmlDimensionCount := dmlDimensionCountOf tensorLayout
    let desc ← (tensorLayout.zip (dimensions.zip strides)).foldlM
      (assignDimension dmlDimensionCount)
      ⟨replicate dmlDimensionCount 1, replicate dmlDimensionCount 0⟩
    let dmlDataType ← getDmlDataTypeFromTfDataType dataType
    construct helper dmlDataType desc.sizes desc.strides
  else none

/-- The size as it is documented, with 32-bit positions. -/
def BufferTensorSize.ofDocumentation : BufferTensorSize where
  calc_ dataType sizes strides :=
    ((lastElement sizes strides % 2 ^ 32 + 1) * dataType.sizeInBytes + 3) / 4 * 4
  documented := fun _ _ _ _ small => by rw [Nat.mod_eq_of_lt small]

def stretchStrides : List Nat → List Nat → List Nat
  | n :: x, d :: shape => (if d = n then x.prod % 2 ^ 32 else 0) :: stretchStrides x shape
  | _, _ => []

variable {x shape : List Nat}

theorem length_stretchStrides (length : x.length = shape.length) :
    (stretchStrides x shape).length = shape.length := by
  induction x generalizing shape with
  | nil => exact length
  | cons n x ih =>
    cases shape with
    | nil => simp at length
    | cons d shape => rw [stretchStrides, length_cons, length_cons, ih (by simpa using length)]

theorem computeStrides_of_stretches (stretches : Stretches x shape) :
    computeStrides (shape.zip x) = some (stretchStrides x shape, x.prod % 2 ^ 32) := by
  induction stretches with
  | nil => rfl
  | @cons n d x shape fits _ ih =>
    by_cases same : d = n
    · simp [computeStrides, ih, stretchStrides, same, mul_comm n]
    · have single : n = 1 := fits.resolve_left (Ne.symm same)
      rw [single] at same
      simp [computeStrides, ih, stretchStrides, single, same]

theorem stretches_of_computeStrides (length : x.length = shape.length) {result : List Nat × Nat}
    (eq : computeStrides (shape.zip x) = some result) : Stretches x shape := by
  induction x generalizing shape result with
  | nil =>
    obtain rfl := length_eq_zero_iff.mp length.symm
    exact .nil
  | cons n x ih =>
    cases shape with
    | nil => simp at length
    | cons d shape =>
      simp only [zip_cons_cons, computeStrides, bind_eq_bind, bind_eq_some_iff] at eq
      obtain ⟨inner, got, rest⟩ := eq
      refine .cons ?_ (ih (by simpa using length) got)
      split at rest
      case isTrue broadcast =>
        split at rest
        case isTrue single => exact Or.inr single
        case isFalse => cases rest
      case isFalse same => exact Or.inl (not_not.mp same).symm

variable {index : List Nat}

theorem address_stretchStrides (stretches : Stretches x shape) (mem : index ∈ indices shape) :
    address (stretchStrides x shape) index = address (packedStrides x) (stretchIndex x index) := by
  induction stretches generalizing index with
  | nil =>
    obtain rfl := mem_singleton.mp mem
    rfl
  | @cons n d x shape fits _ ih =>
    obtain ⟨k, less, inner, inside, rfl⟩ := mem_indices_cons.mp mem
    have indexed : stretchIndex (n :: x) (k :: inner) =
        (if n = 1 then 0 else k) :: stretchIndex x inner := rfl
    rw [stretchStrides, indexed, packedStrides, address_cons, address_cons, ih inside]
    by_cases single : n = 1
    · have zero : k * (if d = n then x.prod % 2 ^ 32 else 0) = 0 := by
        split
        case isTrue same => rw [show k = 0 by omega, zero_mul]
        case isFalse => exact mul_zero k
      rw [zero, if_pos single, zero_mul]
    · rw [if_neg single, if_pos (fits.resolve_right single).symm]

theorem map_address_stretchStrides_iff (stretches : Stretches x shape)
    (pos : ∀ d ∈ shape, 0 < d) : (indices shape).map (address (stretchStrides x shape)) =
        tileSources (zipWith stretchTile x shape) ↔ Addressed x := by
  rw [← map_stretchIndex_indices stretches, map_inj_left]
  constructor
  · intro same index mem
    obtain ⟨inside, itself⟩ := stretchIndex_self stretches pos mem
    have read := same index inside
    rwa [address_stretchStrides stretches inside, itself] at read
  · intro addr index mem
    rw [address_stretchStrides stretches mem, addr _ (stretchIndex_mem stretches mem)]

theorem create_eq_some {shape x : TensorShape} {desc : DmlTensorDesc} :
    create shape x = some desc ↔ Describable shape ∧ x.length ≤ shape.length ∧
      Stretches (aligned shape.length x) shape ∧
      desc = ⟨replicate (kNchwDimensionCount - shape.length) 1 ++ shape,
        replicate (kNchwDimensionCount - shape.length) 0 ++
          stretchStrides (aligned shape.length x) shape⟩ := by
  simp only [create, bind_eq_bind, bind_eq_some_iff, narrowTensorShape_eq_some]
  constructor
  · rintro ⟨_, ⟨dims, rfl⟩, _, ⟨-, rfl⟩, built⟩
    rw [ite_none_right_eq_some] at built
    obtain ⟨⟨fits, rank⟩, built⟩ := built
    obtain ⟨strides, eq, same⟩ := bind_eq_some_iff.mp built
    have stretches := stretches_of_computeStrides (length_aligned fits) eq
    rw [← aligned, computeStrides_of_stretches stretches, Option.some.injEq] at eq
    rw [← eq] at same
    exact ⟨⟨rank, dims⟩, fits, stretches, (some.inj same).symm⟩
  · rintro ⟨describable, fits, stretches, rfl⟩
    have dims : ∀ dim ∈ x, dim < 2 ^ 32 := fun dim mem =>
      stretches.forall_lt (by decide) describable.dims dim (mem_append_right _ mem)
    refine ⟨shape, ⟨describable.dims, rfl⟩, x, ⟨dims, rfl⟩, ?_⟩
    rw [if_pos ⟨fits, describable.rank⟩, ← aligned, computeStrides_of_stretches stretches]
    rfl

theorem create_of_stretches {shape x : TensorShape} (rank : shape.length = 8)
    (stretches : Stretches x shape) (lt : ∀ d ∈ shape, d < 2 ^ 32) :
    create shape x = some ⟨shape, stretchStrides x shape⟩ := by
  have physical : aligned shape.length x = x := by rw [← stretches.length_eq, aligned_length]
  refine create_eq_some.mpr ⟨⟨le_of_eq rank, lt⟩, le_of_eq stretches.length_eq, ?_, ?_⟩
  · rwa [physical]
  · rw [physical, rank]
    rfl

theorem map_createSpan {dataType : DataType} {dmlDataType : DmlDataType}
    (known : getDmlDataTypeFromTfDataType dataType = some dmlDataType) {shape x : TensorShape}
    (lt : ∀ dim ∈ shape, dim < 2 ^ 32) (lt' : ∀ dim ∈ x, dim < 2 ^ 32) :
    (createSpan helper dataType shape x true).map Buffer.desc = create shape x := by
  have first := narrowTensorShape_eq_some.mpr ⟨lt, rfl⟩
  have snd := narrowTensorShape_eq_some.mpr ⟨lt', rfl⟩
  simp only [createSpan, create, first, snd, bind_eq_bind, bind_some, known]
  split
  case isFalse => rfl
  case isTrue fits =>
    obtain ⟨fits, rank⟩ := fits
    cases eq : computeStrides
        (shape.zip (replicate (shape.length - x.length) 1 ++ x)) with
    | none => rfl
    | some result =>
      have stretches := stretches_of_computeStrides (length_aligned fits) eq
      rw [← aligned, computeStrides_of_stretches stretches] at eq
      obtain rfl := some.inj eq
      have length := length_stretchStrides (length_aligned fits)
      rw [maxDimensionCount] at rank
      have few : (replicate (kNchwDimensionCount - shape.length) 1 ++ shape).length ≤
          maxDimensionCount := by
        rw [length_append, length_replicate, kNchwDimensionCount, maxDimensionCount]
        omega
      rw [bind_some, bind_some]
      simp only [if_true]
      rw [construct, if_pos ⟨few, by simp [length]⟩]
      rfl

variable {size : Nat} {rest : List Nat}

theorem addressed_of_cons (some_ : 0 < size) (addr : Addressed (size :: rest)) :
    Addressed rest := by
  intro index mem
  have whole := addr (0 :: index) (mem_indices_cons.mpr ⟨0, some_, index, mem, rfl⟩)
  rwa [packedStrides, address_cons, flatten, zero_mul, zero_mul, zero_add, zero_add] at whole

theorem addressed_one_cons : Addressed (1 :: rest) ↔ Addressed rest :=
  ⟨addressed_of_cons one_pos, fun addr => addressed_cons addr (Or.inl (le_refl 1))⟩

theorem addressed_replicate_append (count : Nat) :
    Addressed (replicate count 1 ++ rest) ↔ Addressed rest := by
  induction count with
  | zero => rfl
  | succ count ih => rw [replicate_succ, cons_append, addressed_one_cons, ih]

theorem addressed_cons_iff (some_ : 0 < size) (ne : 0 < rest.prod) :
    Addressed (size :: rest) ↔ Addressed rest ∧ (size ≤ 1 ∨ rest.prod < 2 ^ 32) := by
  constructor
  · intro addr
    have rows := addressed_of_cons some_ addr
    refine ⟨rows, ?_⟩
    by_contra large
    rw [not_or, not_le, not_lt] at large
    obtain ⟨inner, lt⟩ := exists_mem_of_length_pos (length_indices rest ▸ ne)
    have whole := addr (1 :: inner)
      (mem_indices_cons.mpr ⟨1, large.1, inner, lt, rfl⟩)
    rw [packedStrides, address_cons, flatten, rows inner lt] at whole
    have below := Nat.mod_lt rest.prod (by decide : 0 < 2 ^ 32)
    omega
  · rintro ⟨addr, fits⟩
    exact addressed_cons addr fits

theorem addressed_of_stretches (stretches : Stretches x shape) (pos : ∀ d ∈ shape, 0 < d)
    (addr : Addressed shape) : Addressed x := by
  induction stretches with
  | nil => exact addr
  | @cons n d x shape fits inner ih =>
    rw [forall_mem_cons] at pos
    have some_ : 0 < shape.prod := List.prod_pos_iff_forall_pos_nat.mpr pos.2
    rw [addressed_cons_iff pos.1 some_] at addr
    have rows := ih pos.2 addr.1
    refine addressed_cons rows ?_
    rcases fits with rfl | rfl
    · refine addr.2.imp_right fun lt => lt_of_le_of_lt ?_ lt
      exact prod_le_of_stretches inner pos.2
    · exact Or.inl (le_refl 1)

theorem lastElement_cons (size stride : Nat) (sizes strides : List Nat) :
    lastElement (size :: sizes) (stride :: strides) =
      (size - 1) * stride + lastElement sizes strides := rfl

variable {sizes : List Nat}

theorem isGreatest_lastElement {strides : List Nat} (length : strides.length = sizes.length)
    (pos : ∀ size ∈ sizes, 0 < size) :
    IsGreatest {a | ∃ index ∈ indices sizes, address strides index = a}
      (lastElement sizes strides) := by
  induction sizes generalizing strides with
  | nil =>
    obtain rfl := length_eq_zero_iff.mp length
    refine ⟨⟨[], mem_singleton.mpr rfl, rfl⟩, ?_⟩
    rintro a ⟨index, mem, rfl⟩
    obtain rfl := mem_singleton.mp mem
    exact le_refl 0
  | cons size sizes ih =>
    cases strides with
    | nil => simp at length
    | cons stride strides =>
      rw [forall_mem_cons] at pos
      obtain ⟨⟨last, inside, attained⟩, bound⟩ := ih (by simpa using length) pos.2
      rw [lastElement_cons]
      constructor
      · refine ⟨(size - 1) :: last, mem_indices_cons.mpr ⟨_, ?_, _, inside, rfl⟩, ?_⟩
        · exact Nat.sub_one_lt_of_lt pos.1
        · rw [address_cons, attained]
      · rintro a ⟨index, mem, rfl⟩
        obtain ⟨k, less, inner, inside', rfl⟩ := mem_indices_cons.mp mem
        rw [address_cons]
        exact Nat.add_le_add (Nat.mul_le_mul_right _ (Nat.le_sub_one_of_lt less))
          (bound ⟨inner, inside', rfl⟩)

theorem covers_lastElement {strides : List Nat} (length : strides.length = sizes.length)
    (bounded : ∀ index ∈ indices sizes, address strides index < 2 ^ 32) (dataType : DmlDataType)
    {last : Nat}
    (greatest : IsGreatest {a | ∃ index ∈ indices sizes, address strides index = a} last) :
    (last + 1) * dataType.sizeInBytes ≤ helper.calc_ dataType sizes strides ∧
      helper.calc_ dataType sizes strides < (last + 1) * dataType.sizeInBytes + 4 ∧
      4 ∣ helper.calc_ dataType sizes strides := by
  have pos : ∀ size ∈ sizes, 0 < size := by
    obtain ⟨⟨index, mem, -⟩, -⟩ := greatest
    intro size inside
    obtain ⟨d, below, rfl⟩ := getElem_of_mem inside
    have length := length_of_mem_indices mem
    exact Nat.zero_lt_of_lt (getElem_lt_of_mem_indices mem below (by omega))
  have last_ := isGreatest_lastElement length pos
  obtain rfl := greatest.unique last_
  obtain ⟨index, mem, attained⟩ := last_.1
  rw [helper.documented _ _ _ pos (attained ▸ bounded index mem)]
  omega

def layoutPlaces (tensorLayout : DmlTensorLayout) : List Nat :=
  tensorLayout.map fun axis =>
    (getDmlDimensionIndex axis (dmlDimensionCountOf tensorLayout)).getD 0

variable {tensorLayout : DmlTensorLayout} {axis : DmlTensorAxis}

theorem getDmlDimensionIndex_layout (named : axis ∈ tensorLayout) :
    ∃ place < dmlDimensionCountOf tensorLayout,
      getDmlDimensionIndex axis (dmlDimensionCountOf tensorLayout) = some place := by
  rw [dmlDimensionCountOf]
  split
  case isTrue => cases axis <;> exact ⟨_, by decide, rfl⟩
  case isFalse flat =>
    cases axis with
    | d => exact absurd named flat
    | n => exact ⟨0, by decide, rfl⟩
    | c => exact ⟨1, by decide, rfl⟩
    | h => exact ⟨2, by decide, rfl⟩
    | w => exact ⟨3, by decide, rfl⟩

variable {count : Nat}

theorem getDmlDimensionIndex_inj {axis' : DmlTensorAxis} {place : Nat}
    (first : getDmlDimensionIndex axis count = some place)
    (snd : getDmlDimensionIndex axis' count = some place) : axis = axis' := by
  unfold getDmlDimensionIndex at first snd
  by_cases flat : count = kNchwDimensionCount
  · rw [if_pos flat] at first snd
    cases axis <;> cases axis' <;> simp_all <;> omega
  · rw [if_neg flat] at first snd
    cases axis <;> cases axis' <;> simp_all <;> omega

theorem layoutPlaces_nodup (nodup : tensorLayout.Nodup) : (layoutPlaces tensorLayout).Nodup := by
  refine List.Nodup.map_on (fun axis named axis' named' same => ?_) nodup
  obtain ⟨place, -, got⟩ := getDmlDimensionIndex_layout named
  obtain ⟨place', -, got'⟩ := getDmlDimensionIndex_layout named'
  rw [got, got', getD_some, getD_some] at same
  exact getDmlDimensionIndex_inj got (same ▸ got')

theorem layoutPlaces_lt :
    ∀ place ∈ layoutPlaces tensorLayout, place < dmlDimensionCountOf tensorLayout := by
  intro place mem
  obtain ⟨axis, named, rfl⟩ := List.mem_map.mp mem
  obtain ⟨place, below, got⟩ := getDmlDimensionIndex_layout named
  rwa [got]

theorem foldlM_assignDimension {axes : DmlTensorLayout} {strides : List Nat}
    (known : ∀ axis ∈ axes, (getDmlDimensionIndex axis count).isSome) (desc : DmlTensorDesc)
    (length : sizes.length = axes.length) (length' : strides.length = axes.length) :
    (axes.zip (sizes.zip strides)).foldlM (assignDimension count) desc =
      some ⟨place desc.sizes (axes.map fun axis => (getDmlDimensionIndex axis count).getD 0) sizes,
        place desc.strides (axes.map fun axis => (getDmlDimensionIndex axis count).getD 0)
          strides⟩ := by
  induction axes generalizing sizes strides desc with
  | nil => rfl
  | cons axis axes ih =>
    cases sizes with
    | nil => simp at length
    | cons size sizes =>
      cases strides with
      | nil => simp at length'
      | cons stride strides =>
        rw [forall_mem_cons] at known
        obtain ⟨here, got⟩ := isSome_iff_exists.mp known.1
        rw [zip_cons_cons, zip_cons_cons, foldlM_cons, assignDimension, got]
        exact (ih known.2 _ (by simpa using length) (by simpa using length')).trans (by
          rw [map_cons, got, getD_some, place_cons, place_cons])

theorem foldlM_assignDimension_layout {tensorLayout : DmlTensorLayout} {sizes strides : List Nat}
    (length : sizes.length = tensorLayout.length) (length' : strides.length = tensorLayout.length) :
    (tensorLayout.zip (sizes.zip strides)).foldlM
        (assignDimension (dmlDimensionCountOf tensorLayout))
        ⟨replicate (dmlDimensionCountOf tensorLayout) 1,
          replicate (dmlDimensionCountOf tensorLayout) 0⟩ =
      some ⟨place (replicate (dmlDimensionCountOf tensorLayout) 1)
          (layoutPlaces tensorLayout) sizes, place (replicate (dmlDimensionCountOf tensorLayout) 0)
          (layoutPlaces tensorLayout) strides⟩ := by
  refine foldlM_assignDimension (fun axis named => ?_) _ length length'
  obtain ⟨place, -, got⟩ := getDmlDimensionIndex_layout named
  rw [got]
  rfl

theorem address_set {strides : List Nat} {p : Nat} (inside : p < strides.length)
    (length : index.length = strides.length) (unused : strides[p] = 0) (stride k : Nat) :
    address (strides.set p stride) (index.set p k) = address strides index + k * stride := by
  induction strides generalizing p index with
  | nil => simp at inside
  | cons first strides ih =>
    cases index with
    | nil => simp at length
    | cons k' index =>
      cases p with
      | zero =>
        rw [getElem_cons_zero] at unused
        rw [set_cons_zero, set_cons_zero, address_cons, address_cons, unused]
        omega
      | succ p =>
        rw [set_cons_succ, set_cons_succ, address_cons, address_cons,
          ih (by simpa using inside) (by simpa using length) (by simpa using unused)]
        omega

theorem address_place {places strides start start' : List Nat} (distinct : places.Nodup)
    (inside : ∀ p ∈ places, p < start.length) (length : start'.length = start.length)
    (unused : ∀ p ∈ places, start[p]? = some 0) (whole : strides.length = places.length)
    (whole' : index.length = places.length) :
    address (place start places strides) (place start' places index) =
      address start start' + address strides index := by
  induction places generalizing strides index start start' with
  | nil =>
    obtain rfl := length_eq_zero_iff.mp whole
    obtain rfl := length_eq_zero_iff.mp whole'
    rfl
  | cons p places ih =>
    cases strides with
    | nil => simp at whole
    | cons stride strides =>
      cases index with
      | nil => simp at whole'
      | cons k index =>
        rw [forall_mem_cons] at inside unused
        obtain ⟨fresh, distinct⟩ := nodup_cons.mp distinct
        obtain ⟨below, zero⟩ := List.getElem?_eq_some_iff.mp unused.1
        have later : ∀ q ∈ places, (start.set p stride)[q]? = some 0 := fun q mem => by
          have other : p ≠ q := fun same => fresh (same ▸ mem)
          rw [getElem?_set_ne other]
          exact unused.2 q mem
        rw [place_cons, place_cons, ih distinct (by simpa using inside.2) (by simpa) later
          (by simpa using whole) (by simpa using whole'), address_set below length zero,
          address_cons]
        omega

end DmlTensorDesc

open Lib DmlTensorDesc Option
open List hiding flatten

/-- A shape, and a physical shape that broadcasts to it and has less than `2 ^ 32` elements. -/
structure BroadcastView where
  dimensions : List Nat
  nonBroadcast : List Nat
  narrow : ∀ dim ∈ dimensions, dim < 2 ^ 32
  broadcasts : broadcast nonBroadcast dimensions = some dimensions
  small : nonBroadcast.prod < 2 ^ 32

namespace BroadcastView

variable (view : BroadcastView)

def source (index : List Nat) : Nat :=
  flatten view.nonBroadcast (broadcastIndex view.nonBroadcast index)

/-- A buffer has each source element at the address of its index, which `toDml` moves to DirectML's
    dimensions, and its size is that of the elements up to the last one, in multiples of four
    bytes. -/
structure Addresses (elementSize : Nat) (toDml : List Nat → List Nat) (buffer : Buffer) : Prop where
  indices : ∀ index', index' ∈ indices buffer.desc.sizes ↔
    ∃ index ∈ indices view.dimensions, toDml index = index'
  address : ∀ index ∈ Lib.indices view.dimensions,
    address buffer.desc.strides (toDml index) = view.source index
  covers : ∀ last,
    IsGreatest {a | ∃ index ∈ Lib.indices view.dimensions, view.source index = a} last →
    (last + 1) * elementSize ≤ buffer.totalTensorSizeInBytes ∧
      buffer.totalTensorSizeInBytes < (last + 1) * elementSize + 4 ∧
      4 ∣ buffer.totalTensorSizeInBytes

def leadingIndex (addLeadingDimensions : Bool) (index : List Nat) : List Nat :=
  replicate (if addLeadingDimensions then kNchwDimensionCount - index.length else 0) 0 ++ index

def layoutIndex (tensorLayout : DmlTensorLayout) (index : List Nat) : List Nat :=
  place (replicate (dmlDimensionCountOf tensorLayout) 0) (layoutPlaces tensorLayout) index

theorem fits : view.nonBroadcast.length ≤ view.dimensions.length :=
  (broadcast_eq_right_iff.mp view.broadcasts).1

theorem stretches : Stretches (aligned view.dimensions.length view.nonBroadcast) view.dimensions :=
  (broadcast_eq_right_iff.mp view.broadcasts).2

/-- The strides, before they are padded or moved. -/
def strides : List Nat :=
  stretchStrides (aligned view.dimensions.length view.nonBroadcast) view.dimensions

theorem length_strides : view.strides.length = view.dimensions.length :=
  length_stretchStrides (length_aligned view.fits)

theorem computeStrides_eq : computeStrides (view.dimensions.zip
    (replicate (view.dimensions.length - view.nonBroadcast.length) 1 ++ view.nonBroadcast)) =
      some (view.strides, view.nonBroadcast.prod % 2 ^ 32) := by
  rw [← aligned, computeStrides_of_stretches view.stretches, prod_aligned]
  rfl

variable {index : List Nat}

theorem address_strides (mem : index ∈ indices view.dimensions) :
    address view.strides index = view.source index := by
  have length := length_of_mem_indices mem
  have addressed : Addressed (aligned view.dimensions.length view.nonBroadcast) :=
    addressed_of_lt (by rw [prod_aligned]; exact view.small)
  rw [strides, address_stretchStrides view.stretches mem,
    addressed _ (stretchIndex_mem view.stretches mem), source, ← length,
    flatten_aligned (length ▸ view.fits)]

theorem source_lt (mem : index ∈ indices view.dimensions) : view.source index < 2 ^ 32 :=
  lt_trans (flatten_lt (broadcastIndex_mem view.stretches mem)) view.small

variable (helper : BufferTensorSize) {dataType : DataType} {dmlDataType : DmlDataType}

theorem addresses_of {sizes strides : List Nat} {toDml : List Nat → List Nat}
    (length : strides.length = sizes.length)
    (moved : ∀ index', index' ∈ indices sizes ↔ ∃ index ∈ indices view.dimensions,
      toDml index = index')
    (sources : ∀ index ∈ indices view.dimensions,
      address strides (toDml index) = view.source index) :
    view.Addresses dmlDataType.sizeInBytes toDml
      ⟨⟨sizes, strides⟩, helper.calc_ dmlDataType sizes strides⟩ where
  indices := moved
  address := sources
  covers := by
    intro last greatest
    have same : {a | ∃ index ∈ Lib.indices view.dimensions, view.source index = a} =
        {a | ∃ index ∈ Lib.indices sizes, DmlTensorDesc.address strides index = a} := by
      ext a
      constructor
      · rintro ⟨index, mem, rfl⟩
        exact ⟨toDml index, (moved _).mpr ⟨index, mem, rfl⟩, sources index mem⟩
      · rintro ⟨index', mem, rfl⟩
        obtain ⟨index, inside, rfl⟩ := (moved index').mp mem
        exact ⟨index, inside, (sources index inside).symm⟩
    rw [same] at greatest
    refine covers_lastElement helper length (fun index' mem => ?_) dmlDataType greatest
    obtain ⟨index, inside, rfl⟩ := (moved index').mp mem
    rw [sources index inside]
    exact view.source_lt inside

theorem createSpan_addresses (known : getDmlDataTypeFromTfDataType dataType = some dmlDataType)
    (rank : view.dimensions.length ≤ maxDimensionCount) (addLeadingDimensions : Bool) :
    ∃ buffer, createSpan helper dataType view.dimensions view.nonBroadcast addLeadingDimensions =
        some buffer ∧
      view.Addresses dmlDataType.sizeInBytes (leadingIndex addLeadingDimensions) buffer := by
  let leading := if addLeadingDimensions then kNchwDimensionCount - view.dimensions.length else 0
  have lens : (replicate leading 0 ++ view.strides).length =
      (replicate leading 1 ++ view.dimensions).length := by simp [length_strides]
  have count : (replicate leading 1 ++ view.dimensions).length ≤ maxDimensionCount := by
    rw [maxDimensionCount] at rank ⊢
    rw [length_append, length_replicate]
    simp only [leading, kNchwDimensionCount]
    split <;> omega
  refine ⟨_, ?_, view.addresses_of helper lens (fun index' => ?_) fun index mem => ?_⟩
  · simp only [createSpan, if_pos (And.intro view.fits rank), view.computeStrides_eq,
      bind_eq_bind, bind_some, known]
    exact if_pos ⟨count, lens⟩
  · rw [indices_leading, List.mem_map]
    refine exists_congr fun index => and_congr_right fun mem => ?_
    rw [leadingIndex, length_of_mem_indices mem]
  · rw [leadingIndex, length_of_mem_indices mem, address_leading, address_strides view mem]

theorem createSpan_eq_none (rank : ¬view.dimensions.length ≤ maxDimensionCount)
    (addLeadingDimensions : Bool) : createSpan helper dataType view.dimensions view.nonBroadcast
      addLeadingDimensions = none :=
  if_neg fun both => rank both.2

variable {tensorLayout : DmlTensorLayout}

theorem createLayout_eq_none
    (rejected : ¬(view.dimensions.length ≤ maxLayoutDimensionCount ∧ tensorLayout ≠ [] ∧
      tensorLayout.length = view.dimensions.length)) :
    createLayout helper dataType view.dimensions view.nonBroadcast tensorLayout = none :=
  if_neg fun all => rejected all.2

theorem createLayout_addresses (known : getDmlDataTypeFromTfDataType dataType = some dmlDataType)
    (distinct : tensorLayout.Nodup) (rank : view.dimensions.length ≤ maxLayoutDimensionCount)
    (named : tensorLayout ≠ []) (whole : tensorLayout.length = view.dimensions.length) :
    ∃ buffer, createLayout helper dataType view.dimensions view.nonBroadcast tensorLayout =
        some buffer ∧ view.Addresses dmlDataType.sizeInBytes (layoutIndex tensorLayout) buffer := by
  have size : (layoutPlaces tensorLayout).length = view.dimensions.length := by
    rw [layoutPlaces, length_map, whole]
  have zeros : replicate (dmlDimensionCountOf tensorLayout) 0 ∈
      indices (replicate (dmlDimensionCountOf tensorLayout) 1) :=
    mem_indices_of_getElem (by simp) fun d _ _ => by simp
  have start := address_leading (dmlDimensionCountOf tensorLayout) [] []
  rw [append_nil] at start
  have assigned := foldlM_assignDimension_layout (whole.symm)
    (view.length_strides.trans whole.symm)
  have few : (place (replicate (dmlDimensionCountOf tensorLayout) 1)
      (layoutPlaces tensorLayout) view.dimensions).length ≤ maxDimensionCount := by
    rw [length_place, length_replicate, dmlDimensionCountOf]
    split <;> decide
  have lens : (place (replicate (dmlDimensionCountOf tensorLayout) 0)
      (layoutPlaces tensorLayout) view.strides).length =
      (place (replicate (dmlDimensionCountOf tensorLayout) 1)
        (layoutPlaces tensorLayout) view.dimensions).length := by
    rw [length_place, length_place, length_replicate, length_replicate]
  refine ⟨_, ?_, view.addresses_of helper lens (fun index' => ?_) fun index mem => ?_⟩
  · simp only [createLayout, view.computeStrides_eq, bind_eq_bind, bind_some, known]
    rw [if_pos ⟨view.fits, rank, named, whole⟩, assigned, bind_some]
    exact if_pos ⟨few, lens⟩
  · constructor
    · exact exists_place (layoutPlaces_nodup distinct) size.symm layoutPlaces_lt
    · rintro ⟨index, mem, rfl⟩
      exact place_mem zeros mem
  · have length := length_of_mem_indices mem
    rw [layoutIndex, address_place (layoutPlaces_nodup distinct)
      (fun p named => by simpa using layoutPlaces_lt p named) rfl (fun p named => by
        simpa [getElem?_replicate] using layoutPlaces_lt p named)
      (view.length_strides.trans size.symm) (length.trans size.symm), start,
      address_strides view mem]
    exact zero_add _

/-- A descriptor is made of every view of rank up to eight, or up to five with a layout that names
    each axis once, and has the broadcast source element at every address. -/
theorem create_addresses (known : getDmlDataTypeFromTfDataType dataType = some dmlDataType) :
    (∀ addLeadingDimensions,
      ((createSpan helper dataType view.dimensions view.nonBroadcast addLeadingDimensions).isSome ↔
        view.dimensions.length ≤ maxDimensionCount) ∧
      ∀ buffer, createSpan helper dataType view.dimensions view.nonBroadcast addLeadingDimensions =
        some buffer →
        view.Addresses dmlDataType.sizeInBytes (leadingIndex addLeadingDimensions) buffer) ∧
    ∀ tensorLayout : DmlTensorLayout, tensorLayout.Nodup →
      ((createLayout helper dataType view.dimensions view.nonBroadcast tensorLayout).isSome ↔
        view.dimensions.length ≤ maxLayoutDimensionCount ∧ tensorLayout ≠ [] ∧
          tensorLayout.length = view.dimensions.length) ∧
      ∀ buffer, createLayout helper dataType view.dimensions view.nonBroadcast tensorLayout =
        some buffer → view.Addresses dmlDataType.sizeInBytes (layoutIndex tensorLayout) buffer := by
  constructor
  · intro addLeadingDimensions
    by_cases rank : view.dimensions.length ≤ maxDimensionCount
    · obtain ⟨buffer, new, addresses⟩ :=
        view.createSpan_addresses helper known rank addLeadingDimensions
      rw [new]
      refine ⟨⟨fun _ => rank, fun _ => rfl⟩, fun buffer' same => ?_⟩
      obtain rfl := some.inj same
      exact addresses
    · rw [view.createSpan_eq_none helper rank]
      exact ⟨⟨(nomatch ·), fun few => absurd few rank⟩, fun _ same => nomatch same⟩
  · intro tensorLayout nodup
    by_cases ok : view.dimensions.length ≤ maxLayoutDimensionCount ∧ tensorLayout ≠ [] ∧
        tensorLayout.length = view.dimensions.length
    · obtain ⟨rank, named, whole⟩ := ok
      obtain ⟨buffer, new, addresses⟩ :=
        view.createLayout_addresses helper known nodup rank named whole
      rw [new]
      refine ⟨⟨fun _ => ⟨rank, named, whole⟩, fun _ => rfl⟩, fun buffer' same => ?_⟩
      obtain rfl := some.inj same
      exact addresses
    · rw [view.createLayout_eq_none helper ok]
      exact ⟨⟨(nomatch ·), fun all => absurd all ok⟩, fun _ same => nomatch same⟩

def stretchedColumns : BroadcastView where
  dimensions := [2, 3, 4]
  nonBroadcast := [3, 1]
  narrow := by decide
  broadcasts := by decide
  small := by decide

theorem create_addresses_stretchedColumns :
    (createSpan .ofDocumentation .float [2, 3, 4] [3, 1] true).isSome ∧
      (createLayout .ofDocumentation .float [2, 3, 4] [3, 1] [.n, .w, .c]).isSome :=
  ⟨((@create_addresses stretchedColumns .ofDocumentation .float .float32 rfl).1 true).1.mpr
      (by decide),
    ((@create_addresses stretchedColumns .ofDocumentation .float .float32 rfl).2 [.n, .w, .c]
      (by decide)).1.mpr (by decide)⟩

end BroadcastView

end TfDml
