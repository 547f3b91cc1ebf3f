import TfDml.Core.NoOpKernel
import TfDml.Kernels.GatherNd
import TfDml.Lib.StridedView

/-! # How a resource scatter validates its inputs

The kernel views the variable as rows, and the updates as one row for each index. The
initialization helper only compares the number of the updates with that of the indices.
-/

namespace TfDml.ScatterUpdate

open Lib
open GatherNd (IndexType)
open NoOpKernel (isNoOpKernel isNoOpKernel_iff)
open TensorShape

/-- `dim_size(d)`; `beyond` is what lies behind the dimensions. -/
def dimSize (beyond : Int) (shape : TensorShape) (d : Nat) : Int := (shape[d]?).elim beyond Nat.cast

def validateCommonScatter (index : IndexType) (beyond : Int) (params indices : TensorShape) :
    Except Status Unit := do
  opRequires (indices.numElements ≤ index.max)
    (.invalidArgument ("indices has too many elements for " ++ dataTypeString index.dtype ++
      " indexing: " ++ toString indices.numElements ++ " > " ++ toString index.max))
  opRequires (dimSize beyond params 0 ≤ index.max)
    (.invalidArgument ("params.shape[0] too large for " ++ dataTypeString index.dtype ++
      " indexing: " ++ toString (dimSize beyond params 0) ++ " > " ++ toString index.max))

def validateResourceScatter (indices updates : TensorShape) : Except Status Unit :=
  opRequires (!(0 < indices.numElements && !updates.isScalar &&
      updates.numElements % indices.numElements != 0))
    (.invalidArgument ("shape of indices (" ++ indices.debugString ++
      ") is not compatible with the shape of updates (" ++ updates.debugString ++ ")"))

/-- `ScatterUpdateInitializationHelper`, on a variable with the shape of `params`. -/
def scatterUpdateInitializationHelper (index : IndexType) (beyond : Int)
    (params indices updates : TensorShape) : Except Status Unit := do
  validateCommonScatter index beyond params indices
  validateResourceScatter indices updates

inductive Fatal where
  | missingDimension
  | divisionByZero
  deriving DecidableEq

structure FlatShapes where
  params : TensorShape
  indices : TensorShape
  nonBroadcastIndices : TensorShape
  updates : TensorShape
  nonBroadcastUpdates : TensorShape
  deriving DecidableEq

/-- `params_shape.num_elements() / params_shape.dim_size(0)` -/
def sliceSize (params : TensorShape) : Except Fatal Nat :=
  match params with
  | [] => .error .missingDimension
  | outer :: _ => if outer = 0 then .error .divisionByZero else .ok (params.numElements / outer)

/-- The shapes that the constructor of `DmlScatterUpdateKernel` makes. -/
def flatShapes (params indices updates : TensorShape) : Except Fatal FlatShapes := do
  let sliceSize ← sliceSize params
  .ok
    { params := [params.getD 0 0, sliceSize]
      indices := [indices.numElements, sliceSize]
      nonBroadcastIndices := [indices.numElements, 1]
      updates := [indices.numElements, sliceSize]
      nonBroadcastUpdates :=
        if updates.isScalar then updates else [indices.numElements, sliceSize] }

theorem sliceSize_ok_iff {params : TensorShape} {size : Nat} : sliceSize params = .ok size ↔
      params ≠ [] ∧ params.getD 0 0 ≠ 0 ∧ size = (params.drop 1).prod := by
  cases params with
  | nil => simp [sliceSize]
  | cons outer rest =>
    by_cases zero : outer = 0
    · simp [sliceSize, zero]
    · have divided : numElements (outer :: rest) / outer = rest.prod := by
        rw [numElements, List.prod_cons, Nat.mul_div_cancel_left _ (Nat.pos_of_ne_zero zero)]
      simp [sliceSize, zero, divided, eq_comm]

/-- A scatter that is accepted and not skipped. The handle of the variable is a scalar. -/
structure ScatterCall where
  index : IndexType
  beyond : Int
  params : TensorShape
  indices : TensorShape
  updates : TensorShape
  accepted : scatterUpdateInitializationHelper index beyond params indices updates = .ok ()
  runs : isNoOpKernel [[], indices, updates] [] = false

namespace ScatterCall

variable (s : ScatterCall)

/-- The kernel is built, and its view of the updates only has elements that are there. -/
def Sound : Prop :=
  ∃ flat, flatShapes s.params s.indices s.updates = .ok flat ∧
    ∀ p ∈ positions (packedAxes flat.nonBroadcastUpdates), p < s.updates.numElements

/-- The variable has rows, and there is an update for each element of those indexed. -/
structure Sufficient : Prop where
  hasDimension : s.params ≠ []
  nonempty : s.params.getD 0 0 ≠ 0
  enough : s.updates = [] ∨ s.indices.numElements * (s.params.drop 1).prod ≤ s.updates.numElements

theorem packed_inside_iff {shape : TensorShape} {n : Nat} :
    (∀ p ∈ positions (packedAxes shape), p < n) ↔ shape.prod ≤ n := by
  rw [positions_packedAxes]
  constructor
  · intro lt
    by_contra more
    have mem : (n : Int) ∈ (List.range shape.prod).map Int.ofNat :=
      List.mem_map.mpr ⟨n, List.mem_range.mpr (by omega), rfl⟩
    exact absurd (lt _ mem) (Int.lt_irrefl _)
  · intro enough p mem
    obtain ⟨k, below, rfl⟩ := List.mem_map.mp mem
    have less := List.mem_range.mp below
    exact Int.ofNat_lt.mpr (by omega)

theorem sound_iff_sufficient : s.Sound ↔ s.Sufficient := by
  have view : ∀ size, (if s.updates.isScalar then s.updates else
      [s.indices.numElements, size]).prod ≤ s.updates.numElements ↔
      s.updates = [] ∨ s.indices.numElements * size ≤ s.updates.numElements := by
    intro size
    cases shape : s.updates with
    | nil => simp [isScalar, numElements]
    | cons outer rest => simp [isScalar]
  simp only [Sound, flatShapes, bind_eq_ok, Except.ok.injEq, packed_inside_iff]
  constructor
  · rintro ⟨flat, ⟨size, sized, rfl⟩, lt⟩
    obtain ⟨hasDimension, some_, rfl⟩ := sliceSize_ok_iff.mp sized
    exact ⟨hasDimension, some_, (view _).mp lt⟩
  · intro sufficient
    exact ⟨_, ⟨_, sliceSize_ok_iff.mpr ⟨sufficient.hasDimension, sufficient.nonempty, rfl⟩, rfl⟩,
      (view _).mpr sufficient.enough⟩

end ScatterCall

def scalarVariable : ScatterCall where
  index := .int32
  beyond := 0
  params := []
  indices := [1]
  updates := [1]
  accepted := rfl
  runs := rfl

/-- A variable without rows. -/
def emptyVariable : ScatterCall where
  index := .int32
  beyond := 0
  params := [0, 3]
  indices := [1]
  updates := [1]
  accepted := rfl
  runs := rfl

def shortUpdates : ScatterCall where
  index := .int32
  beyond := 0
  params := [5, 3]
  indices := [2]
  updates := [2]
  accepted := rfl
  runs := rfl

theorem not_sound : ¬ scalarVariable.Sound ∧ ¬ emptyVariable.Sound ∧ ¬ shortUpdates.Sound := by
  refine ⟨?_, ?_, ?_⟩
  · rintro ⟨flat, built, -⟩
    exact absurd built (by simp [flatShapes, sliceSize, scalarVariable, bind, Except.bind])
  · rintro ⟨flat, built, -⟩
    exact absurd built (by simp [flatShapes, sliceSize, emptyVariable, bind, Except.bind])
  · rintro ⟨flat, built, lt⟩
    have shapes : flatShapes [5, 3] [2] [2] = .ok ⟨[5, 3], [2, 3], [2, 1], [2, 3], [2, 3]⟩ := rfl
    obtain rfl := Except.ok.inj (shapes.symm.trans built)
    exact absurd lt (by decide)

end TfDml.ScatterUpdate
