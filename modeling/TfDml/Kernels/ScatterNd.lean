import TfDml.Kernels.GatherNd
import TfDml.Kernels.Transpose

/-! # How ScatterNd validates its inputs

The last dimension of the indices counts the entries of a tuple, which names a slice of
the params; indices of rank one are scalars. The updates have one slice for each tuple.
-/

namespace TfDml.ScatterNd

open List
open GatherNd (IndexType)
open Transpose (Fatal)

def validEmptyOutputShape (numInputs numIndices numUpdates : Nat) : Bool :=
  if numIndices == 0 && numUpdates == 0 then
    true  -- regardless of the inputs, covers both cases
  else numInputs != 0 && numIndices != 0 && numUpdates != 0

def sliceDim (indices : TensorShape) : Nat := if 1 < indices.length then indices.getLastD 0 else 1

def batchDim (indices : TensorShape) : Nat := if 1 < indices.length then indices.length - 1 else 1

def validateUpdateShape (params indices updates : TensorShape) : Except Status Unit := do
  let sliceDim := sliceDim indices
  let batchDim := batchDim indices
  let shapeErr : Status :=
    .invalidArgument ("Must have updates.shape = indices.shape[:batch_dim] + " ++
      "params_shape[slice_dim:], got updates.shape: " ++ updates.debugString ++
      ", indices.shape: " ++ indices.debugString ++ ", params_shape: " ++ params.debugString ++
      ", slice_dim: " ++ toString sliceDim ++ ", and batch_dim: " ++ toString batchDim)
  opRequires (batchDim ≤ updates.length) shapeErr
  opRequires (sliceDim + (updates.length - batchDim) ≤ params.length) shapeErr
  opRequires (updates.length == batchDim + params.length - sliceDim) shapeErr
  opRequires ((List.range batchDim).all fun d => updates.getD d 0 == indices.getD d 0) shapeErr
  opRequires ((List.range (updates.length - batchDim)).all fun d =>
    updates.getD (d + batchDim) 0 == params.getD (d + sliceDim) 0) shapeErr

def validateNonempty (params indices updates : TensorShape) : Except Status Unit := do
  opRequires params.isVectorOrHigher
    (.invalidArgument ("Output must be at least 1-D, got shape: " ++ params.debugString))
  opRequires (validEmptyOutputShape params.numElements indices.numElements updates.numElements)
    (.invalidArgument ("Indices and updates specified for empty output.  indices shape: " ++
      indices.debugString))

def validateDims (index : IndexType) (params indices updates : TensorShape)
    (outerUpdates outerIndices : Nat) : Except Status Unit := do
  opRequires (outerUpdates == outerIndices)
    (.invalidArgument ("The outermost dimension of updates and indices must match. " ++
      "Got indices.shape " ++ indices.debugString ++ ", updates.shape " ++ updates.debugString))
  validateUpdateShape params indices updates
  opRequires (indices.numElements ≤ index.max)
    (.invalidArgument ("indices has too many elements for " ++ dataTypeString index.dtype ++
      " indexing: " ++ toString indices.numElements ++ " > " ++ toString index.max))
  opRequires (params.getD 0 0 ≤ index.max)
    (.invalidArgument ("params.shape[0] too large for " ++ dataTypeString index.dtype ++
      " indexing: " ++ toString (params.getD 0 0) ++ " > " ++ toString index.max))

/-- `ValidateCommonScatter`, which is all that `ScatterNdInitHelper` checks. -/
def validateCommonScatter (index : IndexType) (params indices updates : TensorShape) :
    Except Fatal (Except Status Unit) :=
  match validateNonempty params indices updates with
  | .error status => .ok (.error status)
  | .ok () => do
    let outerUpdates ← Transpose.read updates 0
    let outerIndices ← Transpose.read indices 0
    .ok (validateDims index params indices updates outerUpdates outerIndices)

structure Accepted (index : IndexType) (params indices updates : TensorShape) : Prop where
  params_ne : params ≠ []
  indices_ne : indices ≠ []
  nonempty : validEmptyOutputShape params.numElements indices.numElements updates.numElements = true
  sliceDim_le : sliceDim indices ≤ params.length
  updates : updates = indices.take (batchDim indices) ++ params.drop (sliceDim indices)
  numIndices_le : indices.numElements ≤ index.max
  outer_le : params.getD 0 0 ≤ index.max

theorem batchDim_le {indices : TensorShape} (some_ : indices ≠ []) :
    batchDim indices ≤ indices.length := by
  have pos := length_pos_iff.mpr some_
  unfold batchDim
  split <;> omega

theorem validateUpdateShape_ok {params indices updates : TensorShape} (some_ : indices ≠ [])
    (ok : validateUpdateShape params indices updates = .ok ()) : sliceDim indices ≤ params.length ∧
      updates = indices.take (batchDim indices) ++ params.drop (sliceDim indices) := by
  have lt := batchDim_le some_
  simp only [validateUpdateShape, bind_eq_ok, opRequires_eq_ok, exists_const, decide_eq_true_eq,
    beq_iff_eq, List.all_eq_true, mem_range] at ok
  obtain ⟨batch, slice, length, outer, inner⟩ := ok
  have taken : (indices.take (batchDim indices)).length = batchDim indices := length_take_of_le lt
  refine ⟨by omega, ext_getElem ?_ fun d left right => ?_⟩
  · rw [length_append, taken, length_drop]
    omega
  · by_cases isOuter : d < batchDim indices
    · have same := outer d isOuter
      rw [getD_eq_getElem _ _ left, getD_eq_getElem _ _ (by omega)] at same
      rw [getElem_append_left (by omega), getElem_take, same]
    · have same := inner (d - batchDim indices) (by omega)
      rw [Nat.sub_add_cancel (by omega), getD_eq_getElem _ _ left,
        getD_eq_getElem _ _ (by omega)] at same
      rw [getElem_append_right (by omega), getElem_drop, same]
      congr 1
      omega

theorem accepted_of_ok {index : IndexType} {params indices updates : TensorShape}
    (acc : validateCommonScatter index params indices updates = .ok (.ok ())) :
    Accepted index params indices updates := by
  unfold validateCommonScatter at acc
  cases first : validateNonempty params indices updates with
  | error status => simp [first] at acc
  | ok _ =>
    simp only [first, bind_eq_ok, Except.ok.injEq] at acc
    obtain ⟨outerUpdates, -, outerIndices, readIndices, dims⟩ := acc
    have indices_ne : indices ≠ [] := by
      rintro rfl
      simp [Transpose.read] at readIndices
    simp only [validateNonempty, bind_eq_ok, opRequires_eq_ok, exists_const] at first
    simp only [validateDims, bind_eq_ok, opRequires_eq_ok, exists_const, decide_eq_true_eq] at dims
    obtain ⟨isVector, nonempty⟩ := first
    obtain ⟨-, _, shape, numIndices, outer⟩ := dims
    obtain ⟨sliceDim_le, isUpdates⟩ := validateUpdateShape_ok indices_ne shape
    exact
      { params_ne := by
          rintro rfl
          simp [TensorShape.isVectorOrHigher] at isVector
        indices_ne := indices_ne
        nonempty := nonempty
        sliceDim_le := sliceDim_le
        updates := isUpdates
        numIndices_le := numIndices
        outer_le := outer }

end TfDml.ScatterNd
