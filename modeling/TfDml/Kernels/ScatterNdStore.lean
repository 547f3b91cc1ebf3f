import TfDml.Core.TensorDesc
import TfDml.Core.TensorShapeUtils
import TfDml.Kernels.ScatterNdArithmetic
import TfDml.Lib.StoredWrites

/-! # ScatterNd that stores

`ScatterNd` stores the updates in a tensor of zeros. Of updates with the same tuple, one is
left, where the op has their sum.
-/

namespace TfDml.ScatterNd

open Lib Option
open List hiding flatten
open DmlTensorDesc
open GatherNd (IndexType)
open NoOpKernel (isNoOpKernel isNoOpKernel_iff zeroed zeroed_of_empty)
open StridedSlice (IndexTensor)

/-- Why an invocation does not get a kernel: a status, or a dimension that the shape does not
    have is read. -/
inductive Refusal where
  | status (status : Status)
  | outOfRange

def requires (condition : Bool) (status : Status) : Except Refusal Unit :=
  (opRequires condition status).mapError .status

def dimSize (shape : TensorShape) (d : Nat) : Except Refusal Nat :=
  match shape[d]? with
  | some dim => .ok dim
  | none => .error .outOfRange

/-- `slice_size` of `ValidateInputs`, an `int64_t`. -/
def sliceSizeInt64 (params indices : TensorShape) : Int :=
  (params.drop (sliceDim indices)).foldl (fun size dim => (size * dim).bmod (2 ^ 64)) 1

def commonScatter (index : IndexType) (params indices updates : TensorShape) :
    Except Refusal Unit :=
  match validateCommonScatter index params indices updates with
  | .error _ => .error .outOfRange
  | .ok (.error status) => .error (.status status)
  | .ok (.ok ()) => .ok ()

def validateInputs (index : IndexType) (params indices updates : TensorShape) :
    Except Refusal Unit := do
  commonScatter index params indices updates
  let sliceDim := sliceDim indices
  let sliceSize := sliceSizeInt64 params indices
  requires (sliceSize ≤ index.max)
    (.invalidArgument ("slice size is too large for indexing: " ++ toString sliceSize ++ " > " ++
      toString index.max))
  requires (sliceDim ≤ 7)
    (.invalidArgument ("Only indices.shape[-1] values between 0 and 7 are currently supported.  " ++
      "Requested rank: " ++ toString sliceDim))

/-- The constructor of `ScatterNdUnaryInitHelper`, with the shape that it makes. -/
def unaryInitHelper (index : IndexType) (indices updates : TensorShape)
    (shapeInput : IndexTensor (indexWidth index)) : Except Refusal TensorShape := do
  requires (1 ≤ indices.length)
    (.invalidArgument ("Indices shape must have rank at least one. Found:" ++ indices.debugString))
  requires (1 ≤ updates.length)
    (.invalidArgument ("Updates shape must have rank at least one. Found:" ++ updates.debugString))
  let shape ← (TensorShape.makeShape shapeInput.shape
    (shapeInput.values.map BitVec.toInt)).mapError .status
  requires (validEmptyOutputShape shapeInput.numElements indices.numElements updates.numElements)
    (.invalidArgument "Indices and updates specified for empty output shape")
  let outerDims := indices.length - 1
  (range outerDims).forM fun i => do
    let outerIndices ← dimSize indices i
    let outerUpdates ← dimSize updates i
    requires (outerIndices == outerUpdates)
      (.invalidArgument ("Outer dimensions of indices and update must match. Indices shape: " ++
        indices.debugString ++ ", updates shape:" ++ updates.debugString))
  let ix ← dimSize indices outerDims
  let innerUpdates : Int := updates.length - outerDims
  let innerShape : Int := shape.length - ix
  requires (innerUpdates == innerShape)
    (.invalidArgument ("Inner dimensions of output shape must match inner dimensions of updates " ++
      "shape. Output: " ++ shape.debugString ++ " updates: " ++ updates.debugString))
  (range innerUpdates.toNat).forM fun i => do
    let innerUpdate ← dimSize updates (i + outerDims)
    let innerDim ← dimSize shape (ix + i)
    requires (innerUpdate == innerDim)
      (.invalidArgument ("The inner " ++ toString innerShape ++ " dimensions of output.shape=" ++
        shape.debugString ++ " must match the inner " ++ toString innerUpdates ++
        " dimensions of updates.shape=" ++ updates.debugString))
  requires (shapeInput.shape.length == 1) (.invalidArgument "Shape must be a vector")
  validateInputs index shape indices updates
  .ok shape

/-- `DML_OPERATOR_SCATTER_ND` with its buffers, once irrelevant leading dimensions are
    ignored. -/
structure ScatterNdOperator (α : Type) (w : Nat) where
  params : DmlTensorDesc
  indices : DmlTensorDesc
  updates : DmlTensorDesc
  output : DmlTensorDesc
  paramsBuffer : List α
  indicesBuffer : List (BitVec w)
  updatesBuffer : List α

namespace ScatterNdOperator

variable {α : Type} {w : Nat} (op : ScatterNdOperator α w)

def copies : Option (List (Int × α)) :=
  (Lib.indices op.output.sizes).mapM fun element => do
    let x ← op.paramsBuffer[address op.params.strides element]?
    some ((address op.output.strides element : Int), x)

def tupleLength : Nat := op.indices.sizes.getLastD 0

/-- The entries of a tuple; nothing is promised for those that are out of range. -/
def tuple (outer : List Nat) : Option (List Nat) :=
  (range op.tupleLength).mapM fun k => do
    let entry ← op.indicesBuffer[address op.indices.strides (outer ++ [k])]?
    if 0 ≤ entry.toInt ∧ entry.toInt < op.output.sizes.getD k 0 then some entry.toInt.toNat
    else none

/-- Each element of the updates is for the element of the output that starts with its tuple. -/
def writes : Option (List (Int × α)) :=
  (Lib.indices op.indices.sizes.dropLast ×ˢ
    Lib.indices (op.output.sizes.drop op.tupleLength)).mapM fun update => do
      let tuple ← op.tuple update.1
      let x ← op.updatesBuffer[address op.updates.strides (update.1 ++ update.2)]?
      some ((address op.output.strides (tuple ++ update.2) : Int), x)

/-- What may be left in the buffer of the output; elements of the updates are stored in any
    order. -/
def Leaves (result : List (Option α)) : Prop :=
  ∃ copies copied writes, op.copies = some copies ∧ op.writes = some writes ∧
    Stored (replicate op.output.sizes.prod none) copies copied ∧ Stored copied writes result

end ScatterNdOperator

structure UnaryCall where
  index : IndexType
  indices : TensorShape
  updates : TensorShape
  shapeInput : IndexTensor (indexWidth index)
  shape : TensorShape
  indicesValues : List (BitVec (indexWidth index))
  accepted : unaryInitHelper index indices updates shapeInput = .ok shape
  sized : indicesValues.length = indices.numElements
  inRange : ∀ outer ∈ Lib.indices indices.dropLast, ∀ k < indices.getLastD 0,
    0 ≤ (indicesValues.getD (flatten indices (outer ++ [k])) 0).toInt ∧
      (indicesValues.getD (flatten indices (outer ++ [k])) 0).toInt < shape.getD k 0

namespace UnaryCall

variable {α : Type} [AddCommGroup α] (s : UnaryCall)

/-- `DmlScatterNdUnaryKernel`, with a buffer of zeros for the params. -/
def operator (updates : List α) : Option (ScatterNdOperator α (indexWidth s.index)) := do
  let params ← create s.shape [1]
  let indicesDesc ← create s.indices s.indices
  let updatesDesc ← create s.updates s.updates
  let output ← create s.shape s.shape
  let sliceRank := s.shape.length - s.indices.getLastD 0
  some
    { params := params.trailing s.shape.length
      indices := indicesDesc.trailing s.indices.length
      updates := updatesDesc.trailing (s.indices.length - 1 + sliceRank)
      output := output.trailing s.shape.length
      paramsBuffer := [0]
      indicesBuffer := s.indicesValues
      updatesBuffer := updates }

def skipped : Bool := isNoOpKernel [s.indices, s.updates, s.shapeInput.shape] [s.shape]

def Result (updates : List α) (result : List (Option α)) : Prop :=
  if s.skipped then result = zeroed s.shape
  else ∃ op, s.operator updates = some op ∧ op.Leaves result

def tupleLength : Nat := s.indices.getLastD 0

def outer : List Nat := s.indices.dropLast

def inner : List Nat := s.shape.drop s.tupleLength

def tuple (outer : List Nat) : List Nat :=
  (range s.tupleLength).map fun k =>
    (s.indicesValues.getD (flatten s.indices (outer ++ [k])) 0).toInt.toNat

/-- The elements of the updates, each with its tuple and its place in the slice. -/
def elements : List (List Nat × List Nat) := Lib.indices s.outer ×ˢ Lib.indices s.inner

def placed (updates : List α) : List (Int × α) :=
  s.elements.map fun update =>
    (flatten s.shape (s.tuple update.1 ++ update.2),
      updates.getD (flatten s.updates (update.1 ++ update.2)) 0)

def reference (updates : List α) : List α := accumulated s.shape.numElements (s.placed updates)

/-- For all updates, there is a result, and every result is the sum of the updates. -/
def EqualsReference (α : Type) [AddCommGroup α] : Prop :=
  ∀ updates : List α, updates.length = s.updates.numElements → (∃ result, s.Result updates result) ∧
      ∀ result, s.Result updates result → result = (s.reference updates).map some

end UnaryCall

variable {result : Unit}

@[simp] theorem requires_eq_ok {cond : Bool} {status : Status} :
    requires cond status = .ok result ↔ cond = true := by
  cases cond with
  | true => simp [requires, opRequires, Except.mapError]
  | false => simp [requires, opRequires, Except.mapError]

variable {shape : TensorShape}

theorem dimSize_eq_ok {d dim : Nat} : dimSize shape d = .ok dim ↔ shape[d]? = some dim := by
  unfold dimSize
  cases shape[d]? with
  | none => simp
  | some x => simp

theorem mapError_eq_ok {ε ε' α : Type} {x : Except ε α} {f : ε → ε'} {a : α} :
    x.mapError f = .ok a ↔ x = .ok a := by
  cases x with
  | error e => simp [Except.mapError]
  | ok b => simp [Except.mapError]

variable {index : IndexType} {indices updates : TensorShape}

theorem commonScatter_eq_ok {params : TensorShape} :
    commonScatter index params indices updates = .ok result ↔
      validateCommonScatter index params indices updates = .ok (.ok ()) := by
  unfold commonScatter
  split <;> simp_all

theorem unaryInitHelper_ok {shapeInput : IndexTensor (indexWidth index)}
    (ok : unaryInitHelper index indices updates shapeInput = .ok shape) :
    Accepted index shape indices updates ∧ shapeInput.numElements = shape.length ∧
      (updates.length : Int) - (indices.length - 1 : Nat) = shape.length - indices.getLastD 0 ∧
      ∀ i, i + (indices.length - 1) < updates.length →
        updates[i + (indices.length - 1)]? = shape[indices.getLastD 0 + i]? := by
  simp only [unaryInitHelper, bind_eq_ok, requires_eq_ok, mapError_eq_ok, exists_const,
    Except.ok.injEq, validateInputs, commonScatter_eq_ok, dimSize_eq_ok, beq_iff_eq] at ok
  obtain ⟨-, -, _, made, -, _, -, last, isLast, inner, _, dims, -, ⟨common, -, -⟩, rfl⟩ := ok
  have isLastD : indices.getLastD 0 = last := by
    rw [getLastD_eq_getLast?, getLast?_eq_getElem?, isLast]
    rfl
  rw [isLastD]
  refine ⟨accepted_of_ok common, ?_, inner, fun i lt => ?_⟩
  · have sized := shapeInput.sized
    rw [(TensorShape.makeShape_ok made).1, length_map, length_map]
    exact sized.symm
  · have each := forM_eq_ok.mp dims i (mem_range.mpr (by omega))
    simp only [bind_eq_ok, dimSize_eq_ok, requires_eq_ok, beq_iff_eq] at each
    obtain ⟨update, isUpdate, dim, isDim, rfl⟩ := each
    rw [isUpdate, isDim]

namespace UnaryCall

variable (s : UnaryCall)

/-- The shapes of an invocation that is not skipped. -/
structure Runs : Prop where
  indices_eq : s.indices = s.outer ++ [s.tupleLength]
  updates_eq : s.updates = s.outer ++ s.inner
  tupleLength_le : s.tupleLength ≤ s.shape.length
  shape_ne : s.shape ≠ []
  shape_pos : 0 < s.shape.numElements
  indices_pos : 0 < s.indices.numElements
  updates_pos : 0 < s.updates.numElements

theorem runs (runs : s.skipped = false) : s.Runs := by
  obtain ⟨ok, -, inner, -⟩ := unaryInitHelper_ok s.accepted
  have nonzero := mt isNoOpKernel_iff.mpr (by simpa [skipped] using runs)
  push Not at nonzero
  obtain ⟨inputs, outputs⟩ := nonzero
  have indices_ne : s.indices.numElements ≠ 0 := inputs s.indices (by simp)
  have shape_ne : s.shape.numElements ≠ 0 := outputs s.shape (by simp)
  have many : 1 < s.indices.length := by
    by_contra single
    have length := length_pos_iff.mpr ok.indices_ne
    obtain ⟨n, isSingle⟩ := length_eq_one_iff.mp (by omega : s.indices.length = 1)
    have updates := congrArg List.length ok.updates
    have params := length_pos_iff.mpr ok.params_ne
    have last : s.indices.getLastD 0 = n := by
      rw [isSingle]
      rfl
    simp only [batchDim, sliceDim, single, if_false, length_append, length_take,
      length_drop] at updates
    have empty : n = 0 := by omega
    apply indices_ne
    rw [isSingle, empty]
    rfl
  have slice : sliceDim s.indices = s.tupleLength := if_pos many
  have batch : batchDim s.indices = s.indices.length - 1 := if_pos many
  have updates := ok.updates
  rw [slice, batch, ← dropLast_eq_take] at updates
  exact
    { indices_eq := by
        have last := dropLast_concat_getLast ok.indices_ne
        rw [outer, tupleLength, getLastD_eq_getLast?, getLast?_eq_some_getLast ok.indices_ne]
        exact last.symm
      updates_eq := updates
      tupleLength_le := slice ▸ ok.sliceDim_le
      shape_ne := ok.params_ne
      updates_pos := Nat.pos_of_ne_zero (inputs s.updates (by simp))
      shape_pos := Nat.pos_of_ne_zero shape_ne
      indices_pos := Nat.pos_of_ne_zero indices_ne }

def readTuple (outer : List Nat) : Option (List Nat) :=
  (range s.tupleLength).mapM fun k => do
    let entry ← s.indicesValues[address (packedStrides s.indices) (outer ++ [k])]?
    if 0 ≤ entry.toInt ∧ entry.toInt < s.shape.getD k 0 then some entry.toInt.toNat else none

section Operator

variable {α : Type} [AddCommGroup α]

def packedOperator (updates : List α) : ScatterNdOperator α (indexWidth s.index) where
  params := ⟨s.shape, broadcastStrides s.shape⟩
  indices := ⟨s.indices, packedStrides s.indices⟩
  updates := ⟨s.updates, packedStrides s.updates⟩
  output := ⟨s.shape, packedStrides s.shape⟩
  paramsBuffer := [0]
  indicesBuffer := s.indicesValues
  updatesBuffer := updates

variable {s}

variable {updates : List α}

theorem operator_eq_some (runs : s.Runs) {op : ScatterNdOperator α (indexWidth s.index)} :
    s.operator updates = some op ↔
      (Describable s.shape ∧ Describable s.indices ∧ Describable s.updates) ∧
        op = s.packedOperator updates := by
  have rank : s.indices.length - 1 + (s.shape.length - s.indices.getLastD 0) =
      s.updates.length := by
    rw [runs.updates_eq, length_append, outer, length_dropLast, inner, length_drop]
    rfl
  have broadcast : (broadcastStrides s.shape).length = s.shape.length := length_map _
  simp only [operator, bind_eq_bind, bind_eq_some_iff,
    create_one_eq_some runs.shape_ne, create_self_eq_some, rank, Option.some.injEq]
  constructor
  · rintro ⟨_, ⟨shape, rfl⟩, _, ⟨indices, rfl⟩, _, ⟨updates, rfl⟩, _, ⟨-, rfl⟩, rfl⟩
    refine ⟨⟨shape, indices, updates⟩, ?_⟩
    simp only [trailing_leading broadcast, trailing_leading (length_packedStrides _)]
    rfl
  · rintro ⟨⟨shape, indices, updates⟩, rfl⟩
    refine ⟨_, ⟨shape, rfl⟩, _, ⟨indices, rfl⟩, _, ⟨updates, rfl⟩, _, ⟨shape, rfl⟩, ?_⟩
    simp only [trailing_leading broadcast, trailing_leading (length_packedStrides _)]
    rfl

theorem copies_eq (updates : List α) : (s.packedOperator updates).copies =
      some ((Lib.indices s.shape).map fun x =>
        ((address (packedStrides s.shape) x : Int), 0)) := by
  apply mapM_eq_some
  intro x mem
  have first : address (broadcastStrides s.shape) x = 0 := address_broadcastStrides mem
  simp [packedOperator, first]

theorem readTuple_mem (runs : s.Runs) {outer tuple rest : List Nat}
    (read : s.readTuple outer = some tuple) (mem : rest ∈ Lib.indices s.inner) :
    tuple ++ rest ∈ Lib.indices s.shape := by
  have xs := forall₂_of_mapM read
  have length := xs.length_eq
  rw [length_range] at length
  have lt : tuple ∈ Lib.indices (s.shape.take s.tupleLength) := by
    rw [mem_indices, forall₂_iff_get]
    have := runs.tupleLength_le
    refine ⟨by rw [length_take]; omega, fun k left right => ?_⟩
    obtain ⟨-, each⟩ := forall₂_iff_get.mp xs
    have entry := each k (by rw [length_range]; omega) left
    simp only [get_eq_getElem, getElem_range, bind_eq_bind,
      bind_eq_some_iff, ite_none_right_eq_some, Option.some.injEq] at entry
    obtain ⟨value, -, ⟨lower, upper⟩, same⟩ := entry
    rw [getD_eq_getElem _ _ (by omega)] at upper
    simp only [get_eq_getElem, getElem_take]
    omega
  have appended := append_mem_indices lt mem
  rwa [inner, take_append_drop] at appended

/-- The writes of the elements, with the tuples that are read for them. -/
def storedWrites (s : UnaryCall) (tuples : List Nat → List Nat) (updates : List α) :
    List (Int × α) :=
  s.elements.map fun update =>
    (address (packedStrides s.shape) (tuples update.1 ++ update.2),
      updates.getD (address (packedStrides s.updates) (update.1 ++ update.2)) 0)

variable {update : List Nat × List Nat}

theorem element_mem (runs : s.Runs) (mem : update ∈ s.elements) :
    update.1 ++ update.2 ∈ Lib.indices s.updates := by
  obtain ⟨outer, inner⟩ := mem_product.mp mem
  rw [runs.updates_eq]
  exact append_mem_indices outer inner

theorem writes_eq (runs : s.Runs) (sized : updates.length = s.updates.numElements)
    {tuples : List Nat → List Nat}
    (read : ∀ outer ∈ Lib.indices s.outer, s.readTuple outer = some (tuples outer)) :
    (s.packedOperator updates).writes = some (s.storedWrites tuples updates) := by
  apply mapM_eq_some
  intro update mem
  have inside := address_lt (element_mem runs mem)
  have tuple := read update.1 (mem_product.mp mem).1
  have value : updates[address (packedStrides s.updates) (update.1 ++ update.2)]? =
      some (updates.getD (address (packedStrides s.updates) (update.1 ++ update.2)) 0) := by
    rw [getElem?_eq_getElem (sized ▸ inside), getD_eq_getElem _ _ (sized ▸ inside)]
  have same : (s.packedOperator updates).tuple update.1 = s.readTuple update.1 := rfl
  rw [same, tuple]
  simp only [packedOperator, value]
  rfl

theorem read_of_writes {writes : List (Int × α)}
    (put : (s.packedOperator updates).writes = some writes) (mem : update ∈ s.elements) :
    ∃ tuple, s.readTuple update.1 = some tuple := by
  obtain ⟨k, lt, rfl⟩ := getElem_of_mem mem
  obtain ⟨length, each⟩ := forall₂_iff_get.mp (forall₂_of_mapM put)
  have entry := each k lt (length ▸ lt)
  simp only [bind_eq_bind, bind_eq_some_iff] at entry
  obtain ⟨tuple, read, -⟩ := entry
  exact ⟨tuple, read⟩

theorem exists_inner (runs : s.Runs) : ∃ rest, rest ∈ Lib.indices s.inner := by
  have length := length_indices s.inner
  have pos : 0 < s.inner.prod := by
    apply Nat.pos_of_ne_zero
    intro zero
    have mem := mem_of_mem_drop (prod_eq_zero_iff.mp zero)
    exact absurd (prod_eq_zero mem) (Nat.ne_of_gt runs.shape_pos)
  exact exists_mem_of_length_pos (length ▸ pos)

end Operator

/-- The descriptors can be made and address the whole output and all updates, the tuples are
    those that are read, and no two of them are equal. -/
structure Sound : Prop where
  shape : Describable s.shape
  indices : Describable s.indices
  updates : Describable s.updates
  shape_addressed : Addressed s.shape
  updates_addressed : Addressed s.updates
  read : ∀ outer ∈ Lib.indices s.outer, s.readTuple outer = some (s.tuple outer)
  distinct : ∀ outer ∈ Lib.indices s.outer, ∀ outer' ∈ Lib.indices s.outer,
    s.tuple outer = s.tuple outer' → outer = outer'

theorem readTuple_of_addressed {s : UnaryCall} (runs : s.Runs) (addr : Addressed s.indices)
    {outer : List Nat} (isOuter : outer ∈ Lib.indices s.outer) :
    s.readTuple outer = some (s.tuple outer) := by
  apply mapM_eq_some
  intro k mem
  have less := mem_range.mp mem
  have isIndex : outer ++ [k] ∈ Lib.indices s.indices := by
    rw [runs.indices_eq]
    exact append_mem_indices isOuter (by simp [Lib.indices, less])
  have lt : flatten s.indices (outer ++ [k]) < s.indicesValues.length := by
    rw [s.sized]
    exact flatten_lt isIndex
  have inRange := s.inRange outer isOuter k less
  rw [getD_eq_getElem _ _ lt] at inRange
  rw [addr _ isIndex, getElem?_eq_getElem lt, getD_eq_getElem _ _ lt]
  exact if_pos inRange

theorem sound_of_distinct {s : UnaryCall} (runs : s.Runs)
    (ranks : ∀ shape ∈ [s.shape, s.indices, s.updates], shape.length ≤ maxDimensionCount)
    (lt : ∀ shape ∈ [s.shape, s.indices, s.updates], shape.prod < 2 ^ 32)
    (distinct : ∀ outer ∈ Lib.indices s.outer, ∀ outer' ∈ Lib.indices s.outer,
      s.tuple outer = s.tuple outer' → outer = outer') : s.Sound := by
  have desc : ∀ shape ∈ [s.shape, s.indices, s.updates], Describable shape := by
    intro shape mem
    have pos : 0 < shape.prod := by
      simp only [mem_cons, not_mem_nil, or_false] at mem
      obtain rfl | rfl | rfl := mem
      · exact runs.shape_pos
      · exact runs.indices_pos
      · exact runs.updates_pos
    refine ⟨ranks shape mem, fun dim isDim => ?_⟩
    exact lt_of_le_of_lt (Nat.le_of_dvd pos (dvd_prod isDim)) (lt shape mem)
  exact
    { shape := desc s.shape (by simp)
      indices := desc s.indices (by simp)
      updates := desc s.updates (by simp)
      shape_addressed := addressed_of_lt (lt s.shape (by simp))
      updates_addressed := addressed_of_lt (lt s.updates (by simp))
      read := fun outer isOuter =>
        readTuple_of_addressed runs (addressed_of_lt (lt s.indices (by simp))) isOuter
      distinct := distinct }

section Comparison

variable {α : Type} [AddCommGroup α] {s}

theorem nodup_elements : s.elements.Nodup := (nodup_indices _).product (nodup_indices _)

theorem tuple_mem (runs : s.Runs) (outer : List Nat) (isOuter : outer ∈ Lib.indices s.outer)
    {rest : List Nat} (mem : rest ∈ Lib.indices s.inner) :
    s.tuple outer ++ rest ∈ Lib.indices s.shape := by
  have lt : s.tuple outer ∈ Lib.indices (s.shape.take s.tupleLength) := by
    have le := runs.tupleLength_le
    rw [mem_indices, forall₂_iff_get]
    refine ⟨by simp [tuple, le], fun k left right => ?_⟩
    have less : k < s.tupleLength := by simpa [tuple] using left
    obtain ⟨lower, upper⟩ := s.inRange outer isOuter k less
    rw [getD_eq_getElem s.shape _ (by omega)] at upper
    simp only [tuple, get_eq_getElem, getElem_map, getElem_range, getElem_take]
    omega
  have appended := append_mem_indices lt mem
  rwa [inner, take_append_drop] at appended

variable {update update' : List Nat × List Nat}

theorem placed_inj (runs : s.Runs) (mem : update ∈ s.elements) (member' : update' ∈ s.elements)
    (same : flatten s.shape (s.tuple update.1 ++ update.2) =
      flatten s.shape (s.tuple update'.1 ++ update'.2)) :
    s.tuple update.1 = s.tuple update'.1 ∧ update.2 = update'.2 := by
  obtain ⟨outer, rest⟩ := mem_product.mp mem
  obtain ⟨outer', rest'⟩ := mem_product.mp member'
  have eq := flatten_inj (tuple_mem runs _ outer rest) (tuple_mem runs _ outer' rest') same
  exact append_inj eq (by simp [tuple])

theorem element_inj (runs : s.Runs) (mem : update ∈ s.elements) (member' : update' ∈ s.elements)
    (same : flatten s.updates (update.1 ++ update.2) =
      flatten s.updates (update'.1 ++ update'.2)) : update = update' := by
  have eq := flatten_inj (element_mem runs mem) (element_mem runs member') same
  have lens : update.1.length = update'.1.length := by
    rw [length_of_mem_indices (mem_product.mp mem).1,
      length_of_mem_indices (mem_product.mp member').1]
  obtain ⟨outer, rest⟩ := append_inj eq lens
  exact Prod.ext outer rest

theorem storedWrites_eq_placed (runs : s.Runs) (sound : s.Sound) (updates : List α) :
    s.storedWrites s.tuple updates = s.placed updates := by
  apply map_congr_left
  intro update mem
  obtain ⟨outer, rest⟩ := mem_product.mp mem
  rw [sound.shape_addressed _ (tuple_mem runs _ outer rest),
    sound.updates_addressed _ (element_mem runs mem)]

theorem nodup_placed (runs : s.Runs) (sound : s.Sound) (updates : List α) :
    ((s.placed updates).map Prod.fst).Nodup := by
  rw [placed, List.map_map]
  refine List.Nodup.map_on ?_ nodup_elements
  intro update mem update' member' same
  obtain ⟨tuples, rest⟩ := placed_inj runs mem member' (Int.ofNat.inj same)
  have outer := sound.distinct _ (mem_product.mp mem).1 _ (mem_product.mp member').1
    tuples
  exact Prod.ext outer rest

theorem copied_eq {updates : List α} {copies : List (Int × α)} {copied : List (Option α)}
    (addr : Addressed s.shape) (isCopies : (s.packedOperator updates).copies = some copies)
    (put : Stored (replicate s.shape.prod none) copies copied) :
    copied = replicate s.shape.prod (some 0) := by
  rw [copies_eq, Option.some.injEq] at isCopies
  subst isCopies
  have length := put.length
  rw [length_replicate] at length
  apply ext_getElem?
  intro k
  by_cases inside : k < s.shape.prod
  · rw [getElem?_replicate, if_pos inside]
    apply put.hit (by simp)
    · rwa [length_replicate]
    · have inIndices : k < (Lib.indices s.shape).length := by rwa [length_indices]
      refine ⟨_, List.mem_map_of_mem (getElem_mem inIndices), ?_⟩
      rw [addr _ (getElem_mem inIndices), flatten_getElem_indices inIndices]
      rfl
  · rw [getElem?_eq_none (by omega), getElem?_eq_none (by simpa using inside)]

theorem equalsReference_of_sound (runs : s.Runs) (busy : s.skipped = false) (sound : s.Sound) :
    s.EqualsReference α := by
  intro updates sized
  have built : s.operator updates = some (s.packedOperator updates) :=
    (operator_eq_some runs).mpr ⟨⟨sound.shape, sound.indices, sound.updates⟩, rfl⟩
  have writes := writes_eq runs sized sound.read
  rw [storedWrites_eq_placed runs sound] at writes
  have result_iff : ∀ result, s.Result updates result ↔
      (s.packedOperator updates).Leaves result := by
    intro result
    simp [Result, busy, built]
  constructor
  · exact ⟨_, (result_iff _).mpr ⟨_, _, _, copies_eq updates, writes, stored_foldl _ _,
      stored_foldl _ _⟩⟩
  · intro result leaves
    obtain ⟨copies, copied, writes', isCopies, isWrites, zeros, put⟩ := (result_iff _).mp leaves
    rw [writes, Option.some.injEq] at isWrites
    subst isWrites
    rw [copied_eq sound.shape_addressed isCopies zeros] at put
    apply put.eq_accumulated (nodup_placed runs sound updates)
    intro write mem
    obtain ⟨update, -, rfl⟩ := List.mem_map.mp mem
    exact Int.natCast_nonneg _

def single (s : UnaryCall) (q : Nat) (x : α) : List α := (replicate s.updates.numElements 0).set q x

theorem length_single (q : Nat) (x : α) : (s.single q x).length = s.updates.numElements := by
  rw [single, length_set, length_replicate]

variable {q k : Nat}

theorem single_getD (x : α) (lt : k < s.updates.numElements) :
    (s.single q x).getD k 0 = if k = q then x else 0 := by
  rw [single, getD_eq_getElem _ _ (by simpa using lt), getElem_set]
  simp only [getElem_replicate, eq_comm]

theorem exists_element (runs : s.Runs) (lt : q < s.updates.numElements) :
    ∃ update ∈ s.elements, flatten s.updates (update.1 ++ update.2) = q := by
  have inIndices : q < (Lib.indices s.updates).length := by rwa [length_indices]
  have mem := mem_indices.mp (getElem_mem inIndices)
  have updates := runs.updates_eq
  have outer := forall₂_take s.outer.length mem
  have rest := forall₂_drop s.outer.length mem
  have takeOuter : s.updates.take s.outer.length = s.outer := by rw [updates, take_left]
  have dropOuter : s.updates.drop s.outer.length = s.inner := by rw [updates, drop_left]
  rw [takeOuter] at outer
  rw [dropOuter] at rest
  refine ⟨(_, _), mem_product.mpr ⟨mem_indices.mpr outer, mem_indices.mpr rest⟩, ?_⟩
  rw [take_append_drop, flatten_getElem_indices inIndices]

theorem getElem?_reference_single (runs : s.Runs) (mem : update ∈ s.elements) (x : α)
    (lt : k < s.shape.numElements) :
    (s.reference (s.single (flatten s.updates (update.1 ++ update.2)) x))[k]? =
      some (if k = flatten s.shape (s.tuple update.1 ++ update.2) then x else 0) := by
  have value : ∀ other ∈ s.elements, (s.single (flatten s.updates (update.1 ++ update.2)) x).getD
      (flatten s.updates (other.1 ++ other.2)) 0 = if other = update then x else 0 := by
    intro other isElement
    rw [single_getD x (flatten_lt (element_mem runs isElement))]
    by_cases same : other = update
    · rw [if_pos same, if_pos (by rw [same])]
    · rw [if_neg same, if_neg fun eq => same (element_inj runs isElement mem eq)]
  rw [reference, getElem?_accumulated lt, Option.some.injEq]
  by_cases here : k = flatten s.shape (s.tuple update.1 ++ update.2)
  · obtain ⟨pre, after, split⟩ := append_of_mem mem
    have differ := nodup_elements (s := s)
    rw [split, nodup_middle, nodup_cons] at differ
    have zeros : ∀ others : List (List Nat × List Nat), (∀ other ∈ others,
        other ∈ pre ++ after) → ∀ write ∈ others.map fun other =>
          ((flatten s.shape (s.tuple other.1 ++ other.2) : Int),
            (s.single (flatten s.updates (update.1 ++ update.2)) x).getD
              (flatten s.updates (other.1 ++ other.2)) 0), write.1 = k → write.2 = 0 := by
      intro others among write inWrites _
      obtain ⟨other, inOthers, rfl⟩ := List.mem_map.mp inWrites
      have inRest := among other inOthers
      have isElement : other ∈ s.elements := by
        rw [split]
        simp only [mem_append, mem_cons] at inRest ⊢
        tauto
      rw [value other isElement, if_neg]
      rintro rfl
      exact differ.1 inRest
    rw [if_pos here, placed, split, map_append, map_cons, sumAt_append, value _ mem,
      if_pos rfl, ← here, sumAt_cons_self,
      sumAt_zeros (zeros pre fun other inBefore => mem_append_left _ inBefore),
      sumAt_zeros (zeros after fun other inAfter => mem_append_right _ inAfter), zero_add, add_zero]
  · rw [if_neg here]
    apply sumAt_zeros
    intro write inWrites at_
    obtain ⟨other, isElement, rfl⟩ := List.mem_map.mp inWrites
    rw [value other isElement, if_neg]
    rintro rfl
    exact here (Int.ofNat.inj at_).symm

/-- The tuples that are read, where all of them are. -/
def readTuples (s : UnaryCall) (outer : List Nat) : List Nat := (s.readTuple outer).getD []

/-- A kernel that can be built, and that reads tuples in range. -/
structure Built (s : UnaryCall) : Prop where
  shape : Describable s.shape
  indices : Describable s.indices
  updates : Describable s.updates
  read : ∀ outer ∈ Lib.indices s.outer, s.readTuple outer = some (s.readTuples outer)

theorem built_of_result (runs : s.Runs) (busy : s.skipped = false) {updates : List α}
    {result : List (Option α)} (isResult : s.Result updates result) :
    s.Built ∧ (s.packedOperator updates).Leaves result := by
  rw [Result, busy] at isResult
  obtain ⟨op, isOperator, leaves⟩ := isResult
  obtain ⟨⟨shape, indices, desc⟩, rfl⟩ := (operator_eq_some runs).mp isOperator
  refine ⟨⟨shape, indices, desc, fun outer isOuter => ?_⟩, leaves⟩
  obtain ⟨-, -, writes, -, put, -⟩ := leaves
  obtain ⟨rest, isRest⟩ := exists_inner runs
  obtain ⟨tuple, read⟩ := read_of_writes put
    (mem_product.mpr ⟨isOuter, isRest⟩ : (outer, rest) ∈ s.elements)
  rw [readTuples, read, getD_some]

theorem result_of_stored (runs : s.Runs) (busy : s.skipped = false) (built : s.Built)
    (addr : Addressed s.shape) {updates : List α} (sized : updates.length = s.updates.numElements)
    {result : List (Option α)} (put : Stored (replicate s.shape.prod (some 0))
      (s.storedWrites s.readTuples updates) result) : s.Result updates result := by
  rw [Result, busy]
  refine ⟨_, (operator_eq_some runs).mpr ⟨⟨built.shape, built.indices, built.updates⟩, rfl⟩,
    _, replicate s.shape.prod (some 0), _, copies_eq updates,
    writes_eq runs sized built.read, ?_, put⟩
  have zeros := stored_foldl (replicate s.shape.prod none)
    ((Lib.indices s.shape).map fun x =>
      ((address (packedStrides s.shape) x : Int), (0 : α)))
  have copied := copied_eq addr (copies_eq updates) zeros
  exact copied ▸ zeros

theorem read_mem (runs : s.Runs) (built : s.Built) (mem : update ∈ s.elements) :
    s.readTuples update.1 ++ update.2 ∈ Lib.indices s.shape := by
  obtain ⟨outer, rest⟩ := mem_product.mp mem
  exact readTuple_mem runs (built.read _ outer) rest

theorem shape_addressed_of_equal (runs : s.Runs) (busy : s.skipped = false)
    (same : s.EqualsReference α) : Addressed s.shape := by
  apply (addressed_or_short s.shape).resolve_right
  intro short
  have sized : (replicate s.updates.numElements (0 : α)).length = s.updates.numElements :=
    length_replicate
  obtain ⟨⟨result, isResult⟩, only⟩ := same _ sized
  obtain ⟨built, copies, copied, writes, isCopies, isWrites, zeros, put⟩ :=
    built_of_result runs busy isResult
  rw [copies_eq, Option.some.injEq] at isCopies
  rw [writes_eq runs sized built.read, Option.some.injEq] at isWrites
  subst isCopies isWrites
  obtain ⟨update, isElement, -⟩ := exists_element runs runs.updates_pos
  have below := short _ (read_mem runs built isElement)
  have fresh : Stored (replicate s.shape.prod none) _ copied := zeros
  have last : result[s.shape.prod - 1]? = some none := by
    rw [put.other, fresh.other, getElem?_replicate, if_pos (by omega)]
    · intro write inWrites
      obtain ⟨element, inIndices, rfl⟩ := List.mem_map.mp inWrites
      have := short element inIndices
      simp only [Int.toNat_natCast]
      omega
    · intro write inWrites
      obtain ⟨other, inElements, rfl⟩ := List.mem_map.mp inWrites
      have := short _ (read_mem runs built inElements)
      simp only [Int.toNat_natCast]
      omega
  rw [only result isResult, getElem?_map] at last
  cases hit : (s.reference (replicate s.updates.numElements (0 : α)))[s.shape.prod - 1]? with
  | none => simp [hit] at last
  | some x => simp [hit] at last

theorem updates_addressed_of_equal [Nontrivial α] (runs : s.Runs) (busy : s.skipped = false)
    (eq : s.EqualsReference α) : Addressed s.updates := by
  obtain ⟨x, ne⟩ := exists_ne (0 : α)
  apply (addressed_or_short s.updates).resolve_right
  intro short
  have pos := runs.updates_pos
  obtain ⟨update, isElement, at_⟩ := exists_element runs (Nat.sub_lt pos one_pos)
  have sized := length_single (s := s) (s.updates.numElements - 1) x
  obtain ⟨⟨result, isResult⟩, only⟩ := eq _ sized
  obtain ⟨built, copies, copied, writes, isCopies, isWrites, zeros, put⟩ :=
    built_of_result runs busy isResult
  rw [copied_eq (shape_addressed_of_equal runs busy eq) isCopies zeros] at put
  rw [writes_eq runs sized built.read, Option.some.injEq] at isWrites
  subst isWrites
  have none : ∀ write ∈ s.storedWrites s.readTuples (s.single (s.updates.numElements - 1) x),
      write.2 = 0 := by
    intro write inWrites
    obtain ⟨other, inElements, rfl⟩ := List.mem_map.mp inWrites
    have below := short _ (element_mem runs inElements)
    have xs : prod s.updates = s.updates.numElements := rfl
    rw [single_getD x (by omega), if_neg (by omega)]
  have lt := flatten_lt (tuple_mem runs _ (mem_product.mp isElement).1
    (mem_product.mp isElement).2)
  have kept := put.keep none (k := flatten s.shape (s.tuple update.1 ++ update.2))
    (by rw [getElem?_replicate, if_pos lt])
  rw [only result isResult, getElem?_map, ← at_,
    getElem?_reference_single runs isElement x lt, if_pos rfl] at kept
  exact ne (some.inj (some.inj kept))

theorem position_of_equal [Nontrivial α] (runs : s.Runs) (busy : s.skipped = false)
    (eq : s.EqualsReference α) (built : s.Built) (mem : update ∈ s.elements) :
    flatten s.shape (s.readTuples update.1 ++ update.2) =
        flatten s.shape (s.tuple update.1 ++ update.2) ∧ ∀ other ∈ s.elements, other ≠ update →
        flatten s.shape (s.readTuples other.1 ++ other.2) ≠
          flatten s.shape (s.tuple update.1 ++ update.2) := by
  obtain ⟨x, ne⟩ := exists_ne (0 : α)
  have shape := shape_addressed_of_equal runs busy eq
  have updates := updates_addressed_of_equal runs busy eq
  have sized := length_single (s := s) (flatten s.updates (update.1 ++ update.2)) x
  obtain ⟨pre, after, split⟩ := append_of_mem mem
  have differ := nodup_elements (s := s)
  rw [split, nodup_middle, nodup_cons] at differ
  -- The single update is stored first, and all others, which are zero, after it.
  let write := fun other : List Nat × List Nat =>
    ((flatten s.shape (s.readTuples other.1 ++ other.2) : Int), if other = update then x else 0)
  have writes : s.storedWrites s.readTuples
      (s.single (flatten s.updates (update.1 ++ update.2)) x) = s.elements.map write := by
    apply map_congr_left
    intro other isElement
    have same : flatten s.updates (other.1 ++ other.2) = flatten s.updates (update.1 ++ update.2) ↔
        other = update := ⟨element_inj runs isElement mem, fun eq => by rw [eq]⟩
    rw [shape _ (read_mem runs built isElement), updates _ (element_mem runs isElement),
      single_getD x (flatten_lt (element_mem runs isElement))]
    simp only [same, write]
  have perm : (write update :: (pre ++ after).map write).Perm (s.elements.map write) := by
    rw [split, map_append, map_append, map_cons]
    exact perm_middle.symm
  have zeros : ∀ later ∈ (pre ++ after).map write, later.2 = 0 := by
    intro later inLater
    obtain ⟨other, inRest, rfl⟩ := List.mem_map.mp inLater
    simp only [write]
    rw [if_neg]
    rintro rfl
    exact differ.1 inRest
  have isResult := result_of_stored runs busy built shape sized
    ⟨_, writes ▸ perm, rfl⟩
  have lt := flatten_lt (tuple_mem runs _ (mem_product.mp mem).1
    (mem_product.mp mem).2)
  have found := (eq _ sized).2 _ isResult
  replace found := congrArg (·[flatten s.shape (s.tuple update.1 ++ update.2)]?) found
  simp only [getElem?_map, getElem?_reference_single runs mem x lt, if_true,
    map_some, foldl_cons] at found
  have length : (put (replicate s.shape.prod (some (0 : α))) (write update)).length =
      s.shape.prod := by
    rw [put, length_set, length_replicate]
  have contradicts : ∀ y : Option (Option α), y = some (some 0) → y ≠ some (some x) := by
    rintro _ rfl same
    exact ne (some.inj (some.inj same)).symm
  constructor
  · by_contra elsewhere
    refine contradicts _ (foldl_put_keep zeros ?_) found
    rw [put, getElem?_set_ne (by simpa [write] using elsewhere), getElem?_replicate, if_pos lt]
  · intro other isElement isOther at_
    refine contradicts _ (foldl_put_hit zeros (length.symm ▸ lt :) ⟨write other, ?_, ?_⟩) found
    · apply List.mem_map_of_mem
      rw [split] at isElement
      simpa [isOther] using isElement
    · simpa [write] using at_

theorem sound_of_equal [Nontrivial α] (runs : s.Runs) (busy : s.skipped = false)
    (eq : s.EqualsReference α) : s.Sound := by
  obtain ⟨⟨result, isResult⟩, -⟩ := eq (replicate _ 0) length_replicate
  obtain ⟨built, -⟩ := built_of_result runs busy isResult
  obtain ⟨rest, isRest⟩ := exists_inner runs
  have position : ∀ outer ∈ Lib.indices s.outer, _ := fun outer isOuter =>
    position_of_equal runs busy eq built
      (mem_product.mpr ⟨isOuter, isRest⟩ : (outer, rest) ∈ s.elements)
  have readTuple : ∀ outer ∈ Lib.indices s.outer, s.readTuples outer = s.tuple outer := by
    intro outer isOuter
    have same := flatten_inj (readTuple_mem runs (built.read outer isOuter) isRest)
      (tuple_mem runs outer isOuter isRest) (position outer isOuter).1
    exact append_cancel_right same
  exact
    { shape := built.shape
      indices := built.indices
      updates := built.updates
      shape_addressed := shape_addressed_of_equal runs busy eq
      updates_addressed := updates_addressed_of_equal runs busy eq
      read := fun outer isOuter => readTuple outer isOuter ▸ built.read outer isOuter
      distinct := by
        intro outer isOuter outer' isOuter' same
        by_contra differ
        refine (position outer isOuter).2 (outer', rest)
          (mem_product.mpr ⟨isOuter', isRest⟩) (fun eq => differ ?_) ?_
        · exact (Prod.mk.inj eq).1.symm
        · rw [readTuple outer' isOuter', same] }

theorem empty_of_skipped (skip : s.skipped = true) : s.shape.numElements = 0 ∨ s.elements = [] := by
  obtain ⟨acc, shapeInput, -, dims⟩ := unaryInitHelper_ok s.accepted
  have positive := length_pos_iff.mpr acc.params_ne
  have ne := acc.nonempty
  have isEmpty := isNoOpKernel_iff.mp skip
  have shapeElements : s.shapeInput.shape.numElements = s.shape.length := shapeInput
  simp only [mem_cons, not_mem_nil, or_false, exists_eq_or_imp, exists_eq_left,
    shapeElements] at isEmpty
  have none : s.indices.numElements = 0 ∧ s.updates.numElements = 0 := by
    simp only [validEmptyOutputShape] at ne
    split at ne
    · rename_i both
      simpa using both
    · simp only [Bool.and_eq_true, bne_iff_ne] at ne
      omega
  have rank := length_pos_iff.mpr acc.indices_ne
  by_cases several : 1 < s.indices.length
  · right
    have updates := acc.updates
    rw [sliceDim, if_pos several, batchDim, if_pos several, ← dropLast_eq_take] at updates
    have product : s.outer.prod * s.inner.prod = 0 := by
      rw [← prod_append]
      exact (congrArg prod updates).symm.trans none.2
    apply length_eq_zero_iff.mp
    rw [elements, length_product, length_indices, length_indices, product]
  · left
    obtain ⟨n, isSingle⟩ := length_eq_one_iff.mp (by omega : s.indices.length = 1)
    have zero : n = 0 := by simpa [isSingle, TensorShape.numElements] using none.1
    subst zero
    have updates := acc.updates
    simp only [isSingle, batchDim, sliceDim, length_singleton, lt_self_iff_false, if_false,
      take_succ_cons, take_zero, singleton_append] at updates
    have first := dims 0 (by simp [isSingle, updates])
    simp only [isSingle, updates, length_singleton, Nat.sub_self, add_zero,
      getElem?_cons_zero, getLastD_cons, getLastD_nil] at first
    exact prod_eq_zero (mem_of_getElem? first.symm)

theorem equalsReference_of_skipped (skip : s.skipped = true) : s.EqualsReference α := by
  intro updates sized
  have result_iff : ∀ result, s.Result updates result ↔ result = zeroed s.shape := by
    intro result
    simp [Result, skip]
  have reference : (zeroed s.shape : List (Option α)) = (s.reference updates).map some := by
    cases empty_of_skipped skip with
    | inl noOutput =>
      rw [zeroed_of_empty noOutput, UnaryCall.reference, noOutput]
      rfl
    | inr noElements =>
      have zero : ∀ k, sumAt (s.placed updates) k = 0 := by
        intro k
        rw [placed, noElements]
        rfl
      rw [zeroed, UnaryCall.reference, accumulated]
      simp [zero]
  exact ⟨⟨_, (result_iff _).mpr rfl⟩, fun result is => ((result_iff _).mp is).trans reference⟩

/-- The op has the sums of the updates exactly if it has nothing to do, or the descriptors
    reach all elements and no two tuples are equal. -/
theorem equalsReference_iff_sound (α : Type) [AddCommGroup α] [Nontrivial α] (s : UnaryCall) :
    s.EqualsReference α ↔ s.skipped = true ∨ s.Sound := by
  cases isSkipped : s.skipped with
  | true => exact iff_of_true (equalsReference_of_skipped isSkipped) (Or.inl rfl)
  | false =>
    have runs := s.runs isSkipped
    constructor
    · exact fun eq => Or.inr (sound_of_equal runs isSkipped eq)
    · rintro (absurd_ | sound)
      · exact absurd absurd_ Bool.false_ne_true
      · exact equalsReference_of_sound runs isSkipped sound

end Comparison

end UnaryCall

def distinctRows : UnaryCall where
  index := .int32
  indices := [2, 1]
  updates := [2, 2]
  shapeInput := ⟨[2], [3#32, 2#32], rfl⟩
  shape := [3, 2]
  indicesValues := [2#32, 0#32]
  accepted := rfl
  sized := rfl
  inRange := by decide

theorem distinctRows_equalsReference : distinctRows.EqualsReference ℤ := by
  apply (UnaryCall.equalsReference_iff_sound ℤ distinctRows).mpr
  exact Or.inr (UnaryCall.sound_of_distinct (distinctRows.runs (by decide)) (by decide) (by decide)
    (by decide))

def sameElement : UnaryCall where
  index := .int32
  indices := [2, 1]
  updates := [2]
  shapeInput := ⟨[1], [3#32], rfl⟩
  shape := [3]
  indicesValues := [1#32, 1#32]
  accepted := rfl
  sized := rfl
  inRange := by decide

theorem sameElement_not_equalsReference : ¬ sameElement.EqualsReference ℤ := by
  intro eq
  have sound := UnaryCall.sound_of_equal (sameElement.runs (by decide)) (by decide) eq
  exact absurd (sound.distinct [0] (by decide) [1] (by decide) (by decide)) (by decide)

end TfDml.ScatterNd
