import TfDml.Core.TensorDesc
import TfDml.Kernels.GatherNd

/-! # What GatherNd computes

The kernel flattens the params to the dimensions that a tuple names and the rest in one, and
the indices and the output to matrices. If a tuple names nothing, it tiles the params.
-/

namespace TfDml.GatherNd

open Lib
open List hiding flatten
open DmlTensorDesc
open TensorShape

variable {α : Type}

/-- `dml::GatherND`, as documented. -/
def dmlGatherNd (params indices : DmlTensorDesc) (paramsBuffer : List α) (indicesBuffer : List Int) :
    Option (List α) :=
  let tupleLength := indices.sizes.getLastD 0
  (Lib.indices indices.sizes.dropLast ×ˢ Lib.indices (params.sizes.drop tupleLength)).mapM
    fun element => do
      let tuple ← (range tupleLength).mapM fun k => do
        let entry ← indicesBuffer[address indices.strides (element.1 ++ [k])]?
        -- Nothing is promised for entries that are out of range.
        if 0 ≤ entry ∧ entry < params.sizes.getD k 0 then some entry.toNat else none
      paramsBuffer[address params.strides (tuple ++ element.2)]?

def dmlTile (input : DmlTensorDesc) (repeats : List Nat) (buffer : List α) : Option (List α) :=
  (Lib.indices (zipWith (· * ·) input.sizes repeats)).mapM fun element =>
    buffer[address input.strides (zipWith (· % ·) element input.sizes)]?

/-- The graph of the kernel, on the buffers of the params and of the indices. -/
def Operator.run (paramsBuffer : List α) (indicesBuffer : List Int) : Operator → Option (List α)
  | .tile params output repeats => do
    let paramsDesc ← create params.shape params.shape
    let _ ← create output.shape output.shape
    dmlTile paramsDesc [repeats, 1, 1, 1] paramsBuffer
  | .gatherNd params indices output inputRank indicesRank => do
    let paramsDesc ← create params.shape params.shape
    let _ ← create output.shape output.shape
    let indicesDesc ← create indices.shape indices.shape
    dmlGatherNd (paramsDesc.trailing inputRank) (indicesDesc.trailing indicesRank) paramsBuffer
      indicesBuffer

/-- What the checks of the helper leave, besides the limits of the index type. -/
structure Accepted (params indices : TensorShape) : Prop where
  indices_ne : indices ≠ []
  last_le : indices.getLastD 0 ≤ params.length
  last_lt : indices.getLastD 0 < 8
  leading_le : indices.dropLast.prod ≤ 2 ^ 31 - 1
  nonempty : indices.numElements = 0 ∨ params.numElements ≠ 0

theorem accepted_of_validate {tindices : IndexType} {params indices : TensorShape}
    (ok : validate tindices params indices = .ok ()) : Accepted params indices := by
  simp only [validate, bind_eq_ok, opRequires_eq_ok, exists_const, decide_eq_true_eq,
    Bool.or_eq_true, isVectorOrHigher, Bool.not_eq_true', isEmpty_eq_false_iff]
    at ok
  obtain ⟨-, indices_ne, last_le, leading_le, -, -, last_lt, some_⟩ := ok
  exact ⟨indices_ne, last_le, last_lt, leading_le, some_⟩

structure GatherNdCall where
  node : Node
  params : TensorShape
  indices : TensorShape
  indicesValues : List Int
  accepted : Accepted params indices
  sized : indicesValues.length = indices.numElements
  inRange : ∀ outer ∈ Lib.indices indices.dropLast, ∀ k < indices.getLastD 0,
    0 ≤ indicesValues.getD (flatten indices (outer ++ [k])) 0 ∧
      indicesValues.getD (flatten indices (outer ++ [k])) 0 < params.getD k 0

namespace GatherNdCall

variable (c : GatherNdCall)

def tupleLength : Nat := c.indices.getLastD 0

def leadingDims : Nat := c.indices.dropLast.prod

def lastParamsDim : Nat := (c.params.drop c.tupleLength).prod

/-- What the kernel leaves in the output, if it is not skipped. -/
def kernel (values : List α) : Option (List α) :=
  (operator c.node ⟨c.node.dtype, c.params⟩ ⟨c.node.tindices.dtype, c.indices⟩).run values
    c.indicesValues

def tuple (outer : List Nat) : List Nat :=
  (range c.tupleLength).map fun k =>
    (c.indicesValues.getD (flatten c.indices (outer ++ [k])) 0).toNat

/-- Each element of the output is the one of the params that its tuple and its place in the
    slice name. -/
structure Gathered (values output : List α) : Prop where
  length : output.length = (resultShape c.params c.indices).numElements
  elements : ∀ outer ∈ Lib.indices c.indices.dropLast,
    ∀ inner ∈ Lib.indices (c.params.drop c.tupleLength),
      output[flatten (resultShape c.params c.indices) (outer ++ inner)]? =
        values[flatten c.params (c.tuple outer ++ inner)]?

/-- The kernel is skipped only if the output is empty, and otherwise it gathers. -/
def EqualsReference (α : Type) : Prop :=
  (isNoOp c.params c.indices = true → (resultShape c.params c.indices).numElements = 0) ∧
    (isNoOp c.params c.indices = false → ∀ values : List α, values.length = c.params.numElements →
      ∃ output, c.kernel values = some output ∧ c.Gathered values output)

theorem flatParamsShape_eq :
    flatParamsShape c.params c.tupleLength = c.params.take c.tupleLength ++ [c.lastParamsDim] := by
  have le : c.tupleLength ≤ c.params.length := c.accepted.last_le
  rw [flatParamsShape]
  congr 1
  apply ext_getElem
  · simp [le]
  · intro i left right
    have lt : i < c.params.length := by
      rw [length_map, length_range] at left
      omega
    simp [getElem_map, lt]

theorem indices_eq : c.indices = c.indices.dropLast ++ [c.tupleLength] := by
  have last := dropLast_concat_getLast c.accepted.indices_ne
  rw [tupleLength, getLastD_eq_getLast?, getLast?_eq_some_getLast c.accepted.indices_ne]
  exact last.symm

def missingDims : List Nat := replicate ((flatParamsShape c.params c.tupleLength).length - 2) 1

def flatIndices : TensorShape := c.missingDims ++ [c.leadingDims, c.tupleLength]

def flatOutput : TensorShape := c.missingDims ++ [c.leadingDims, c.lastParamsDim]

theorem length_flatParamsShape :
    (flatParamsShape c.params c.tupleLength).length = c.tupleLength + 1 := by
  simp [flatParamsShape]

variable {rest : List Nat}

theorem addressed_ones (addr : Addressed rest) (n : Nat) : Addressed (replicate n 1 ++ rest) := by
  induction n with
  | zero => exact addr
  | succ n ih => exact addressed_cons ih (Or.inl (le_refl 1))

theorem flatIndices_eq : c.flatIndices = (c.missingDims ++ [c.leadingDims]) ++ [c.tupleLength] := by
  rw [flatIndices, append_assoc, singleton_append]

theorem flatIndices_addressed : Addressed c.flatIndices := by
  have last := c.accepted.last_lt
  apply addressed_ones
  apply addressed_cons (addressed_of_lt ?_) (Or.inr ?_)
  · simp only [prod_singleton, tupleLength]
    omega
  · simp only [prod_singleton, tupleLength]
    omega

theorem describable_flat {dim : Nat} (lt : dim < 2 ^ 32) :
    Describable (c.missingDims ++ [c.leadingDims, dim]) := by
  have last : c.tupleLength < 8 := c.accepted.last_lt
  have leading : c.leadingDims ≤ 2 ^ 31 - 1 := c.accepted.leading_le
  constructor
  · simp only [missingDims, length_flatParamsShape, length_append, length_replicate,
      length_cons, length_nil, maxDimensionCount]
    omega
  · intro d mem
    simp only [missingDims, mem_append, mem_replicate, mem_cons, not_mem_nil, or_false] at mem
    omega

variable {c}

theorem exists_index {sizes : List Nat} {u : Nat} (lt : u < sizes.prod) :
    ∃ index ∈ Lib.indices sizes, flatten sizes index = u := by
  have inIndices : u < (Lib.indices sizes).length := by rwa [length_indices]
  exact ⟨_, getElem_mem inIndices, flatten_getElem_indices inIndices⟩

theorem prod_rows : (c.missingDims ++ [c.leadingDims]).prod = c.leadingDims := by simp [missingDims]

variable {outer : List Nat} {k : Nat}

theorem entry_mem (isOuter : outer ∈ Lib.indices c.indices.dropLast) (less : k < c.tupleLength) :
    outer ++ [k] ∈ Lib.indices c.indices := by
  have isEntry : [k] ∈ Lib.indices [c.tupleLength] := by simp [Lib.indices, less]
  have appended := append_mem_indices isOuter isEntry
  rwa [← c.indices_eq] at appended

theorem flatten_entry (isOuter : outer ∈ Lib.indices c.indices.dropLast) :
    flatten c.indices (outer ++ [k]) =
      flatten c.indices.dropLast outer * c.tupleLength + flatten [c.tupleLength] [k] := by
  have appended := @flatten_append _ [c.tupleLength] _ [k]
    (length_of_mem_indices isOuter)
  rwa [← c.indices_eq, prod_singleton] at appended

variable {row : List Nat}

theorem address_entry (isRow : row ∈ Lib.indices (c.missingDims ++ [c.leadingDims]))
    (isOuter : outer ∈ Lib.indices c.indices.dropLast)
    (same : flatten (c.missingDims ++ [c.leadingDims]) row = flatten c.indices.dropLast outer)
    (less : k < c.tupleLength) :
    address (packedStrides c.flatIndices) (row ++ [k]) = flatten c.indices (outer ++ [k]) := by
  have isEntry : [k] ∈ Lib.indices [c.tupleLength] := by simp [Lib.indices, less]
  rw [c.flatIndices_addressed _ (c.flatIndices_eq ▸ append_mem_indices isRow isEntry),
    c.flatIndices_eq,
    flatten_append (length_of_mem_indices isRow), flatten_entry isOuter, same, prod_singleton]

theorem tuple_mem (isOuter : outer ∈ Lib.indices c.indices.dropLast) :
    c.tuple outer ∈ Lib.indices (c.params.take c.tupleLength) := by
  have le : c.tupleLength ≤ c.params.length := c.accepted.last_le
  rw [mem_indices, forall₂_iff_get]
  refine ⟨by simp [tuple, le], fun k left right => ?_⟩
  have less : k < c.tupleLength := by simpa [tuple] using left
  obtain ⟨lower, upper⟩ := c.inRange outer isOuter k less
  rw [getD_eq_getElem c.params _ (by omega)] at upper
  simp only [tuple, get_eq_getElem, getElem_map, getElem_range, getElem_take]
  omega

theorem readTuple_eq (isRow : row ∈ Lib.indices (c.missingDims ++ [c.leadingDims]))
    (isOuter : outer ∈ Lib.indices c.indices.dropLast)
    (same : flatten (c.missingDims ++ [c.leadingDims]) row = flatten c.indices.dropLast outer) :
    ((range c.tupleLength).mapM fun k => do
      let entry ← c.indicesValues[address (packedStrides c.flatIndices) (row ++ [k])]?
      if 0 ≤ entry ∧ entry < (flatParamsShape c.params c.tupleLength).getD k 0
      then some entry.toNat else none) = some (c.tuple outer) := by
  have le : c.tupleLength ≤ c.params.length := c.accepted.last_le
  apply mapM_eq_some
  intro k mem
  have less := mem_range.mp mem
  have inside : flatten c.indices (outer ++ [k]) < c.indicesValues.length := by
    rw [c.sized]
    exact flatten_lt (entry_mem isOuter less)
  have dim : (flatParamsShape c.params c.tupleLength).getD k 0 = c.params.getD k 0 := by
    rw [c.flatParamsShape_eq, getD_eq_getElem _ _ (by simp; omega),
      getD_eq_getElem _ _ (by omega), getElem_append_left (by simp; omega), getElem_take]
  have lt := c.inRange outer isOuter k less
  rw [getD_eq_getElem _ _ inside] at lt
  rw [address_entry isRow isOuter same less, getElem?_eq_getElem inside, dim,
    getD_eq_getElem _ _ inside]
  exact if_pos lt

theorem resultShape_eq :
    resultShape c.params c.indices = c.indices.dropLast ++ c.params.drop c.tupleLength := rfl

theorem flatten_result {inner : List Nat} (isOuter : outer ∈ Lib.indices c.indices.dropLast) :
    flatten (resultShape c.params c.indices) (outer ++ inner) =
      flatten c.indices.dropLast outer * c.lastParamsDim +
        flatten (c.params.drop c.tupleLength) inner := by
  rw [resultShape_eq, flatten_append (length_of_mem_indices isOuter), lastParamsDim]

variable {rowSizes : List Nat}

theorem gathered_of_rows {values output : List α} {xs : List (List Nat × List Nat)}
    {f : List Nat × List Nat → Option α} (rows : rowSizes.prod = c.leadingDims)
    (isElements : xs = Lib.indices rowSizes ×ˢ Lib.indices [c.lastParamsDim])
    (length : output.length = xs.length)
    (each : ∀ (i : Nat) (x : List Nat × List Nat), xs[i]? = some x → output[i]? = f x)
    (value : ∀ row ∈ Lib.indices rowSizes, ∀ outer ∈ Lib.indices c.indices.dropLast,
      flatten rowSizes row = flatten c.indices.dropLast outer →
      ∀ rest ∈ Lib.indices [c.lastParamsDim],
        f (row, rest) = values[flatten (c.params.take c.tupleLength) (c.tuple outer) *
          c.lastParamsDim + flatten [c.lastParamsDim] rest]?) : c.Gathered values output := by
  constructor
  · rw [length, isElements, length_product, length_indices, length_indices, rows,
      prod_singleton, resultShape_eq, numElements, prod_append]
    rfl
  · intro outer isOuter inner isInner
    obtain ⟨row, isRow, sameRow⟩ := exists_index (rows ▸ flatten_lt isOuter :
      flatten c.indices.dropLast outer < rowSizes.prod)
    obtain ⟨rest, isRest, sameRest⟩ := @exists_index [c.lastParamsDim]
      (flatten (c.params.drop c.tupleLength) inner)
      (by rw [prod_singleton]; exact flatten_lt isInner)
    have got := getElem?_product_flatten isRow isRest
    rw [sameRow, sameRest, prod_singleton, ← isElements] at got
    have params := @flatten_append _ (c.params.drop c.tupleLength) _ inner
      (length_of_mem_indices (tuple_mem isOuter))
    rw [take_append_drop] at params
    rw [flatten_result isOuter, each _ _ got, value row isRow outer isOuter sameRow rest isRest,
      params, sameRest]
    rfl

theorem prod_params :
    (c.params.take c.tupleLength).prod * c.lastParamsDim = c.params.numElements := by
  rw [lastParamsDim, ← prod_append, take_append_drop, numElements]

theorem position_lt (isOuter : outer ∈ Lib.indices c.indices.dropLast)
    (isRest : rest ∈ Lib.indices [c.lastParamsDim]) :
    flatten (c.params.take c.tupleLength) (c.tuple outer) * c.lastParamsDim +
      flatten [c.lastParamsDim] rest < c.params.numElements := by
  have both := flatten_lt (append_mem_indices (tuple_mem isOuter) isRest)
  rwa [flatten_append (length_of_mem_indices (tuple_mem isOuter)), prod_append,
    prod_singleton, prod_params] at both

theorem exists_outer (rows : rowSizes.prod = c.leadingDims) (isRow : row ∈ Lib.indices rowSizes) :
    ∃ outer ∈ Lib.indices c.indices.dropLast,
      flatten rowSizes row = flatten c.indices.dropLast outer := by
  have lt := flatten_lt isRow
  rw [rows] at lt
  obtain ⟨outer, isOuter, same⟩ := exists_index lt
  exact ⟨outer, isOuter, same.symm⟩

theorem operator_gatherNd (named : c.tupleLength ≠ 0) :
    operator c.node ⟨c.node.dtype, c.params⟩ ⟨c.node.tindices.dtype, c.indices⟩ =
      .gatherNd ⟨c.node.dtype, flatParamsShape c.params c.tupleLength⟩
        ⟨c.node.tindices.dtype, c.flatIndices⟩ ⟨c.node.dtype, c.flatOutput⟩
        (flatParamsShape c.params c.tupleLength).length c.flatIndices.length := if_neg named

theorem kernel_gatherNd (named : c.tupleLength ≠ 0)
    (desc : Describable (flatParamsShape c.params c.tupleLength))
    (addr : Addressed (flatParamsShape c.params c.tupleLength)) {values : List α}
    (sized : values.length = c.params.numElements) :
    ∃ output, c.kernel values = some output ∧ c.Gathered values output := by
  have lastParams : c.lastParamsDim < 2 ^ 32 := desc.dims _ (by rw [c.flatParamsShape_eq]; simp)
  have lastIndices : c.tupleLength < 2 ^ 32 := lt_trans c.accepted.last_lt (by decide)
  have built : c.kernel values = dmlGatherNd
      ⟨flatParamsShape c.params c.tupleLength,
        packedStrides (flatParamsShape c.params c.tupleLength)⟩
      ⟨c.flatIndices, packedStrides c.flatIndices⟩ values c.indicesValues := by
    have params := create_self_eq_some.mpr ⟨desc, rfl⟩
    have output := create_self_eq_some.mpr ⟨c.describable_flat lastParams, rfl⟩
    have indices := create_self_eq_some.mpr ⟨c.describable_flat lastIndices, rfl⟩
    rw [kernel, operator_gatherNd named, Operator.run, flatOutput, params, output, flatIndices,
      indices]
    simp only [Option.bind_eq_bind, Option.bind_some, trailing_leading (length_packedStrides _)]
  have restSizes : (flatParamsShape c.params c.tupleLength).drop c.tupleLength =
      [c.lastParamsDim] := by
    have le : c.tupleLength ≤ c.params.length := c.accepted.last_le
    rw [c.flatParamsShape_eq, drop_left' (by simpa using le)]
  have position : ∀ outer ∈ Lib.indices c.indices.dropLast, ∀ rest ∈ Lib.indices [c.lastParamsDim],
        address (packedStrides (flatParamsShape c.params c.tupleLength)) (c.tuple outer ++ rest) =
          flatten (c.params.take c.tupleLength) (c.tuple outer) * c.lastParamsDim +
            flatten [c.lastParamsDim] rest := by
    intro outer isOuter rest isRest
    have isParam := append_mem_indices (tuple_mem isOuter) isRest
    rw [← c.flatParamsShape_eq] at isParam
    rw [addr _ isParam, c.flatParamsShape_eq,
      flatten_append (length_of_mem_indices (tuple_mem isOuter)), prod_singleton]
  rw [built, dmlGatherNd, c.flatIndices_eq, dropLast_concat, getLastD_concat, restSizes]
  obtain ⟨output, mapped, length, each⟩ := exists_mapM_eq_some
    (l := Lib.indices (c.missingDims ++ [c.leadingDims]) ×ˢ Lib.indices [c.lastParamsDim])
    (f := fun x => do
      let tuple ← (range c.tupleLength).mapM fun k => do
        let entry ← c.indicesValues[address (packedStrides c.flatIndices) (x.1 ++ [k])]?
        if 0 ≤ entry ∧ entry < (flatParamsShape c.params c.tupleLength).getD k 0
        then some entry.toNat else none
      values[address (packedStrides (flatParamsShape c.params c.tupleLength))
        (tuple ++ x.2)]?) (by
      intro x mem
      obtain ⟨isRow, isRest⟩ := mem_product.mp mem
      obtain ⟨outer, isOuter, same⟩ := exists_outer prod_rows isRow
      have inside := position_lt isOuter isRest
      rw [readTuple_eq isRow isOuter same, Option.bind_eq_bind, Option.bind_some,
        position outer isOuter _ isRest]
      exact ⟨_, getElem?_eq_getElem (sized ▸ inside)⟩)
  refine ⟨output, c.flatIndices_eq ▸ mapped, gathered_of_rows prod_rows rfl length each ?_⟩
  intro row isRow outer isOuter same rest isRest
  rw [readTuple_eq isRow isOuter same, Option.bind_eq_bind, Option.bind_some,
    position outer isOuter _ isRest]

theorem operator_tile (unnamed : c.tupleLength = 0) :
    operator c.node ⟨c.node.dtype, c.params⟩ ⟨c.node.tindices.dtype, c.indices⟩ =
      .tile ⟨c.node.dtype, flatParamsShape c.params c.tupleLength⟩ ⟨c.node.dtype, c.flatOutput⟩
        c.leadingDims := if_pos unnamed

theorem kernel_tile (unnamed : c.tupleLength = 0)
    (desc : Describable (flatParamsShape c.params c.tupleLength)) {values : List α}
    (sized : values.length = c.params.numElements) :
    ∃ output, c.kernel values = some output ∧ c.Gathered values output := by
  have lastParams : c.lastParamsDim < 2 ^ 32 := desc.dims _ (by rw [c.flatParamsShape_eq]; simp)
  have flat : flatParamsShape c.params c.tupleLength = [c.lastParamsDim] := by
    rw [c.flatParamsShape_eq, unnamed, take_zero, nil_append]
  have built : c.kernel values =
      dmlTile ⟨[1, 1, 1, c.lastParamsDim], [0, 0, 0, 1]⟩ [c.leadingDims, 1, 1, 1] values := by
    have params := create_self_eq_some.mpr ⟨desc, rfl⟩
    have output := create_self_eq_some.mpr ⟨c.describable_flat lastParams, rfl⟩
    rw [kernel, operator_tile unnamed, Operator.run, flatOutput, params, output, flat]
    rfl
  have sizes : zipWith (· * ·) [1, 1, 1, c.lastParamsDim] [c.leadingDims, 1, 1, 1] =
      [c.leadingDims, 1, 1] ++ [c.lastParamsDim] := by simp
  have position : ∀ row ∈ Lib.indices [c.leadingDims, 1, 1], ∀ rest ∈ Lib.indices [c.lastParamsDim],
        address [0, 0, 0, 1] (zipWith (· % ·) (row ++ rest) [1, 1, 1, c.lastParamsDim]) =
          flatten [c.lastParamsDim] rest := by
    intro row isRow rest isRest
    obtain ⟨i, -, inner, isInner, rfl⟩ := mem_indices_cons.mp isRow
    obtain ⟨j, -, inner', isInner', rfl⟩ := mem_indices_cons.mp isInner
    obtain ⟨k, -, _, isNil, rfl⟩ := mem_indices_cons.mp isInner'
    obtain ⟨d, less, _, isNil', rfl⟩ := mem_indices_cons.mp isRest
    simp only [Lib.indices, mem_singleton] at isNil isNil'
    subst isNil isNil'
    simp [address, flatten, Nat.mod_eq_of_lt less]
  have start : ∀ outer, flatten (c.params.take c.tupleLength) (c.tuple outer) = 0 := by
    intro outer
    rw [unnamed, take_zero]
    rfl
  rw [built, dmlTile, sizes, indices_append, mapM_map]
  obtain ⟨output, mapped, length, each⟩ := exists_mapM_eq_some
    (l := Lib.indices [c.leadingDims, 1, 1] ×ˢ Lib.indices [c.lastParamsDim])
    (f := fun x => values[address [0, 0, 0, 1]
      (zipWith (· % ·) (x.1 ++ x.2) [1, 1, 1, c.lastParamsDim])]?) (by
      intro x mem
      obtain ⟨isRow, isRest⟩ := mem_product.mp mem
      have whole := c.prod_params
      rw [unnamed, take_zero, prod_nil, one_mul] at whole
      have inside : flatten [c.lastParamsDim] x.2 < values.length := by
        rw [sized, ← whole]
        simpa using flatten_lt isRest
      rw [position _ isRow _ isRest]
      exact ⟨_, getElem?_eq_getElem inside⟩)
  refine ⟨output, mapped, gathered_of_rows (by simp) rfl length each ?_⟩
  intro row isRow outer isOuter same rest isRest
  rw [position row isRow rest isRest, start, zero_mul, zero_add]

/-- With flattened params that can be addressed, the kernel gathers what the tuples name. -/
theorem equalsReference_of_addressed (α : Type) (c : GatherNdCall)
    (describable : Describable (flatParamsShape c.params c.tupleLength))
    (addressed : Addressed (flatParamsShape c.params c.tupleLength)) : c.EqualsReference α := by
  constructor
  · intro idle
    rw [isNoOp] at idle
    rw [resultShape_eq, numElements, prod_append]
    split at idle
    · rename_i empty
      rw [empty, zero_mul]
    · simp only [Bool.and_eq_true, decide_eq_true_eq] at idle
      have whole : c.tupleLength = 0 := idle.2
      rw [whole, drop_zero]
      exact mul_eq_zero_of_right _ idle.1
  · intro _ values sized
    by_cases unnamed : c.tupleLength = 0
    · exact kernel_tile unnamed describable sized
    · exact kernel_gatherNd unnamed describable addressed sized

end GatherNdCall

def gatherRows : GatherNdCall where
  node := ⟨.float, .int32⟩
  params := [2, 2, 3]
  indices := [2, 2]
  indicesValues := [0, 1, 1, 0]
  accepted := @accepted_of_validate .int32 _ _ rfl
  sized := rfl
  inRange := by decide

theorem gatherRows_equalsReference : gatherRows.EqualsReference Int :=
  GatherNdCall.equalsReference_of_addressed Int gatherRows ⟨by decide, by decide⟩
    (addressed_of_lt (by decide))

def longVector : GatherNdCall where
  node := ⟨.half, .int64⟩
  params := [2 ^ 32]
  indices := [1, 1]
  indicesValues := [0]
  accepted := @accepted_of_validate .int64 _ _ rfl
  sized := by decide
  inRange := by decide

theorem longVector_not_equalsReference : ¬ longVector.EqualsReference Int := by
  rintro ⟨-, busy⟩
  obtain ⟨output, built, -⟩ := busy rfl (replicate (2 ^ 32) 0) length_replicate
  rw [GatherNdCall.kernel, GatherNdCall.operator_gatherNd (by decide), Operator.run] at built
  simp only [Option.bind_eq_bind, Option.bind_eq_some_iff, create_self_eq_some] at built
  obtain ⟨-, ⟨desc, -⟩, -⟩ := built
  exact absurd (desc.dims (2 ^ 32) (by decide)) (Nat.lt_irrefl _)

end TfDml.GatherNd
