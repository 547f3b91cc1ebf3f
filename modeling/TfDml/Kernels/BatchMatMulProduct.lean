import TfDml.Kernels.BatchMatMulKernel
import TfDml.Lib.Grouping
import Mathlib.Algebra.Order.BigOperators.Group.List

/-! # The products of BatchMatMul

All three ways to broadcast the batches visit the same matrices. The products are the due ones if
and only if no size, no stride and no number of batches wraps around.
-/

namespace TfDml.BatchMatMul

open Lib Option
open List hiding flatten flatten_append
open DmlTensorDesc (Addressed Describable address create create_eq_some create_self_eq_some
  kNchwDimensionCount packedStrides stretchStrides)
open DmlTensorDesc

theorem mem_indices_pair {rows cols : Nat} {index : List Nat} :
    index ∈ indices [rows, cols] ↔ ∃ i < rows, ∃ j < cols, index = [i, j] := by
  simp [indices, eq_comm]

theorem order_mem {transposed : Bool} {rows cols i k : Nat}
    (row : i < (orient transposed rows cols).1) (col : k < (orient transposed rows cols).2) :
    order transposed i k ∈ indices [rows, cols] := by
  cases transposed with
  | false => exact mem_indices_pair.mpr ⟨i, row, k, col, rfl⟩
  | true => exact mem_indices_pair.mpr ⟨k, col, i, row, rfl⟩

theorem exists_order (transposed : Bool) {rows cols : Nat} {index : List Nat}
    (mem : index ∈ indices [rows, cols]) :
    ∃ i < (orient transposed rows cols).1, ∃ k < (orient transposed rows cols).2,
      index = order transposed i k := by
  obtain ⟨i, row, j, col, rfl⟩ := mem_indices_pair.mp mem
  cases transposed with
  | false => exact ⟨i, row, j, col, rfl⟩
  | true => exact ⟨j, col, i, row, rfl⟩

section Products

variable {α : Type} [Semiring α]

theorem dot_eq_some {inner : Nat} {a b : Nat → Option α} {a' b' : Nat → α}
    (left : ∀ k < inner, a k = some (a' k)) (right : ∀ k < inner, b k = some (b' k)) :
    dot inner a b = some ((List.range inner).map fun k => a' k * b' k).sum := by
  have products : (List.range inner).mapM (fun k => do return (← a k) * (← b k)) =
      some ((List.range inner).map fun k => a' k * b' k) := by
    refine mapM_eq_some fun k mem => ?_
    rw [left k (mem_range.mp mem), right k (mem_range.mp mem)]
    rfl
  rw [dot, products, map_some]

theorem products_eq (batchesShape : TensorShape) (transA transB : Bool) (rows inner cols : Nat)
    (a b : List Nat → List Nat → Option α) :
    products batchesShape transA transB rows inner cols a b =
      (indices batchesShape).flatMap fun batch => (indices [rows, cols]).map fun index =>
        dot inner (fun k => a batch (order transA (fromEnd index 2) k))
          fun k => b batch (order transB k (fromEnd index 1)) := by
  have pairs : indices batchesShape ×ˢ indices [rows, cols] =
      (indices batchesShape).flatMap fun batch =>
        (indices [rows, cols]).map (Prod.mk batch) := rfl
  rw [products, indices_append, pairs, List.map_map, map_flatMap]
  refine flatMap_congr fun batch _ => ?_
  rw [List.map_map]
  refine map_congr_left fun index mem => ?_
  obtain ⟨i, -, j, -, rfl⟩ := mem_indices_pair.mp mem
  simp only [Function.comp_apply, batches_concat, fromEnd_concat]
  rfl

theorem products_map {batchesShape batchesShape' : TensorShape} {g : List Nat → List Nat}
    (same : indices batchesShape = (indices batchesShape').map g) (transA transB : Bool)
    (rows inner cols : Nat) (a b : List Nat → List Nat → Option α) :
    products batchesShape transA transB rows inner cols a b =
      products batchesShape' transA transB rows inner cols (fun batch => a (g batch))
        fun batch => b (g batch) := by
  rw [products_eq, products_eq, same, flatMap_map]

end Products

section Descriptor

variable {shape batchesShape : TensorShape}

def stretched (batchesShape shape : TensorShape) : TensorShape :=
  batchesShape ++ [fromEnd shape 2, fromEnd shape 1]

theorem aligned_shape (rank : 2 ≤ shape.length) :
    aligned (stretched batchesShape shape).length shape =
      aligned batchesShape.length (batches shape) ++ [fromEnd shape 2, fromEnd shape 1] := by
  have length := length_batches shape
  have missing : batchesShape.length + 2 - shape.length =
      batchesShape.length - (batches shape).length := by omega
  rw [aligned, aligned, append_assoc, ← batches_append rank, stretched, length_append]
  exact congrArg (replicate · 1 ++ shape) missing

theorem stretches_shape (rank : 2 ≤ shape.length)
    (stretches : Stretches (aligned batchesShape.length (batches shape)) batchesShape) :
    Stretches (aligned (stretched batchesShape shape).length shape)
      (stretched batchesShape shape) := by
  rw [aligned_shape rank]
  exact stretches.append (stretches_refl _)

/-- The strides of an operand, for the matrices of the output's batches. -/
def operandStrides (batchesShape shape : TensorShape) : List Nat :=
  stretchStrides (aligned (stretched batchesShape shape).length shape)
    (stretched batchesShape shape)

/-- The position of an element, at a batch of the output. -/
def due (shape batch index : List Nat) : Nat :=
  flatten shape (broadcastIndex (batches shape) batch ++ index)

theorem due_eq (rank : 2 ≤ shape.length)
    (stretches : Stretches (aligned batchesShape.length (batches shape)) batchesShape)
    {batch index : List Nat} (mem : batch ∈ indices batchesShape)
    (inside : index ∈ indices [fromEnd shape 2, fromEnd shape 1]) : due shape batch index =
      flatten (aligned (stretched batchesShape shape).length shape)
        (stretchIndex (aligned (stretched batchesShape shape).length shape) (batch ++ index)) := by
  have length := length_of_mem_indices mem
  have fits : (batches shape).length ≤ batch.length := by
    have same := stretches.length_eq
    rw [aligned, length_append, length_replicate] at same
    omega
  have whole := flatten_aligned fits
  rw [length] at whole
  rw [aligned_shape rank, stretchIndex_append (by rw [length, stretches.length_eq]),
    stretchIndex_of_mem inside, flatten_append, whole]
  · conv_lhs => rw [due, batches_append rank, batches_concat]
    rw [flatten_append]
    exact length_of_mem_indices (broadcastIndex_mem stretches mem)
  · rw [stretchIndex, length_zipWith, length, stretches.length_eq, min_self]

end Descriptor

def gemmBatches (batchesShape : TensorShape) : TensorShape :=
  if 2 < batchesShape.length then [batchesShape.prod, 1]
  else replicate (2 - batchesShape.length) 1 ++ batchesShape

def batchIndex (batchesShape : TensorShape) (batch : List Nat) : List Nat :=
  if 2 < batchesShape.length then [flatten batchesShape batch, 0]
  else replicate (2 - batchesShape.length) 0 ++ batch

theorem indices_gemmBatches (batchesShape : TensorShape) : indices (gemmBatches batchesShape) =
      (indices batchesShape).map (batchIndex batchesShape) := by
  rw [gemmBatches]
  split
  case isTrue several =>
    have entry : batchIndex batchesShape = (fun p => [p, 0]) ∘ flatten batchesShape := by
      funext batch
      rw [batchIndex, if_pos several, Function.comp_apply]
    rw [entry, ← List.map_map, map_flatten_indices, indices, map_eq_flatMap]
    rfl
  case isFalse few =>
    rw [indices_leading]
    refine map_congr_left fun batch _ => ?_
    rw [batchIndex, if_neg few]

section Collapse

variable {α : Type} {batchesShape shape : TensorShape} {values : List α}

/-- What `CreateTensorDescFromInput` makes of an operand. -/
def stridedOperand (batchesShape shape : TensorShape) (values : List α) : Operand α :=
  ⟨replicate (2 - batchesShape.length) 1 ++ stretched batchesShape shape,
    some (replicate (2 - batchesShape.length) 0 ++ operandStrides batchesShape shape),
    values.map some⟩

theorem operandDesc_eq (rank : 2 ≤ shape.length)
    (stretches : Stretches (aligned batchesShape.length (batches shape)) batchesShape)
    (desc : Describable (stretched batchesShape shape)) :
    operandDesc batchesShape shape values = some (stridedOperand batchesShape shape values) := by
  have fits : shape.length ≤ (stretched batchesShape shape).length := by
    have same := stretches.length_eq
    have length := length_batches shape
    rw [aligned, length_append, length_replicate] at same
    rw [stretched, length_append, length_cons, length_singleton]
    omega
  have missing : kNchwDimensionCount - (stretched batchesShape shape).length =
      2 - batchesShape.length := by
    rw [stretched, length_append, length_cons, length_singleton, kNchwDimensionCount]
    omega
  have created := create_eq_some.mpr ⟨desc, fits, stretches_shape rank stretches, rfl⟩
  rw [stretched] at created
  rw [operandDesc, created]
  rw [← stretched, missing]
  rfl

theorem read_stridedOperand (batch index : List Nat) :
    (stridedOperand batchesShape shape values).read
        (replicate (2 - batchesShape.length) 0 ++ (batch ++ index)) =
      values[address (operandStrides batchesShape shape) (batch ++ index)]? := by
  rw [Operand.read, Operand.position, stridedOperand]
  simp only [address_leading, getElem?_map]
  cases values[address (operandStrides batchesShape shape) (batch ++ index)]? <;> rfl

theorem length_stridedOperand (few : batchesShape.length ≤ 2) :
    (stridedOperand batchesShape shape values).sizes.length = 4 := by
  rw [stridedOperand, length_append, length_replicate, stretched, length_append,
    length_cons, length_singleton]
  omega

theorem collapse_several (several : 2 < batchesShape.length) :
    (stridedOperand batchesShape shape values).collapse batchesShape =
      (stridedOperand batchesShape shape values).identity.reinterpret
        [batchesShape.prod % 2 ^ 32, 1, fromEnd shape 2, fromEnd shape 1] := by
  have none_ : 2 - batchesShape.length = 0 := by omega
  have sizes : (stridedOperand batchesShape shape values).sizes =
      batchesShape ++ [fromEnd shape 2, fromEnd shape 1] := by
    rw [stridedOperand, none_]
    rfl
  have count : DmlTensorDesc.kNchwDimensionCount <
      (stridedOperand batchesShape shape values).sizes.length := by
    rw [sizes, length_append, length_cons, length_singleton, DmlTensorDesc.kNchwDimensionCount]
    omega
  rw [Operand.collapse, if_pos count, sizes, (fromEnd_concat _ _ _).1, (fromEnd_concat _ _ _).2]
  rfl

theorem exists_collapse
    (fits : 2 < batchesShape.length → batchesShape.prod < 2 ^ 32) :
    ∃ collapsed, (stridedOperand batchesShape shape values).collapse batchesShape = some collapsed ∧
      collapsed.sizes = gemmBatches batchesShape ++ [fromEnd shape 2, fromEnd shape 1] ∧
      ∀ batch ∈ indices batchesShape, ∀ index ∈ indices [fromEnd shape 2, fromEnd shape 1],
        collapsed.read (batchIndex batchesShape batch ++ index) =
          values[address (operandStrides batchesShape shape) (batch ++ index)]? := by
  by_cases several : 2 < batchesShape.length
  · have none_ : 2 - batchesShape.length = 0 := by omega
    have sizes : (stridedOperand batchesShape shape values).sizes =
        batchesShape ++ [fromEnd shape 2, fromEnd shape 1] := by
      rw [stridedOperand, none_]
      rfl
    have same : [batchesShape.prod, 1, fromEnd shape 2, fromEnd shape 1].prod =
        (stridedOperand batchesShape shape values).identity.sizes.prod := by
      rw [Operand.identity, sizes, prod_append]
      simp
    rw [collapse_several several, Nat.mod_eq_of_lt (fits several), Operand.reinterpret, if_pos same]
    refine ⟨_, rfl, ?_, fun batch mem index inside => ?_⟩
    · rw [gemmBatches, if_pos several]
      rfl
    · have position : flatten [batchesShape.prod, 1, fromEnd shape 2, fromEnd shape 1]
          ([flatten batchesShape batch, 0] ++ index) =
          flatten (batchesShape ++ [fromEnd shape 2, fromEnd shape 1]) (batch ++ index) := by
        rw [flatten_append (length_of_mem_indices mem)]
        simp [flatten]
      have hit := getElem?_flatten (append_mem_indices mem inside)
      have reading := @read_stridedOperand α batchesShape shape values batch index
      rw [none_, replicate_zero, nil_append] at reading
      rw [Operand.read, Operand.position, batchIndex, if_pos several, Operand.identity]
      simp only [position]
      rw [getElem?_map, sizes, hit, map_some, join_some, reading]
  · have count : ¬DmlTensorDesc.kNchwDimensionCount <
        (stridedOperand batchesShape shape values).sizes.length := by
      rw [length_stridedOperand (by omega), DmlTensorDesc.kNchwDimensionCount]
      omega
    rw [Operand.collapse, if_neg count]
    refine ⟨_, rfl, ?_, fun batch mem index inside => ?_⟩
    · rw [gemmBatches, if_neg several, append_assoc]
      rfl
    · rw [batchIndex, if_neg several, append_assoc, read_stridedOperand]

theorem collapse_eq_none (several : 2 < batchesShape.length)
    (many : ¬batchesShape.prod < 2 ^ 32) (some_ : fromEnd shape 2 * fromEnd shape 1 ≠ 0) :
    (stridedOperand batchesShape shape values).collapse batchesShape = none := by
  have none_ : 2 - batchesShape.length = 0 := by omega
  rw [collapse_several several, Operand.reinterpret, if_neg]
  intro same
  have sizes : (stridedOperand batchesShape shape values).identity.sizes =
      batchesShape ++ [fromEnd shape 2, fromEnd shape 1] := by
    rw [Operand.identity, stridedOperand, none_]
    rfl
  rw [sizes, prod_append] at same
  simp only [prod_cons, prod_nil, mul_one, one_mul] at same
  have wrapped := Nat.eq_of_mul_eq_mul_right (Nat.pos_of_ne_zero some_) same
  have below := Nat.mod_lt batchesShape.prod (by decide : 0 < 2 ^ 32)
  omega

end Collapse

section Positions

variable {shape batchesShape batch index : List Nat}

theorem prod_matrix (rank : 2 ≤ shape.length) :
    shape.prod = (batches shape).prod * (fromEnd shape 2 * fromEnd shape 1) := by
  conv_lhs => rw [batches_append rank]
  simp

theorem due_lt
    (stretches : Stretches (aligned batchesShape.length (batches shape)) batchesShape)
    (rank : 2 ≤ shape.length) (mem : batch ∈ indices batchesShape)
    (inside : index ∈ indices [fromEnd shape 2, fromEnd shape 1]) :
    due shape batch index < shape.prod := by
  have whole := append_mem_indices (broadcastIndex_mem stretches mem) inside
  rw [← batches_append rank] at whole
  exact flatten_lt whole

variable (rank : 2 ≤ shape.length)
  (stretches : Stretches (aligned batchesShape.length (batches shape)) batchesShape)

include rank stretches

theorem address_le_due (mem : batch ∈ indices batchesShape)
    (inside : index ∈ indices [fromEnd shape 2, fromEnd shape 1]) :
    address (operandStrides batchesShape shape) (batch ++ index) ≤ due shape batch index := by
  have whole := stretches_shape rank stretches
  have place := append_mem_indices mem inside
  rw [due_eq rank stretches mem inside, operandStrides, address_stretchStrides whole place]
  exact address_le_flatten (stretchIndex_mem whole place)

theorem forall_address_iff (ne : (stretched batchesShape shape).prod ≠ 0) :
    (∀ batch ∈ indices batchesShape, ∀ index ∈ indices [fromEnd shape 2, fromEnd shape 1],
      address (operandStrides batchesShape shape) (batch ++ index) = due shape batch index) ↔
      Addressed shape := by
  have whole := stretches_shape rank stretches
  have positive := List.prod_pos_iff_forall_pos_nat.mp (Nat.pos_of_ne_zero ne)
  have addr := map_address_stretchStrides_iff whole positive
  rw [← map_stretchIndex_indices whole, map_inj_left] at addr
  rw [← addressed_replicate_append, ← aligned, ← addr]
  constructor
  · intro same place mem
    obtain ⟨batch, outer, index, inner, rfl⟩ := mem_indices_append.mp mem
    rw [← due_eq rank stretches outer inner]
    exact same batch outer index inner
  · intro same batch outer index inner
    rw [due_eq rank stretches outer inner]
    exact same _ (append_mem_indices outer inner)

end Positions

theorem products_congr {α : Type} [Semiring α] {batchesShape : TensorShape} {transA transB : Bool}
    {rowsA colsA rowsB colsB : Nat} {a b a' b' : List Nat → List Nat → Option α}
    (same : (orient transA rowsA colsA).2 = (orient transB rowsB colsB).1)
    (left : ∀ batch ∈ indices batchesShape, ∀ index ∈ indices [rowsA, colsA],
      a batch index = a' batch index)
    (right : ∀ batch ∈ indices batchesShape, ∀ index ∈ indices [rowsB, colsB],
      b batch index = b' batch index) :
    products batchesShape transA transB (orient transA rowsA colsA).1 (orient transA rowsA colsA).2
        (orient transB rowsB colsB).2 a b =
      products batchesShape transA transB (orient transA rowsA colsA).1
        (orient transA rowsA colsA).2 (orient transB rowsB colsB).2 a' b' := by
  refine map_congr_left fun place mem => ?_
  obtain ⟨batch, outer, index, inner, rfl⟩ := mem_indices_append.mp mem
  obtain ⟨i, row, j, col, rfl⟩ := mem_indices_pair.mp inner
  rw [batches_concat, (fromEnd_concat _ _ _).1, (fromEnd_concat _ _ _).2, dot, dot]
  refine congrArg _ (mapM_congr_left fun k range => ?_)
  have less := mem_range.mp range
  rw [left batch outer _ (order_mem row less), right batch outer _ (order_mem (same ▸ less) col)]

theorem gemm_eq {α : Type} [Semiring α] {a b : Operand α} {batchesShape : List Nat}
    {transA transB : Bool} {rowsA colsA rowsB colsB : Nat} (two : batchesShape.length = 2)
    (sizesA : a.sizes = batchesShape ++ [rowsA, colsA])
    (sizesB : b.sizes = batchesShape ++ [rowsB, colsB])
    (same : (orient transA rowsA colsA).2 = (orient transB rowsB colsB).1) :
    gemm a b transA transB = some (products batchesShape transA transB
      (orient transA rowsA colsA).1 (orient transA rowsA colsA).2 (orient transB rowsB colsB).2
      (fun batch index => a.read (batch ++ index)) fun batch index => b.read (batch ++ index)) := by
  obtain ⟨n, c, rfl⟩ := length_eq_two.mp two
  rw [gemm, sizesA, sizesB]
  exact if_pos ⟨rfl, rfl, same⟩

theorem length_gemmBatches (batchesShape : TensorShape) :
    (gemmBatches batchesShape).length = 2 := by
  rw [gemmBatches]
  split
  · rfl
  · rw [length_append, length_replicate]
    omega

theorem sized_batches {shape : TensorShape} (sized : BCast.Sized shape)
    (ne : shape.prod ≠ 0) : BCast.Sized (batches shape) := by
  refine ⟨fun dim mem => sized.dims dim (mem_of_mem_take mem), ?_⟩
  have split : (batches shape).prod * (shape.drop (shape.length - 2)).prod = shape.prod := by
    rw [batches, ← prod_append, take_append_drop]
  have rest : 0 < (shape.drop (shape.length - 2)).prod :=
    Nat.pos_of_ne_zero fun empty => ne (by rw [← split, empty, mul_zero])
  have bound := sized.elements
  have below := Nat.le_mul_of_pos_right (batches shape).prod rest
  omega

namespace Call

/-- What is known about operands that are accepted and not empty. -/
structure Accepted (c : Call) (output : TensorShape) : Prop where
  rank0 : 2 ≤ c.in0.length
  rank1 : 2 ≤ c.in1.length
  stretches0 : Stretches (aligned output.length (batches c.in0)) output
  stretches1 : Stretches (aligned output.length (batches c.in1)) output
  few : output.length ≤ 6
  inner : inner0 c.toArguments = inner1 c.toArguments
  nonempty0 : c.in0.prod ≠ 0
  nonempty1 : c.in1.prod ≠ 0
  outputs : output.prod ≠ 0
  shape : output.prod < 2 ^ 63 →
    outputShape c.toArguments = some (output ++ [rows c.toArguments, cols c.toArguments])

/-- No number of elements, no size, no stride and no number of batches that are counted wraps
    around. -/
structure Fits (c : Call) (output : TensorShape) : Prop where
  elements : (output ++ [rows c.toArguments, cols c.toArguments]).prod < 2 ^ 63
  dims0 : ∀ dim ∈ stretched output c.in0, dim < 2 ^ 32
  dims1 : ∀ dim ∈ stretched output c.in1, dim < 2 ^ 32
  addressed0 : Addressed c.in0
  addressed1 : Addressed c.in1
  counted : 2 < output.length → output.prod < 2 ^ 32

variable {c : Call} {output : TensorShape}

theorem inner0_eq (args : Arguments) :
    inner0 args = (orient args.attr.adjX (fromEnd args.in0 2) (fromEnd args.in0 1)).2 := by
  rw [inner0]
  cases args.attr.adjX <;> rfl

theorem inner1_eq (args : Arguments) :
    inner1 args = (orient args.attr.adjY (fromEnd args.in1 2) (fromEnd args.in1 1)).1 := by
  rw [inner1]
  cases args.attr.adjY <;> rfl

/-- The operands of `MatMulBCast`. -/
def operands (c : Call) (rank0 : 2 ≤ c.in0.length) (rank1 : 2 ≤ c.in1.length)
    (nonempty0 : c.in0.prod ≠ 0) (nonempty1 : c.in1.prod ≠ 0) : MatMulBCast.Operands where
  x := c.in0
  y := c.in1
  rankX := rank0
  rankY := rank1
  sizedX := sized_batches c.sized0 nonempty0
  sizedY := sized_batches c.sized1 nonempty1

theorem construct_eq_nil (args : Arguments) :
    construct args = some [] ↔ 2 ≤ args.in0.length ∧ 2 ≤ args.in1.length ∧ ¬Bad args := by
  by_cases ranks : 2 ≤ args.in0.length ∧ 2 ≤ args.in1.length
  · rw [construct_of_ranks ranks.1 ranks.2, Option.some.injEq, append_eq_nil_iff,
      reports_eq_nil, validateInputTensors_ok ranks.1 ranks.2, accepts_iff ranks.1 ranks.2]
    exact ⟨fun good => ⟨ranks.1, ranks.2, good⟩, fun good => good.2.2⟩
  · rw [construct_of_short (by omega)]
    exact iff_of_false (fun same => nomatch same) fun good => ranks ⟨good.1, good.2.1⟩

theorem accepted (accepts : construct c.toArguments = some []) (ne0 : c.in0.prod ≠ 0)
    (ne1 : c.in1.prod ≠ 0)
    (shape : broadcast (batches c.in0) (batches c.in1) = some output) : Accepted c output := by
  obtain ⟨rank0, rank1, good⟩ := (construct_eq_nil _).mp accepts
  simp only [Bad, not_or, not_not, Nat.not_lt] at good
  have rank := length_of_broadcast shape
  have length0 := length_batches c.in0
  have length1 := length_batches c.in1
  obtain ⟨-, -, -, ranks, inner⟩ := good
  have shape' : broadcast (c.operands rank0 rank1 ne0 ne1).xBatches
      (c.operands rank0 rank1 ne0 ne1).yBatches = some output := shape
  have some0 : (batches c.in0).prod ≠ 0 :=
    fun empty => ne0 (by rw [prod_matrix rank0, empty, zero_mul])
  have some1 : (batches c.in1).prod ≠ 0 :=
    fun empty => ne1 (by rw [prod_matrix rank1, empty, zero_mul])
  refine ⟨rank0, rank1, stretches_of_broadcast shape,
    stretches_of_broadcast ((broadcast_comm _ _).trans shape), by omega, inner, ne0,
    ne1, MatMulBCast.Operands.output_ne_zero shape' some0 some1, fun lt => ?_⟩
  obtain ⟨bcast, created, same⟩ := MatMulBCast.Operands.exists_outputBatchShape shape' lt
  have created' : MatMulBCast.create c.in0 c.in1 = some bcast := created
  rw [outputShape, created', ← same]
  rfl

namespace Accepted

variable (known : Accepted c output)

include known

theorem matrix0 : fromEnd c.in0 2 * fromEnd c.in0 1 ≠ 0 :=
  fun empty => known.nonempty0 (by rw [prod_matrix known.rank0, empty, mul_zero])

theorem matrix1 : fromEnd c.in1 2 * fromEnd c.in1 1 ≠ 0 :=
  fun empty => known.nonempty1 (by rw [prod_matrix known.rank1, empty, mul_zero])

theorem rank_le : c.in0.length ≤ output.length + 2 ∧ c.in1.length ≤ output.length + 2 := by
  have same0 := known.stretches0.length_eq
  have same1 := known.stretches1.length_eq
  rw [aligned, length_append, length_replicate, length_batches] at same0 same1
  omega

end Accepted

theorem narrow_shape {shape : TensorShape} (rank : 2 ≤ shape.length)
    (stretches : Stretches (aligned output.length (batches shape)) output)
    (small : ∀ dim ∈ stretched output shape, dim < 2 ^ 32) : ∀ dim ∈ shape, dim < 2 ^ 32 := by
  have lt := (stretches_shape rank stretches).forall_lt (by decide) small
  exact fun dim mem => lt dim (mem_append_right _ mem)

theorem describable_stretched {shape : TensorShape} (few : output.length ≤ 6)
    (lt : ∀ dim ∈ stretched output shape, dim < 2 ^ 32) : Describable (stretched output shape) := by
  refine ⟨?_, lt⟩
  rw [stretched, length_append, length_cons, length_singleton, maxDimensionCount]
  omega

theorem narrow_output (lt0 : ∀ dim ∈ stretched output c.in0, dim < 2 ^ 32)
    (lt1 : ∀ dim ∈ stretched output c.in1, dim < 2 ^ 32) :
    ∀ dim ∈ output ++ [rows c.toArguments, cols c.toArguments], dim < 2 ^ 32 := by
  have first : rows c.toArguments ∈ [fromEnd c.in0 2, fromEnd c.in0 1] := by
    rw [rows]
    cases c.attr.adjX <;> simp [orient]
  have second : cols c.toArguments ∈ [fromEnd c.in1 2, fromEnd c.in1 1] := by
    rw [cols]
    cases c.attr.adjY <;> simp [orient]
  intro dim mem
  rcases mem_append.mp mem with outer | inner
  · exact lt0 dim (mem_append_left _ outer)
  · rcases mem_pair.mp inner with rfl | rfl
    · exact lt0 _ (mem_append_right _ first)
    · exact lt1 _ (mem_append_right _ second)

section Kernel

variable {α : Type} [Semiring α] (x y : List α)

theorem dims_of_kernel {result : List (Option α)}
    (computed : kernel c.toArguments (output ++ [rows c.toArguments, cols c.toArguments]) x y =
      some result) : (∀ dim ∈ stretched output c.in0, dim < 2 ^ 32) ∧
      ∀ dim ∈ stretched output c.in1, dim < 2 ^ 32 := by
  rw [kernel, batches_concat] at computed
  obtain ⟨_, -, computed⟩ := bind_eq_some_iff.mp computed
  obtain ⟨_, -, computed⟩ := bind_eq_some_iff.mp computed
  obtain ⟨_, -, computed⟩ := bind_eq_some_iff.mp computed
  obtain ⟨a, first, computed⟩ := bind_eq_some_iff.mp computed
  obtain ⟨b, second, -⟩ := bind_eq_some_iff.mp computed
  obtain ⟨desc, created, -⟩ := bind_eq_some_iff.mp first
  obtain ⟨desc', created', -⟩ := bind_eq_some_iff.mp second
  exact ⟨(create_eq_some.mp created).1.dims, (create_eq_some.mp created').1.dims⟩

variable (known : Accepted c output) (small0 : ∀ dim ∈ stretched output c.in0, dim < 2 ^ 32)
  (small1 : ∀ dim ∈ stretched output c.in1, dim < 2 ^ 32)

include known small0 small1

theorem kernel_described :
    kernel c.toArguments (output ++ [rows c.toArguments, cols c.toArguments]) x y =
      ((stridedOperand output c.in0 x).collapse output).bind fun a =>
        ((stridedOperand output c.in1 y).collapse output).bind fun b =>
          gemm a b c.attr.adjX c.attr.adjY := by
  have ranks := known.rank_le
  have few := known.few
  have max_ : maxDimensionCount = 8 := rfl
  have input0 := create_self_eq_some.mpr ⟨⟨by omega, narrow_shape known.rank0 known.stretches0
    small0⟩, rfl⟩
  have input1 := create_self_eq_some.mpr ⟨⟨by omega, narrow_shape known.rank1 known.stretches1
    small1⟩, rfl⟩
  have output_ := create_self_eq_some.mpr ⟨⟨by
    rw [length_append, length_cons, length_singleton]
    omega, narrow_output small0 small1⟩, rfl⟩
  have first := @operandDesc_eq α _ _ x known.rank0 known.stretches0
    (describable_stretched few small0)
  have second := @operandDesc_eq α _ _ y known.rank1 known.stretches1
    (describable_stretched few small1)
  rw [kernel, input0, input1, output_, batches_concat, first, second]
  rfl

theorem kernel_eq (counted : 2 < output.length → output.prod < 2 ^ 32) :
    kernel c.toArguments (output ++ [rows c.toArguments, cols c.toArguments]) x y =
      some (products output c.attr.adjX c.attr.adjY (rows c.toArguments) (inner0 c.toArguments)
        (cols c.toArguments)
        (fun batch index => x[address (operandStrides output c.in0) (batch ++ index)]?)
        fun batch index => y[address (operandStrides output c.in1) (batch ++ index)]?) := by
  obtain ⟨a, collapsedA, sizesA, readA⟩ := @exists_collapse α output c.in0 x counted
  obtain ⟨b, collapsedB, sizesB, readB⟩ := @exists_collapse α output c.in1 y counted
  have inner := known.inner
  rw [inner0_eq, inner1_eq] at inner
  rw [kernel_described x y known small0 small1, collapsedA, collapsedB, bind_some,
    bind_some, gemm_eq (length_gemmBatches output) sizesA sizesB inner,
    products_map (indices_gemmBatches output), inner0_eq, rows, cols]
  exact congrArg some (products_congr inner readA readB)

theorem kernel_eq_none (several : 2 < output.length) (many : ¬output.prod < 2 ^ 32) :
    kernel c.toArguments (output ++ [rows c.toArguments, cols c.toArguments]) x y = none := by
  rw [kernel_described x y known small0 small1, collapse_eq_none several many known.matrix0]
  rfl

end Kernel

theorem eq_of_sum_eq {f g : Nat → Nat} {count : Nat} (le : ∀ k < count, f k ≤ g k)
    (same : ((List.range count).map f).sum = ((List.range count).map g).sum) :
    ∀ k < count, f k = g k := by
  induction count with
  | zero => exact fun k less => absurd less (Nat.not_lt_zero k)
  | succ count ih =>
    have earlier : ((List.range count).map f).sum ≤ ((List.range count).map g).sum :=
      sum_le_sum fun k mem => le k (Nat.lt_succ_of_lt (mem_range.mp mem))
    have last := le count (Nat.lt_succ_self count)
    rw [range_succ, map_append, map_append, sum_append, sum_append,
      map_singleton, map_singleton, sum_singleton, sum_singleton] at same
    intro k less
    rcases Nat.lt_succ_iff_lt_or_eq.mp less with before | rfl
    · exact ih (fun k less => le k (Nat.lt_succ_of_lt less)) (by omega) k before
    · omega

theorem eq_of_terms_eq {f g f' g' : Nat → Nat} {count : Nat} (le : ∀ k < count, f k ≤ g k)
    (left : ∀ k < count, f' k = f k) (right : ∀ k < count, g' k = g k)
    (same : ((List.range count).map f').sum = ((List.range count).map g').sum) :
    ∀ k < count, f k = g k := by
  have lefts : (List.range count).map f' = (List.range count).map f :=
    map_congr_left fun k mem => left k (mem_range.mp mem)
  have rights : (List.range count).map g' = (List.range count).map g :=
    map_congr_left fun k mem => right k (mem_range.mp mem)
  rw [lefts, rights] at same
  exact eq_of_sum_eq le same

section Values

variable {α : Type} [Semiring α] {x y : List α}

theorem getElem?_eq_getD {values : List α} {p : Nat} (inside : p < values.length) :
    values[p]? = some (values.getD p 0) := by
  rw [getElem?_eq_getElem inside, getD_eq_getElem _ _ inside]

theorem dot_eq (known : Accepted c output) (whole0 : x.length = c.in0.prod)
    (whole1 : y.length = c.in1.prod) {batch : List Nat} (outer : batch ∈ indices output) {i j : Nat}
    (row : i < rows c.toArguments) (col : j < cols c.toArguments) : dot (inner0 c.toArguments)
        (fun k => x[address (operandStrides output c.in0)
          (batch ++ order c.attr.adjX i k)]?)
        (fun k => y[address (operandStrides output c.in1)
          (batch ++ order c.attr.adjY k j)]?) =
      some ((List.range (inner0 c.toArguments)).map fun k =>
        x.getD (address (operandStrides output c.in0) (batch ++ order c.attr.adjX i k)) 0 *
          y.getD (address (operandStrides output c.in1)
            (batch ++ order c.attr.adjY k j)) 0).sum := by
  refine dot_eq_some (fun k less => ?_) fun k less => ?_
  · have inside : order c.attr.adjX i k ∈ indices [fromEnd c.in0 2, fromEnd c.in0 1] :=
      order_mem row (inner0_eq c.toArguments ▸ less)
    refine getElem?_eq_getD ?_
    rw [whole0]
    exact lt_of_le_of_lt (address_le_due known.rank0 known.stretches0 outer inside)
      (due_lt known.stretches0 known.rank0 outer inside)
  · have inside : order c.attr.adjY k j ∈ indices [fromEnd c.in1 2, fromEnd c.in1 1] := by
      rw [known.inner, inner1_eq] at less
      exact order_mem less col
    refine getElem?_eq_getD ?_
    rw [whole1]
    exact lt_of_le_of_lt (address_le_due known.rank1 known.stretches1 outer inside)
      (due_lt known.stretches1 known.rank1 outer inside)

theorem products_eq_reference_iff (known : Accepted c output) (whole0 : x.length = c.in0.prod)
    (whole1 : y.length = c.in1.prod) :
    products output c.attr.adjX c.attr.adjY (rows c.toArguments) (inner0 c.toArguments)
        (cols c.toArguments)
        (fun batch index => x[address (operandStrides output c.in0) (batch ++ index)]?)
        (fun batch index => y[address (operandStrides output c.in1) (batch ++ index)]?) =
        (reference c.toArguments output x y).map some ↔
      ∀ batch ∈ indices output, ∀ i < rows c.toArguments, ∀ j < cols c.toArguments,
        ((List.range (inner0 c.toArguments)).map fun k =>
          x.getD (address (operandStrides output c.in0) (batch ++ order c.attr.adjX i k)) 0 *
            y.getD (address (operandStrides output c.in1)
              (batch ++ order c.attr.adjY k j)) 0).sum =
          ((List.range (inner0 c.toArguments)).map fun k =>
            x.getD (due c.in0 batch (order c.attr.adjX i k)) 0 *
              y.getD (due c.in1 batch (order c.attr.adjY k j)) 0).sum := by
  rw [products, reference, List.map_map, map_inj_left]
  constructor
  · intro same batch outer i row j col
    have here := same (batch ++ [i, j])
      (append_mem_indices outer (mem_indices_pair.mpr ⟨i, row, j, col, rfl⟩))
    rw [Function.comp_apply, batches_concat, (fromEnd_concat _ _ _).1, (fromEnd_concat _ _ _).2,
      dot_eq known whole0 whole1 outer row col] at here
    exact some.inj here
  · intro same index mem
    obtain ⟨batch, outer, index, inner, rfl⟩ := mem_indices_append.mp mem
    obtain ⟨i, row, j, col, rfl⟩ := mem_indices_pair.mp inner
    rw [Function.comp_apply, batches_concat, (fromEnd_concat _ _ _).1, (fromEnd_concat _ _ _).2,
      dot_eq known whole0 whole1 outer row col, same batch outer i row j col]
    rfl

end Values

theorem getD_range {count p : Nat} (inside : p < count) : (List.range count).getD p 0 = p := by
  rw [getD_eq_getElem _ _ (by rwa [length_range]), getElem_range]

theorem getD_ones {count p : Nat} (inside : p < count) : (replicate count 1).getD p 0 = 1 := by
  rw [getD_eq_getElem _ _ (by rwa [length_replicate]), getElem_replicate]

theorem orient_pos {transposed : Bool} {m n : Nat} (some_ : m * n ≠ 0) :
    0 < (orient transposed m n).1 ∧ 0 < (orient transposed m n).2 := by
  have both := Nat.mul_ne_zero_iff.mp some_
  cases transposed with
  | false => exact ⟨Nat.pos_of_ne_zero both.1, Nat.pos_of_ne_zero both.2⟩
  | true => exact ⟨Nat.pos_of_ne_zero both.2, Nat.pos_of_ne_zero both.1⟩

section Probes

variable {shape batch index : List Nat} (rank : 2 ≤ shape.length)
  (stretches : Stretches (aligned output.length (batches shape)) output)
  (outer : batch ∈ indices output) (inner : index ∈ indices [fromEnd shape 2, fromEnd shape 1])

include rank stretches outer inner

theorem probe_positions :
    (List.range shape.prod).getD (address (operandStrides output shape) (batch ++ index)) 0 =
        address (operandStrides output shape) (batch ++ index) ∧
      (List.range shape.prod).getD (due shape batch index) 0 = due shape batch index := by
  have less := due_lt stretches rank outer inner
  exact ⟨getD_range (lt_of_le_of_lt (address_le_due rank stretches outer inner) less),
    getD_range less⟩

theorem probe_ones :
    (replicate shape.prod 1).getD (address (operandStrides output shape) (batch ++ index)) 0 =
        1 ∧ (replicate shape.prod 1).getD (due shape batch index) 0 = 1 := by
  have less := due_lt stretches rank outer inner
  exact ⟨getD_ones (lt_of_le_of_lt (address_le_due rank stretches outer inner) less),
    getD_ones less⟩

end Probes

theorem addressed_iff (known : Accepted c output) :
    (∀ (α : Type) [Semiring α] (x y : List α), x.length = c.in0.prod → y.length = c.in1.prod →
      products output c.attr.adjX c.attr.adjY (rows c.toArguments) (inner0 c.toArguments)
        (cols c.toArguments)
        (fun batch index => x[address (operandStrides output c.in0) (batch ++ index)]?)
        (fun batch index => y[address (operandStrides output c.in1) (batch ++ index)]?) =
        (reference c.toArguments output x y).map some) ↔ Addressed c.in0 ∧ Addressed c.in1 := by
  have matrices (shape : TensorShape) (some_ : fromEnd shape 2 * fromEnd shape 1 ≠ 0) :
      (stretched output shape).prod ≠ 0 := by
    have both := Nat.mul_ne_zero known.outputs some_
    rwa [stretched, prod_append, prod_cons, prod_singleton]
  have inside0 {i k : Nat} (row : i < rows c.toArguments) (less : k < inner0 c.toArguments) :
      order c.attr.adjX i k ∈ indices [fromEnd c.in0 2, fromEnd c.in0 1] :=
    order_mem row (inner0_eq c.toArguments ▸ less)
  have inside1 {k j : Nat} (less : k < inner0 c.toArguments) (col : j < cols c.toArguments) :
      order c.attr.adjY k j ∈ indices [fromEnd c.in1 2, fromEnd c.in1 1] := by
    rw [known.inner, inner1_eq] at less
    exact order_mem less col
  rw [← forall_address_iff known.rank0 known.stretches0 (matrices _ known.matrix0),
    ← forall_address_iff known.rank1 known.stretches1 (matrices _ known.matrix1)]
  constructor
  · intro right
    -- Positions on one side and ones on the other: no address is behind its position.
    constructor
    · intro batch outer index inner
      obtain ⟨i, row, k, less, rfl⟩ := exists_order c.attr.adjX inner
      rw [← inner0_eq] at less
      have column : 0 < cols c.toArguments := (orient_pos known.matrix1).2
      have first := right Nat (List.range c.in0.prod) (replicate c.in1.prod 1)
        length_range (length_replicate ..)
      rw [products_eq_reference_iff known length_range (length_replicate ..)] at first
      have term {k : Nat} (less : k < inner0 c.toArguments) :=
        probe_positions known.rank0 known.stretches0 outer (inside0 row less)
      have unit {k : Nat} (less : k < inner0 c.toArguments) :=
        probe_ones known.rank1 known.stretches1 outer (inside1 less column)
      suffices all : ∀ k < inner0 c.toArguments,
          address (operandStrides output c.in0) (batch ++ order c.attr.adjX i k) =
            due c.in0 batch (order c.attr.adjX i k) from all k less
      refine eq_of_terms_eq (fun k less => ?_) (fun k less => ?_) (fun k less => ?_)
        (first batch outer i row 0 column)
      · exact address_le_due known.rank0 known.stretches0 outer (inside0 row less)
      · rw [(term less).1, (unit less).1, mul_one]
      · rw [(term less).2, (unit less).2, mul_one]
    · intro batch outer index inner
      obtain ⟨k, less, j, col, rfl⟩ := exists_order c.attr.adjY inner
      rw [← inner1_eq, ← known.inner] at less
      have row : 0 < rows c.toArguments := (orient_pos known.matrix0).1
      have second := right Nat (replicate c.in0.prod 1) (List.range c.in1.prod)
        (length_replicate ..) length_range
      rw [products_eq_reference_iff known (length_replicate ..) length_range] at second
      have term {k : Nat} (less : k < inner0 c.toArguments) :=
        probe_positions known.rank1 known.stretches1 outer (inside1 less col)
      have unit {k : Nat} (less : k < inner0 c.toArguments) :=
        probe_ones known.rank0 known.stretches0 outer (inside0 row less)
      suffices all : ∀ k < inner0 c.toArguments,
          address (operandStrides output c.in1) (batch ++ order c.attr.adjY k j) =
            due c.in1 batch (order c.attr.adjY k j) from all k less
      refine eq_of_terms_eq (fun k less => ?_) (fun k less => ?_) (fun k less => ?_)
        (second batch outer 0 row j col)
      · exact address_le_due known.rank1 known.stretches1 outer (inside1 less col)
      · rw [(term less).1, (unit less).1, one_mul]
      · rw [(term less).2, (unit less).2, one_mul]
  · rintro ⟨first, second⟩ α _ x y whole0 whole1
    rw [products_eq_reference_iff known whole0 whole1]
    intro batch outer i row j col
    refine congrArg List.sum (map_congr_left fun k mem => ?_)
    have less := mem_range.mp mem
    rw [first batch outer _ (inside0 row less), second batch outer _ (inside1 less col)]

theorem multiplies_iff (c : Call) :
    c.Multiplies ↔ construct c.toArguments = some [] → c.in0.prod ≠ 0 → c.in1.prod ≠ 0 →
      ∀ output, broadcast (batches c.in0) (batches c.in1) = some output → c.Fits output := by
  refine forall_congr' fun accepts => forall_congr' fun ne0 => forall_congr' fun ne1 =>
    forall_congr' fun output => forall_congr' fun shape => ?_
  have known := accepted accepts ne0 ne1 shape
  have outs : (output ++ [rows c.toArguments, cols c.toArguments]).prod ≠ 0 := by
    have row : 0 < rows c.toArguments := (orient_pos known.matrix0).1
    have col : 0 < cols c.toArguments := (orient_pos known.matrix1).2
    rw [prod_append, prod_cons, prod_singleton]
    exact Nat.mul_ne_zero known.outputs (mul_pos row col).ne'
  have runs : NoOpKernel.isNoOpKernel [c.in0, c.in1]
      [output ++ [rows c.toArguments, cols c.toArguments]] = false := by
    rw [Bool.eq_false_iff, Ne, NoOpKernel.isNoOpKernel_iff]
    rintro (⟨input, mem, empty⟩ | ⟨result, mem, empty⟩)
    · rcases mem_pair.mp mem with rfl | rfl
      · exact ne0 empty
      · exact ne1 empty
    · rw [mem_singleton.mp mem] at empty
      exact outs empty
  have computed {α : Type} [Semiring α] (x y : List α) (err : outputShape c.toArguments =
      some (output ++ [rows c.toArguments, cols c.toArguments])) : compute c.toArguments x y =
        if (output ++ [rows c.toArguments, cols c.toArguments]).prod < 2 ^ 63 then
          kernel c.toArguments (output ++ [rows c.toArguments, cols c.toArguments]) x y
        else none := by
    rw [compute, err, bind_eq_bind, bind_some, runs]
    rfl
  constructor
  · rintro ⟨err, right⟩
    have ones := right Nat (replicate c.in0.prod 1) (replicate c.in1.prod 1)
      (length_replicate ..) (length_replicate ..)
    rw [computed _ _ err, ite_none_right_eq_some] at ones
    obtain ⟨elements, ones⟩ := ones
    obtain ⟨lt0, lt1⟩ := dims_of_kernel _ _ ones
    have counted : 2 < output.length → output.prod < 2 ^ 32 := by
      intro several
      by_contra many
      rw [kernel_eq_none _ _ known lt0 lt1 several many] at ones
      exact nomatch ones
    obtain ⟨addr0, addr1⟩ := (addressed_iff known).mp fun α _ x y whole0 whole1 => by
      have same := right α x y whole0 whole1
      rw [computed x y err, if_pos elements, kernel_eq x y known lt0 lt1 counted] at same
      exact some.inj same
    exact ⟨elements, lt0, lt1, addr0, addr1, counted⟩
  · intro fits
    have lt : output.prod < 2 ^ 63 := by
      have bound := fits.elements
      rw [prod_append] at bound outs
      exact lt_of_le_of_lt
        (Nat.le_mul_of_pos_right _ (Nat.pos_of_ne_zero (Nat.mul_ne_zero_iff.mp outs).2)) bound
    have err := known.shape lt
    refine ⟨err, fun α _ x y whole0 whole1 => ?_⟩
    rw [computed x y err, if_pos fits.elements,
      kernel_eq x y known fits.dims0 fits.dims1 fits.counted]
    exact congrArg some ((addressed_iff known).mpr ⟨fits.addressed0, fits.addressed1⟩ α x y whole0
      whole1)

theorem acceptsBroadcastable (c : Call) : c.AcceptsBroadcastable := by
  intro rank0 rank1 fit ranks inner
  refine (construct_eq_nil _).mpr ⟨rank0, rank1, ?_⟩
  rintro (few | few | unfit | many | different)
  · omega
  · omega
  · exact unfit fit
  · omega
  · exact different inner

/-- The products are those of the reference if and only if nothing wraps around, and what can be
    multiplied is accepted. -/
theorem correct_iff (c : Call) : (c.Multiplies ∧ c.AcceptsBroadcastable) ↔
      (construct c.toArguments = some [] → c.in0.prod ≠ 0 → c.in1.prod ≠ 0 →
        ∀ output, broadcast (batches c.in0) (batches c.in1) = some output → c.Fits output) := by
  rw [multiplies_iff]
  exact and_iff_left (acceptsBroadcastable c)

/-- Two square matrices of 2^32 elements each, times vectors. -/
def wideMatrices : Call where
  version := .v2
  attr := ⟨false, false⟩
  in0 := [2, 2 ^ 16, 2 ^ 16]
  in1 := [2, 2 ^ 16, 1]
  sized0 := ⟨by decide +kernel, by decide +kernel⟩
  sized1 := ⟨by decide +kernel, by decide +kernel⟩

theorem wideMatrices_not_multiplies : ¬wideMatrices.Multiplies := by
  rw [multiplies_iff]
  intro fits
  have addr := (fits (by decide +kernel) (by decide +kernel) (by decide +kernel) [2]
    (by decide +kernel)).addressed0
  have rows := (addressed_cons_iff two_pos (by decide +kernel)).mp addr
  exact absurd rows.2 (by decide +kernel)

end Call

end TfDml.BatchMatMul
