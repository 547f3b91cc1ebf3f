import TfDml.Core.MatMulBatches
import TfDml.Core.TensorDescCreate
import TfDml.Kernels.BatchMatMul

/-! # The kernel of BatchMatMul

Operands of up to four dimensions are read through their strides, which are 0 where an operand is
broadcast. Others are copied before, with all batches as one dimension.
-/

namespace TfDml.BatchMatMul

open Lib
open DmlTensorDesc (address create)

variable {α : Type}

/-- An operand in the graph. Without strides, its elements are packed. -/
structure Operand (α : Type) where
  sizes : List Nat
  strides : Option (List Nat)
  buffer : List (Option α)

namespace Operand

def position (operand : Operand α) (index : List Nat) : Nat :=
  match operand.strides with
  | none => flatten operand.sizes index
  | some strides => address strides index

def read (operand : Operand α) (index : List Nat) : Option α :=
  operand.buffer[operand.position index]?.join

def identity (operand : Operand α) : Operand α :=
  ⟨operand.sizes, none, (indices operand.sizes).map operand.read⟩

/-- `dml::Reinterpret` of a packed operand. The number of elements has to stay the same. -/
def reinterpret (operand : Operand α) (sizes : List Nat) : Option (Operand α) :=
  if sizes.prod = operand.sizes.prod then some { operand with sizes } else none

/-- The product has no more than four dimensions. -/
def collapse (batchesShape : TensorShape) (operand : Operand α) : Option (Operand α) :=
  if DmlTensorDesc.kNchwDimensionCount < operand.sizes.length then
    operand.identity.reinterpret [batchesShape.numElements % 2 ^ 32, 1,
      fromEnd operand.sizes 2, fromEnd operand.sizes 1]
  else some operand

end Operand

def orient (transposed : Bool) (rows cols : Nat) : Nat × Nat :=
  if transposed then (cols, rows) else (rows, cols)

def order (transposed : Bool) (row col : Nat) : List Nat :=
  if transposed then [col, row] else [row, col]

section Products

variable [Semiring α]

def dot (inner : Nat) (a b : Nat → Option α) : Option α :=
  ((List.range inner).mapM fun k => do return (← a k) * (← b k)).map List.sum

/-- The products of two matrices for each batch, from the elements at a batch and an index. -/
def products (batchesShape : TensorShape) (transA transB : Bool) (rows inner cols : Nat)
    (a b : List Nat → List Nat → Option α) : List (Option α) :=
  (indices (batchesShape ++ [rows, cols])).map fun index =>
    dot inner (fun k => a (batches index) (order transA (fromEnd index 2) k))
      fun k => b (batches index) (order transB k (fromEnd index 1))

/-- `dml::Gemm`: the elements of the result, which is packed. -/
def gemm (a b : Operand α) (transA transB : Bool) : Option (List (Option α)) :=
  match a.sizes, b.sizes with
  | [n, c, aRows, aCols], [n', c', bRows, bCols] =>
    let (rows, inner) := orient transA aRows aCols
    let (inner', cols) := orient transB bRows bCols
    if n = n' ∧ c = c' ∧ inner = inner' then
      some (products [n, c] transA transB rows inner cols
        (fun batch index => a.read (batch ++ index)) fun batch index => b.read (batch ++ index))
    else none
  | _, _ => none

def rows (args : Arguments) : Nat :=
  (orient args.attr.adjX (fromEnd args.in0 2) (fromEnd args.in0 1)).1

def cols (args : Arguments) : Nat :=
  (orient args.attr.adjY (fromEnd args.in1 2) (fromEnd args.in1 1)).2

/-- `BatchMatMulShapeHelper`. Without a result, `MatMulBCast` is not constructed. -/
def outputShape (args : Arguments) : Option TensorShape := do
  let bcast ← MatMulBCast.create args.in0 args.in1
  return bcast.outputBatchShape ++ [rows args, cols args]

/-- `CreateTensorDescFromInput` of an operand whose batches are the output's. -/
def operandDesc (batchesShape physicalShape : TensorShape) (values : List α) :
    Option (Operand α) := do
  let desc ← create
    (batchesShape ++ [fromEnd physicalShape 2, fromEnd physicalShape 1]) physicalShape
  return ⟨desc.sizes, some desc.strides, values.map some⟩

/-- `DmlBatchMatMulKernel`. Without a result, a `CHECK` fails or there is no such graph. -/
def kernel (args : Arguments) (output : TensorShape) (x y : List α) : Option (List (Option α)) := do
  let batchesShape := batches output
  -- The descriptors of `GetTensorInfos`.
  let _ ← create args.in0 args.in0
  let _ ← create args.in1 args.in1
  let _ ← create output output
  let a ← operandDesc batchesShape args.in0 x
  let b ← operandDesc batchesShape args.in1 y
  let a ← a.collapse batchesShape
  let b ← b.collapse batchesShape
  gemm a b args.attr.adjX args.attr.adjY

/-- `Compute` with accepted operands. No tensor has 2^63 elements. -/
def compute (args : Arguments) (x y : List α) : Option (List (Option α)) := do
  let output ← outputShape args
  if output.numElements < 2 ^ 63 then
    if NoOpKernel.isNoOpKernel [args.in0, args.in1] [output] then
      some (NoOpKernel.zeroed output)
    else kernel args output x y
  else none

/-- An element of an operand, at a batch of the output. -/
def element (shape : TensorShape) (values : List α) (batch index : List Nat) : α :=
  values.getD (flatten shape (broadcastIndex (batches shape) batch ++ index)) 0

/-- The products in the order of the output, whose batches are given. -/
def reference (args : Arguments) (batchesShape : TensorShape) (x y : List α) : List α :=
  (indices (batchesShape ++ [rows args, cols args])).map fun index =>
    ((List.range (inner0 args)).map fun k =>
      element args.in0 x (batches index) (order args.attr.adjX (fromEnd index 2) k) *
        element args.in1 y (batches index) (order args.attr.adjY k (fromEnd index 1))).sum

end Products

structure Call extends Arguments where
  sized0 : BCast.Sized in0
  sized1 : BCast.Sized in1

/-- The products of operands that are accepted and not empty are computed. -/
def Call.Multiplies (c : Call) : Prop :=
  construct c.toArguments = some [] → c.in0.prod ≠ 0 → c.in1.prod ≠ 0 →
    ∀ output, broadcast (batches c.in0) (batches c.in1) = some output →
      outputShape c.toArguments = some (output ++ [rows c.toArguments, cols c.toArguments]) ∧
        ∀ (α : Type) [Semiring α] (x y : List α), x.length = c.in0.prod → y.length = c.in1.prod →
          compute c.toArguments x y = some ((reference c.toArguments output x y).map some)

/-- Operands whose batches can be broadcast are accepted by `BatchMatMulV2`, and those with the same
    batches also by `BatchMatMul`. -/
def Call.AcceptsBroadcastable (c : Call) : Prop :=
  2 ≤ c.in0.length → 2 ≤ c.in1.length → BatchesFit c.toArguments →
    max c.in0.length c.in1.length ≤ 8 → inner0 c.toArguments = inner1 c.toArguments →
      construct c.toArguments = some []

end TfDml.BatchMatMul
