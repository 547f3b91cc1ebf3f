import TfDml.Kernels.MatrixDiagBand

/-! # MatrixDiagPart

The diagonals of a batch of matrices are gathered as rows, the topmost first. Each matrix gets a
row and a column of padding. A position that is not on a diagonal is moved to the padding by a
bound on its index. All indices are computed in 32 bits; the arithmetic is a parameter, so that
the same computation has a meaning without a bound.
-/

namespace TfDml.MatrixDiagPart

open Lib
open ScatterNd (Refusal requires)
open MatrixDiag (Align Attributes attributes)
open StridedSlice (IndexTensor i32)

variable {α : Type}

structure Init where
  outputShape : TensorShape
  lowerDiagIndex : Int
  upperDiagIndex : Int

/-- `lower_diag_index` and `upper_diag_index`, which only `MatrixDiagPartV2` and
    `MatrixDiagPartV3` are given, with the checks of `MatrixDiag`. -/
def diagIndices (diagIndex : Option (IndexTensor 32)) : Except Refusal (Int × Int) :=
  MatrixDiag.diagIndices (diagIndex.map fun tensor => ⟨tensor, 0, 0⟩)

/-- A diagonal of the matrix, or the main diagonal of an empty one. -/
def isDiagonal (numRows numCols : Nat) (k : Int) : Bool :=
  (-(numRows : Int) < k && k < numCols) || k = 0

/-- The constructor of `MatrixDiagPartInitHelper`. -/
def initHelper (input : TensorShape) (diagIndex : Option (IndexTensor 32)) :
    Except Refusal Init := do
  let (lower, upper) ← diagIndices diagIndex
  requires (2 ≤ input.length)
    (.invalidArgument ("input must be at least 2-dim, received shape: " ++ input.debugString))
  let numRows := input.getD (input.length - 2) 0
  let numCols := input.getD (input.length - 1) 0
  requires (isDiagonal numRows numCols lower)
    (.invalidArgument ("lower_diag_index is out of bound: " ++ toString lower ++
      ". It must be between " ++ toString (-(numRows : Int)) ++ " and " ++ toString numCols))
  requires (isDiagonal numRows numCols upper)
    (.invalidArgument ("upper_diag_index is out of bound: " ++ toString upper ++
      " It must be between " ++ toString (-(numRows : Int)) ++ " and " ++ toString numCols))
  requires (lower ≤ upper)
    (.invalidArgument ("lower_diag_index must not be larger than upper_diag_index: " ++
      toString lower ++ " > " ++ toString upper))
  let numDiags := i32 (upper - lower + 1)
  let maxDiagLen := i32 (min (numRows + min upper 0) (numCols - max lower 0))
  let leading := input.take (input.length - 2)
  -- There is no tensor with a negative dimension.
  if 0 ≤ maxDiagLen then
    .ok ⟨leading ++ (if 1 < numDiags then [numDiags.toNat] else []) ++ [maxDiagLen.toNat], lower,
      upper⟩
  else .error .outOfRange

/-- The result of an addition, a subtraction or a multiplication. -/
abbrev Arithmetic := Int → Option Int

/-- Without a bound. -/
def exact : Arithmetic := some

/-- Modulo 2^32, as `int32_t` and as the tensors of the graph have it. -/
def wrapping : Arithmetic := fun x => some (i32 x)

/-- Without a result where 32 bits are not enough. -/
def checked : Arithmetic := fun x => if -2 ^ 31 ≤ x ∧ x < 2 ^ 31 then some x else none

structure Bounds where
  xlenp : Int
  stride : Int
  xmax : Int
  ymax : Int

section Indices

variable (arith : Arithmetic)

def bounds (xlen ylen : Nat) : Option Bounds := do
  let xlenp ← arith (xlen + 1)
  let stride ← arith (xlenp + 1)
  let xmax0 ← arith (xlen * xlenp)
  let xmax1 ← arith (xmax0 + xlenp)
  let xmax ← arith (xmax1 - 1)
  let ymax0 ← arith (xlenp * ylen)
  let ymax ← arith (ymax0 - 1)
  some { xlenp, stride, xmax, ymax }

/-- `RightAlign`, for one element. -/
def rightAlign (maxsize stride size index start maxval : Int) : Option Int := do
  let op1 ← arith (maxsize - size)
  let op2 ← arith (op1 * stride)
  let op3 ← arith (index - op2)
  some (if op3 < start then maxval else op3)

/-- `xsize` and `ysize`: the number of elements of a diagonal. -/
def diagSize (minxy length : Nat) (start : Int) : Option Int := do
  let size ← arith (length + start)
  some (min size minxy)

def xdiag (b : Bounds) (minxy xlen : Nat) (maxsize : Int) (alignSupLeft : Bool) (xstart : Int)
    (n : Nat) : Option Int := do
  let distance ← arith (b.stride * n)
  let xdiags0 ← arith (xstart + distance)
  if alignSupLeft then
    let xmax0 ← arith (xstart * b.xlenp)
    let xmax ← arith (b.xmax - xmax0)
    some (min xdiags0 xmax)
  else
    let xsize ← diagSize arith minxy xlen (-xstart)
    rightAlign arith maxsize b.stride xsize xdiags0 xstart b.ymax

def ydiag (b : Bounds) (minxy ylen : Nat) (maxsize : Int) (alignSubLeft : Bool) (ystart : Int)
    (n : Nat) : Option Int := do
  let distance ← arith (b.stride * n)
  let ydiags1 ← arith (ystart.natAbs * b.xlenp)
  let ydiags2 ← arith (ydiags1 + distance)
  if alignSubLeft then some (min ydiags2 b.ymax)
  else
    let ysize ← diagSize arith minxy ylen ystart
    rightAlign arith maxsize b.stride ysize ydiags2 ydiags1 b.ymax

def descending (first : Int) (count : Nat) : List Int :=
  (List.range count).map fun s : Nat => first - s

/-- `diags_indices`, with a row for each diagonal. -/
def diagsIndices (xlen ylen : Nat) (k0 k1 : Int) (attr : Attributes) :
    Option (List (List Int)) := do
  let bounds ← bounds arith xlen ylen
  let minxy := min xlen ylen
  let xstart := descending k1 (k1 - (max 0 k0 - 1)).toNat
  let ystart := descending (min (-1) k1) (min (-1) k1 - (k0 - 1)).toNat
  let xsize ← xstart.mapM fun start => diagSize arith minxy xlen (-start)
  let ysize ← ystart.mapM fun start => diagSize arith minxy ylen start
  let maxsize ← (xsize ++ ysize).max?
  let xdiags ← xstart.mapM fun start => (List.range maxsize.toNat).mapM
    (xdiag arith bounds minxy xlen maxsize attr.alignSupLeft start)
  let ydiags ← ystart.mapM fun start => (List.range maxsize.toNat).mapM
    (ydiag arith bounds minxy ylen maxsize attr.alignSubLeft start)
  some (xdiags ++ ydiags)

/-- `m2`: each matrix with its padding, as a row. -/
def paddedRows (m : Rows α) (ylen : Nat) (paddingValue : α) : Rows α :=
  let padded := m.surround paddingValue ylen 0 0 1 1
  ⟨m.count / ylen, (ylen + 1) * (m.width + 1), fun b p =>
    padded.flat (b * ((ylen + 1) * (m.width + 1)) + p)⟩

/-- `dml::GatherElements`, with the same indices for each row. -/
def gatherElements (t : Rows α) (indices : List Int) : Option (Rows α) :=
  if indices.all fun p => 0 ≤ p && p < t.width then
    some ⟨t.count, indices.length, fun b q => t.entry b (indices.getD q 0).toNat⟩
  else none

/-- `dml::MatrixDiagPart`, given the rows of all matrices: the diagonals of a matrix are one row. -/
def matrixDiagPart (m : Rows α) (ylen : Nat) (k0 k1 : Int) (paddingValue : α)
    (attr : Attributes) : Option (Rows α) := do
  let indices ← diagsIndices arith m.width ylen k0 k1 attr
  gatherElements (paddedRows m ylen paddingValue) indices.flatten

end Indices

end TfDml.MatrixDiagPart
