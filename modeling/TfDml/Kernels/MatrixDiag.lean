import TfDml.Kernels.ScatterNdStore
import TfDml.Lib.Rows

/-! # MatrixDiag

The diagonals of a batch of matrices are given as rows, the topmost first. The kernel makes the
matrices of them without any index: it reverses rows, pads them and slices them. How long the
diagonals are, it reads in a table.
-/

namespace TfDml.MatrixDiag

open Lib
open ScatterNd (Refusal requires dimSize)
open StridedSlice (IndexTensor i32)

variable {α : Type}

/-- Where shorter diagonals start, first the superdiagonals, then the subdiagonals. -/
inductive Align where
  | leftLeft | leftRight | rightLeft | rightRight
  deriving DecidableEq

structure Attributes where
  alignSupLeft : Bool
  alignSubLeft : Bool

def attributes : Option Align → Attributes
  | none => ⟨true, true⟩
  | some align => ⟨align = .leftLeft || align = .leftRight, align = .leftLeft || align = .rightLeft⟩

/-- What only `MatrixDiagV2` and `MatrixDiagV3` are given. -/
structure Band where
  diagIndex : IndexTensor 32
  numRows : BitVec 32
  numCols : BitVec 32

/-- `lower_diag_index` and `upper_diag_index`. -/
def diagIndices : Option Band → Except Refusal (Int × Int)
  | none => .ok (0, 0)
  | some band => do
    let shape := band.diagIndex.shape
    requires (shape.isScalar || band.diagIndex.isVector)
      (.invalidArgument ("diag_index must be a scalar or vector, received shape: " ++
        shape.debugString))
    let lower := band.diagIndex.flat 0
    if band.diagIndex.isVector then
      let diagIndexSize := band.diagIndex.numElements
      requires (0 < diagIndexSize && diagIndexSize ≤ 2)
        (.invalidArgument ("diag_index must have only one or two elements, received " ++
          toString diagIndexSize ++ " elements."))
      .ok (lower, if 1 < diagIndexSize then band.diagIndex.flat 1 else lower)
    else .ok (lower, lower)

structure Init where
  leading : TensorShape
  numRows : Nat
  numCols : Nat
  lowerDiagIndex : Int
  upperDiagIndex : Int

def Init.outputShape (init : Init) : TensorShape := init.leading ++ [init.numRows, init.numCols]

/-- The numbers of rows and columns, of which -1 is unknown. -/
def resolveDims (numRows numCols minNumRows minNumCols : Int) : Int × Int :=
  if numRows = -1 ∧ numCols = -1 then
    -- Assume that the output is square.
    (max minNumRows minNumCols, max minNumRows minNumCols)
  else if numRows = -1 then (minNumRows, numCols)
  else if numCols = -1 then (numRows, minNumCols)
  else (numRows, numCols)

def checkNumDiags (diagonal : TensorShape) (lower upper : Int) : Except Refusal Unit :=
  if lower = upper then .ok ()
  else do
    let provided ← dimSize diagonal.reverse 1
    requires (provided = i32 (upper - lower + 1))
      (.invalidArgument ("The number of diagonals provided in the input does not " ++
        "match the lower_diag_index and upper_diag_index range."))

def outputDims (maxDiagLen numRows numCols lower upper : Int) : Except Refusal (Nat × Nat) := do
  let minNumRows := i32 (maxDiagLen - min upper 0)
  let minNumCols := i32 (maxDiagLen + max lower 0)
  requires (numRows = -1 || minNumRows ≤ numRows)
    (.invalidArgument "The number of rows is too small.")
  requires (numCols = -1 || minNumCols ≤ numCols)
    (.invalidArgument "The number of columns is too small.")
  let dims := resolveDims numRows numCols minNumRows minNumCols
  requires (dims.1 = minNumRows || dims.2 = minNumCols)
    (.invalidArgument ("The number of rows or columns is not consistent with " ++
      "the specified d_lower, d_upper, and diagonal."))
  -- There is no tensor with a negative dimension.
  if 0 ≤ dims.1 ∧ 0 ≤ dims.2 then .ok (dims.1.toNat, dims.2.toNat) else .error .outOfRange

/-- The constructor of `MatrixDiagInitHelper`. -/
def initHelper (diagonal : TensorShape) (band : Option Band) : Except Refusal Init := do
  let (lower, upper) ← diagIndices band
  requires diagonal.isVectorOrHigher
    (.invalidArgument ("diagonal must be at least 1-dim, received shape: " ++ diagonal.debugString))
  requires (lower ≤ upper)
    (.invalidArgument ("lower_diag_index must not be larger than upper_diag_index: " ++
      toString lower ++ " > " ++ toString upper))
  checkNumDiags diagonal lower upper
  let (rows, cols) ← outputDims (diagonal.getLastD 0)
    (band.elim (-1) fun band => band.numRows.toInt) (band.elim (-1) fun band => band.numCols.toInt)
    lower upper
  let numDiags := i32 (upper - lower + 1)
  .ok ⟨if numDiags = 1 then diagonal.dropLast else diagonal.dropLast.dropLast, rows, cols, lower,
    upper⟩

/-- `k_lens_cpu`: left bottom, middle, top right. -/
def kLensCpu (outHeight outWidth : Nat) : List Nat :=
  let rwclMin := min outHeight outWidth
  let rwclGap := max outHeight outWidth - rwclMin
  (List.range (rwclMin - 1)).map (· + 1) ++ List.replicate (rwclGap + 1) rwclMin ++
    (List.range (rwclMin - 1)).map (rwclMin - 1 - ·)

/-- An access to the table, which has nothing outside. -/
def readAt (table : List Nat) (i : Int) : Option Nat := if 0 ≤ i then table[i.toNat]? else none

def readRange (table : List Nat) (start stop : Int) : Option (List Nat) :=
  (List.range (stop - start).toNat).mapM fun i : Nat => readAt table (start + i)

/-- What `dml::MatrixDiag` computes before it builds the graph, and the sizes of the graph. -/
structure Layout where
  kSubStt : Int
  kSubLen : Int
  kSupStt : Int
  kSupLen : Int
  /-- `top_pad`, which is `left_pad` too. -/
  topPad : Int
  btmPad : Int
  rightPad : Int
  padLeftWidth : Int
  allWidth : Int
  diagonalizeWidth : Int
  padTop : Int
  padLft : Int
  padBtm : Int
  padRht : Int

def Layout.sizes (l : Layout) : List Int :=
  [l.kSubLen, l.kSupLen, l.topPad, l.btmPad, l.rightPad, l.padLeftWidth, l.allWidth,
    l.diagonalizeWidth, l.padTop, l.padLft, l.padBtm, l.padRht]

/-- The absolute values of `k_range`. -/
def kRange (kMin kMax : Int) : List Nat :=
  (List.range (kMax - kMin + 1).toNat).map fun s : Nat => (kMin + s).natAbs

def layout (diagDepth diagWidth outHeight outWidth : Nat) (kMin kMax : Int) : Option Layout := do
  let minK2zero ← (kRange kMin kMax).min?
  let kBtm : Int := 1 - outHeight
  let table := kLensCpu outHeight outWidth
  let kSupStt := i32 (max 0 kMin - kBtm)
  let kSupEnd := max (i32 (i32 (kMax + 1) - kBtm)) kSupStt
  let kSubStt := i32 (kMin - kBtm)
  let kSubEnd := max (i32 (min 0 (i32 (kMax + 1)) - kBtm)) kSubStt
  let kSub ← readRange table kSubStt kSubEnd
  let kSup ← readRange table kSupStt kSupEnd
  let allKLens := kSub ++ kSup
  let maxKLen ← allKLens.max?
  let topKLen ← allKLens.getLast?
  let btmKLen ← allKLens.head?
  let kMaxLen ← readAt table (i32 (kMax - kBtm))
  let topPad : Int := maxKLen - topKLen
  let btmPad : Int := maxKLen - btmKLen
  let rightPad := btmPad + diagWidth
  let newWidth : Int := kMaxLen + (kMax.natAbs - minK2zero)
  let padTop := max 0 (-kMax)
  let padLft := max 0 kMin
  some {
    kSubStt, kSupStt, topPad, btmPad, rightPad, padTop, padLft
    kSubLen := max 0 (kSubEnd - kSubStt)
    kSupLen := max 0 (kSupEnd - kSupStt)
    padLeftWidth := diagDepth + topPad + rightPad - topPad
    allWidth := diagDepth + rightPad - btmPad
    diagonalizeWidth := newWidth
    padBtm := outHeight - diagWidth - padTop
    padRht := outWidth - newWidth - padLft }

/-- A tensor of the graph. DML doesn't support empty tensors, and the number of elements is a
    32-bit value. -/
def tensor (t : Rows α) : Option (Rows α) := if 0 < t.size ∧ t.size < 2 ^ 32 then some t else none

def sequence (start step : Int) (count : Nat) : Option (Rows Int) :=
  tensor ⟨1, count, fun _ j => start + step * j⟩

def scalarTensor (value : Int) (count width : Nat) : Option (Rows Int) :=
  tensor ⟨count, width, fun _ _ => value⟩

/-- `dml::Slice` of the columns. -/
def sliceColumns (t : Rows α) (start width : Nat) : Option (Rows α) :=
  if start + width ≤ t.width then tensor (t.columns start width) else none

/-- `dml::ReverseSubsequences`, with a length for each row. -/
def reverseSubsequences (t : Rows α) (lengths : Rows Int) : Option (Rows α) :=
  let valid (i : Nat) : Bool := 0 ≤ lengths.entry i 0 && lengths.entry i 0 ≤ t.width
  if lengths.count = t.count ∧ (List.range t.count).all valid then
    some (t.reverse fun i => (lengths.entry i 0).toNat)
  else none

def kLens (rwclMin rwclGap : Nat) : Option (Rows Int) := do
  let leftBtm ← sequence 1 1 (rwclMin - 1)
  let rightTop ← sequence (rwclMin - 1) (-1) (rwclMin - 1)
  let klenMid ← scalarTensor rwclMin 1 (rwclGap + 1)
  tensor ((leftBtm.beside klenMid).beside rightTop)

/-- `sup_rev_len_1` and `sup_rev_len_2`, or with the roles exchanged `sub_rev_len_2` and
    `sub_rev_len_1`. -/
def revLens (lens : Option (Rows Int)) (keep : Bool) (diagWidth start length : Nat) :
    Option (Rows Int × Rows Int) := do
  if keep then
    let ones ← scalarTensor 1 1 length
    some (ones, ones)
  else
    let full ← scalarTensor diagWidth 1 length
    let partly ← sliceColumns (← lens) start length
    some (full, partly)

/-- `cnt_rev_len_1` and `cnt_rev_len_2` -/
def cntRevLens (lens : Option (Rows Int)) (attr : Attributes) (diagWidth : Nat) (l : Layout) :
    Option (Rows Int × Rows Int) := do
  let sub := revLens lens (!attr.alignSubLeft) diagWidth l.kSubStt.toNat l.kSubLen.toNat
  let sup := revLens lens attr.alignSupLeft diagWidth l.kSupStt.toNat l.kSupLen.toNat
  if l.kSubLen = 0 then sup
  else if l.kSupLen = 0 then return (← sub).swap
  else
    let (subRevLen2, subRevLen1) ← sub
    let (supRevLen1, supRevLen2) ← sup
    return (← tensor (subRevLen1.beside supRevLen1), ← tensor (subRevLen2.beside supRevLen2))

def descending (cntRevLen : Rows Int) : Option (Rows Int) := do
  let length := cntRevLen.width
  if 1 < length then reverseSubsequences cntRevLen (← scalarTensor length 1 1)
  else some cntRevLen

/-- `exp_rev_len_1` and `exp_rev_len_2`: the lengths for each batch. -/
def expRevLen (cntRevLen : Rows Int) (rows : Nat) : Option (Rows Int) := do
  let expRevLen ← descending cntRevLen
  tensor (expRevLen.column (rows / cntRevLen.width))

/-- `sorted_diag`: superdiagonals on the left and subdiagonals on the right. -/
def sortedDiag (diag : Rows α) (cntRevLen1 cntRevLen2 : Rows Int) : Option (Rows α) := do
  let reversedDiag1 ← reverseSubsequences diag (← expRevLen cntRevLen1 diag.count)
  reverseSubsequences reversedDiag1 (← expRevLen cntRevLen2 diag.count)

def dropColumns (t : Rows α) (n : Nat) : Option (Rows α) :=
  if 0 < n then sliceColumns t n (t.width - n) else some t

/-- `pad_left`: what a shorter diagonal at the top does not have is replaced. -/
def padLeft (tranDiag : Rows α) (paddingValue : α) (batches diagWidth topPad rightPad : Nat) :
    Option (Rows α) := do
  let diagPad ← tensor (tranDiag.pad paddingValue topPad rightPad)
  let rg ← sequence (2 * topPad - diagWidth + 1) 1 diagWidth
  let range ← tensor ((rg.map (max 0 ·)).column batches)
  dropColumns (← reverseSubsequences diagPad range) topPad

/-- `pad_right`: the same at the bottom. -/
def padRight (padLeft : Rows α) (batches diagWidth btmPad rightPad : Nat) : Option (Rows α) := do
  let padFullLength ← scalarTensor padLeft.width padLeft.count 1
  let rev ← reverseSubsequences padLeft padFullLength
  let rg2 ← sequence (rightPad + btmPad) (-1) diagWidth
  let range2 ← tensor (rg2.column batches)
  let rawPadRight ← dropColumns (← reverseSubsequences rev range2) btmPad
  let allWidth ← scalarTensor rawPadRight.width rawPadRight.count 1
  reverseSubsequences rawPadRight allWidth

/-- `rev2`: each row is moved to the right of the one above. -/
def rev2 (padRight : Rows α) (batches diagDepth diagWidth btmPad : Nat) : Option (Rows α) := do
  let rg3 ← sequence (diagDepth - btmPad) 1 diagWidth
  let range3 ← tensor (rg3.column batches)
  reverseSubsequences padRight range3

/-- `dml::MatrixDiag`, given the diagonals of all batches as rows. -/
def matrixDiag (diag : Rows α) (batches diagDepth : Nat) (kMin kMax : Int) (paddingValue : α)
    (outHeight outWidth : Nat) (attr : Attributes) : Option (Rows α) := do
  let diagWidth := diag.width
  let l ← layout diagDepth diagWidth outHeight outWidth kMin kMax
  let rwclMin := min outHeight outWidth
  let rwclGap := max outHeight outWidth - rwclMin
  -- As an unsigned value, a negative size is too large.
  if l.sizes.all (0 ≤ ·) then
    let (cntRevLen1, cntRevLen2) ← cntRevLens (kLens rwclMin rwclGap) attr diagWidth l
    let sorted ← sortedDiag diag cntRevLen1 cntRevLen2
    let tranDiag ← tensor (sorted.transpose diagDepth)
    let left ← padLeft tranDiag paddingValue batches diagWidth l.topPad.toNat l.rightPad.toNat
    let right ← padRight left batches diagWidth l.btmPad.toNat l.rightPad.toNat
    let sheared ← rev2 right batches diagDepth diagWidth l.btmPad.toNat
    let newDiag ← sliceColumns sheared 0 l.diagonalizeWidth.toNat
    tensor (newDiag.surround paddingValue diagWidth l.padTop.toNat l.padLft.toNat l.padBtm.toNat
      l.padRht.toNat)
  else none

/-- `diag_shape` of `DiagonalizeComplexMatrix`. -/
def diagShape (input : TensorShape) (kDepth : Int) : TensorShape :=
  let input := if input.length = 1 then 1 :: input else input
  let oldDiagDepth := i32 (input.getD (input.length - 2) 0)
  let missingDims := if kDepth = oldDiagDepth then 4 - input.length else 4 - input.length - 1
  let input := List.replicate missingDims 1 ++ input
  -- Each vector is placed on a different batch.
  let input := if kDepth = oldDiagDepth then input else input.insertIdx (input.length - 1) 1
  let batchDims := input.length - 3
  (input.take batchDims).prod :: input.drop batchDims

/-- `DiagonalizeComplexMatrix`, on the buffer of the input. -/
def diagonalizeComplexMatrix (diagonal : TensorShape) (init : Init) (attr : Attributes)
    (values : Nat → α) (paddingValue : α) : Option (Rows α) := do
  let kMin := init.lowerDiagIndex
  let kMax := init.upperDiagIndex
  let diagShape := diagShape diagonal (i32 (kMax + 1 - kMin))
  let outElements := init.outputShape.numElements
  let _ ← DmlTensorDesc.create diagShape diagShape
  let _ ← DmlTensorDesc.create [outElements] [outElements]
  let diagWidth := diagShape.getD 3 0
  let batches := diagShape.getD 0 0 * diagShape.getD 1 0
  let diagDepth := diagShape.getD 2 0
  let diag ← tensor ⟨batches * diagDepth, diagWidth, fun i j => values (i * diagWidth + j)⟩
  matrixDiag diag batches diagDepth kMin kMax paddingValue init.numRows init.numCols attr

end TfDml.MatrixDiag
