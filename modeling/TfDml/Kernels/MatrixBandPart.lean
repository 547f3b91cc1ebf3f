import TfDml.Core.DmlGraph
import TfDml.Kernels.BatchMatMul
import TfDml.Kernels.SimplifySlice
import TfDml.Lib.Grouping

/-! # MatrixBandPart

Each matrix keeps the elements of a band around its diagonal. The bounds of the band are host
tensors; without a bound, a triangle is kept as a whole.
-/

namespace TfDml.MatrixBandPart

open Lib Option
open List hiding flatten
open BatchMatMul (fromEnd)
open DmlGraph (Expression)
open DmlTensorDesc (create)
open StridedSlice (i32)
open TensorShape (dimSize)

structure Arguments where
  input : TensorShape
  numLowerShape : TensorShape
  numLower : Int
  numUpperShape : TensorShape
  numUpper : Int

def notMatrix (input : TensorShape) : Status :=
  .invalidArgument s!"input must be at least 2-dim, received shape: {input.debugString}"

def notScalar (name : String) (shape : TensorShape) : Status :=
  .invalidArgument s!"{name} must be scalar, got shape {shape.debugString}"

def lowerTooLarge (height : Nat) (numLower : Int) : Status :=
  .invalidArgument
    s!"num_lower must be negative or less or equal to number of rows ({height}) got: {numLower}"

def upperTooLarge (width : Nat) (numUpper : Int) : Status :=
  .invalidArgument
    s!"num_upper must be negative or less or equal to number of columns ({width}) got: {numUpper}"

structure Init where
  numLower : Int
  numUpper : Int
  deriving DecidableEq

/-- The checks, once the last two dimensions are read. -/
def validate (args : Arguments) (height width : Nat) : Except Status Init := do
  opRequires (2 ≤ args.input.length) (notMatrix args.input)
  opRequires args.numLowerShape.isScalar (notScalar "num_lower" args.numLowerShape)
  opRequires (args.numLower ≤ height) (lowerTooLarge height args.numLower)
  opRequires args.numUpperShape.isScalar (notScalar "num_upper" args.numUpperShape)
  opRequires (args.numUpper ≤ width) (upperTooLarge width args.numUpper)
  return ⟨if args.numLower < 0 then height - 1 else min args.numLower (height - 1),
    if args.numUpper < 0 then width - 1 else min args.numUpper (width - 1)⟩

/-- `MatrixBandPartInitHelper`. Without a result, it reads a dimension that the input does not
    have. -/
def initHelper (args : Arguments) : Option (Except Status Init) := do
  let height ← dimSize args.input (args.input.length - 2)
  let width ← dimSize args.input (args.input.length - 1)
  return validate args height width

section Kernel

variable {α : Type} [Zero α]

def isIdentity (init : Init) (height width : Nat) : Bool :=
  init.numLower = height - 1 && init.numUpper = width - 1

/-- `dml::Sequence<int32_t>` from 0. -/
def sequence (sizes : List Nat) : Expression Int :=
  .ofIndices sizes fun index => some (i32 (flatten sizes index))

/-- The columns of each row that are kept, and what is kept of the input. -/
def bandPart (input : Expression α) (init : Init) (height width : Nat) : Option (Expression α) := do
  let colIndices ← (sequence [1, 1, 1, width]).reinterpret input.sizes (some [0, 0, 0, 1])
  let rowIndices ← (sequence [1, 1, height, 1]).reinterpret input.sizes (some [0, 0, 1, 0])
  let widthTensor := Expression.scalarTensor (i32 width) input.sizes
  let intZero := Expression.scalarTensor (0 : Int) input.sizes
  let zero := Expression.scalarTensor (0 : α) input.sizes
  -- Start is inclusive and end is exclusive
  let start ← intZero.map₂ max (rowIndices.map fun row => i32 (row - init.numLower))
  let end_ ← widthTensor.map₂ min (rowIndices.map fun row => i32 (init.numUpper + 1 + row))
  let above ← colIndices.map₂ (fun col first => decide (first ≤ col)) start
  let below ← colIndices.map₂ (fun col last => decide (col < last)) end_
  let inside ← above.map₂ and below
  inside.select input zero

/-- `DmlMatrixBandPartKernel` -/
def kernel (input : TensorShape) (init : Init) (values : List α) : Option (Expression α) := do
  let height ← dimSize input (input.length - 2)
  let width ← dimSize input (input.length - 1)
  let batchSize := input.numElements / height / width
  let flattened : TensorShape := [1, batchSize, height, width]
  let desc ← create flattened flattened
  let input : Expression α := ⟨desc.sizes, some desc.strides, values.map some⟩
  if isIdentity init height width then some input.identity
  else bandPart input init height width

/-- `Compute`. Without a result, the init helper reads a missing dimension or a `CHECK` fails. -/
def compute (args : Arguments) (values : List α) : Option (Except Status (List (Option α))) := do
  match ← initHelper args with
  | .error status => return .error status
  | .ok init =>
    if NoOpKernel.isNoOpKernel [args.input, args.numLowerShape, args.numUpperShape]
        [args.input] then
      return .ok (NoOpKernel.zeroed args.input)
    else
      let result ← kernel args.input init values
      return .ok result.buffer

end Kernel

/-- The element is not further below the diagonal than the lower bound, nor above it than the
    upper one. -/
def InBand (numLower numUpper : Int) (i j : Nat) : Prop :=
  (numLower < 0 ∨ (i : Int) - j ≤ numLower) ∧ (numUpper < 0 ∨ (j : Int) - i ≤ numUpper)

instance (numLower numUpper : Int) (i j : Nat) : Decidable (InBand numLower numUpper i j) :=
  inferInstanceAs (Decidable (_ ∧ _))

/-- The band of each matrix, and zeros around it. -/
def reference {α : Type} [Zero α] (args : Arguments) (values : List α) : List (Option α) :=
  (indices args.input).map fun index =>
    if InBand args.numLower args.numUpper (fromEnd index 2) (fromEnd index 1) then
      values[flatten args.input index]?
    else some 0

structure Call extends Arguments where
  lowerScalar : numLowerShape = []
  upperScalar : numUpperShape = []
  lowerBounds : -2 ^ 63 ≤ numLower ∧ numLower < 2 ^ 63
  upperBounds : -2 ^ 63 ≤ numUpper ∧ numUpper < 2 ^ 63

namespace Call

variable (call : Call)

/-- The dimensions that are read exist, and what is rejected has to be. -/
structure Validates : Prop where
  reads : initHelper call.toArguments ≠ none
  rejects : (∃ message, initHelper call.toArguments = some (.error (.invalidArgument message))) ↔
    call.input.length < 2 ∨ fromEnd call.input 2 < call.numLower ∨
      fromEnd call.input 1 < call.numUpper

/-- An accepted input keeps its band, and the shortcut is taken only if that is all of it. -/
def KeepsBand : Prop :=
  ∀ init, initHelper call.toArguments = some (.ok init) → 0 < call.input.prod →
    call.input.prod < 2 ^ 31 →
      (∀ (α : Type) [Zero α] (values : List α), values.length = call.input.prod →
        compute call.toArguments values = some (.ok (reference call.toArguments values))) ∧
      (isIdentity init (fromEnd call.input 2) (fromEnd call.input 1) = true →
        ∀ i < fromEnd call.input 2, ∀ j < fromEnd call.input 1,
          InBand call.numLower call.numUpper i j)

end Call

end TfDml.MatrixBandPart

namespace TfDml.MatrixBandPart

open Lib Option
open List hiding flatten
open BatchMatMul (batches batches_append dimSize_fromEnd fromEnd fromEnd_concat)
open DmlGraph (Expression)
open DmlTensorDesc (address create packedStrides)
open StridedSlice (i32 i32_of_bounds)
open TensorShape (dimSize)

section Validation

variable {args : Arguments}

theorem initHelper_eq (rank : 2 ≤ args.input.length) :
    initHelper args = some (validate args (fromEnd args.input 2) (fromEnd args.input 1)) := by
  have height := dimSize_fromEnd rank two_pos (le_refl 2)
  have width := dimSize_fromEnd rank one_pos (by decide)
  rw [initHelper]
  exact (congrArg₂ (fun h w : Option Nat => h.bind fun h => w.bind fun w =>
    some (validate args h w)) height width)

theorem initHelper_eq_none (rank : args.input.length < 2) : initHelper args = none := by
  have missing : dimSize args.input (args.input.length - 2) = none := by
    rw [dimSize, if_neg (by omega)]
  rw [initHelper, missing]
  rfl

theorem validate_eq_ok {height width : Nat} {init : Init} : validate args height width = .ok init ↔
      2 ≤ args.input.length ∧ args.numLowerShape = [] ∧ args.numLower ≤ height ∧
        args.numUpperShape = [] ∧ args.numUpper ≤ width ∧
        init = ⟨if args.numLower < 0 then height - 1 else min args.numLower (height - 1),
          if args.numUpper < 0 then width - 1 else min args.numUpper (width - 1)⟩ := by
  simp only [validate, bind_eq_ok, opRequires_eq_ok, decide_eq_true_eq, TensorShape.isScalar,
    List.isEmpty_iff]
  constructor
  · rintro ⟨⟨⟩, rank, ⟨⟩, lower, ⟨⟩, rows, ⟨⟩, upper, ⟨⟩, cols, made⟩
    exact ⟨rank, lower, rows, upper, cols, (Except.ok.inj made).symm⟩
  · rintro ⟨rank, lower, rows, upper, cols, rfl⟩
    exact ⟨(), rank, (), lower, (), rows, (), upper, (), cols, rfl⟩

theorem validate_error {height width : Nat} {status : Status}
    (rejected : validate args height width = .error status) :
    ∃ message, status = .invalidArgument message := by
  simp only [validate, requires_eq_error] at rejected
  obtain ⟨-, rfl⟩ | ⟨-, ⟨-, rfl⟩ | ⟨-, ⟨-, rfl⟩ | ⟨-, ⟨-, rfl⟩ | ⟨-, ⟨-, rfl⟩ | ⟨-, ok⟩⟩⟩⟩⟩ :=
    rejected
  · exact ⟨_, rfl⟩
  · exact ⟨_, rfl⟩
  · exact ⟨_, rfl⟩
  · exact ⟨_, rfl⟩
  · exact ⟨_, rfl⟩
  · cases ok

end Validation

section Graph

variable {height width count : Nat}

theorem read_sequence {sizes : List Nat} {strides : Option (List Nat)} {view : List Nat}
    {k : Nat} (lt : k < sizes.prod) (small : sizes.prod < 2 ^ 31) {index : List Nat}
    (place : (⟨view, strides, (sequence sizes).buffer⟩ : Expression Int).place index = k) :
    (⟨view, strides, (sequence sizes).buffer⟩ : Expression Int).read index = some (k : Int) := by
  have buffer : (sequence sizes).buffer =
      (List.range sizes.prod).map fun n : Nat => some (i32 n) := by
    rw [sequence, Expression.ofIndices, ← map_flatten_indices, List.map_map]
    rfl
  rw [Expression.read, place]
  simp only [buffer, getElem?_map, getElem?_range lt, map_some, join_some]
  rw [i32_of_bounds (by omega) (by omega)]

variable {α : Type} [Zero α]

def Kept (init : Init) (width : Nat) (i j : Nat) : Prop :=
  max 0 ((i : Int) - init.numLower) ≤ j ∧ (j : Int) < min (width : Int) (init.numUpper + 1 + i)

instance (init : Init) (width i j : Nat) : Decidable (Kept init width i j) :=
  inferInstanceAs (Decidable (_ ∧ _))

structure Init.Within (init : Init) (height width : Nat) : Prop where
  lower : -1 ≤ init.numLower ∧ init.numLower < height
  upper : -1 ≤ init.numUpper ∧ init.numUpper < width

theorem bandPart_eq {input : Expression α} {init : Init}
    (sizes : input.sizes = [1, count, height, width])
    (rows : 0 < height) (cols : 0 < width) (small : height + width ≤ 2 ^ 31)
    (lt : init.Within height width) : ∃ result, bandPart input init height width = some result ∧
      result.buffer = (indices [1, count, height, width]).map fun index =>
        if Kept init width (index.getD 2 0) (index.getD 3 0) then input.read index else some 0 := by
  have lower := lt.lower
  have upper := lt.upper
  have length (sizes : List Nat) : (sequence sizes).buffer.length = sizes.prod := by
    rw [sequence, Expression.ofIndices, length_map, length_indices]
  have colView : (sequence [1, 1, 1, width]).reinterpret input.sizes (some [0, 0, 0, 1]) =
      some ⟨input.sizes, some [0, 0, 0, 1], (sequence [1, 1, 1, width]).buffer⟩ := by
    refine Expression.reinterpret_eq_some.mpr ⟨rfl, ?_⟩
    rw [length, Expression.extent, sizes]
    simp [DmlTensorDesc.lastElement]
    omega
  have rowView : (sequence [1, 1, height, 1]).reinterpret input.sizes (some [0, 0, 1, 0]) =
      some ⟨input.sizes, some [0, 0, 1, 0], (sequence [1, 1, height, 1]).buffer⟩ := by
    refine Expression.reinterpret_eq_some.mpr ⟨rfl, ?_⟩
    rw [length, Expression.extent, sizes]
    simp [DmlTensorDesc.lastElement]
    omega
  rw [bandPart, colView, rowView]
  simp only [bind_eq_bind, bind_some]
  generalize isCols : (⟨input.sizes, some [0, 0, 0, 1], (sequence [1, 1, 1, width]).buffer⟩ :
    Expression Int) = colIndices
  generalize isRows : (⟨input.sizes, some [0, 0, 1, 0], (sequence [1, 1, height, 1]).buffer⟩ :
    Expression Int) = rowIndices
  have colSizes : colIndices.sizes = input.sizes := by rw [← isCols]
  have rowSizes : rowIndices.sizes = input.sizes := by rw [← isRows]
  obtain ⟨start, isStart, startSizes, readStart⟩ := @Expression.map₂_eq_some _ _ _ max
    (Expression.scalarTensor (0 : Int) input.sizes)
    (rowIndices.map fun row => i32 (row - init.numLower)) rowSizes.symm
  obtain ⟨end_, isEnd, endSizes, readEnd⟩ := @Expression.map₂_eq_some _ _ _ min
    (Expression.scalarTensor (i32 width) input.sizes)
    (rowIndices.map fun row => i32 (init.numUpper + 1 + row)) rowSizes.symm
  obtain ⟨above, isAbove, aboveSizes, readAbove⟩ := @Expression.map₂_eq_some _ _ _
    (fun col first : Int => decide (first ≤ col)) colIndices start (colSizes.trans startSizes.symm)
  obtain ⟨below, isBelow, belowSizes, readBelow⟩ := @Expression.map₂_eq_some _ _ _
    (fun col last : Int => decide (col < last)) colIndices end_ (colSizes.trans endSizes.symm)
  obtain ⟨inside, isInside, insideSizes, readInside⟩ := @Expression.map₂_eq_some _ _ _ and above
    below (aboveSizes.trans belowSizes.symm)
  rw [isStart, bind_some, isEnd, bind_some, isAbove, bind_some, isBelow,
    bind_some, isInside, bind_some]
  refine ⟨_, if_pos ⟨insideSizes.trans (aboveSizes.trans colSizes), rfl⟩, ?_⟩
  rw [Expression.ofIndices, sizes]
  refine map_congr_left fun index mem => ?_
  have here : index ∈ indices input.sizes := by rwa [sizes]
  obtain ⟨n, -, _, first, rfl⟩ := mem_indices_cons.mp mem
  obtain ⟨b, -, _, second, rfl⟩ := mem_indices_cons.mp first
  obtain ⟨i, row, _, third, rfl⟩ := mem_indices_cons.mp second
  obtain ⟨j, col, _, nil, rfl⟩ := mem_indices_cons.mp third
  obtain rfl := mem_singleton.mp nil
  have readCol : colIndices.read [n, b, i, j] = some (j : Int) := by
    rw [← isCols]
    refine read_sequence (by simpa using col) (by simp; omega) ?_
    simp [Expression.place, address]
  have readRow : rowIndices.read [n, b, i, j] = some (i : Int) := by
    rw [← isRows]
    refine read_sequence (by simpa using row) (by simp; omega) ?_
    simp [Expression.place, address]
  have whole : i32 width = width := i32_of_bounds (by omega) (by omega)
  have first : i32 ((i : Int) - init.numLower) = i - init.numLower :=
    i32_of_bounds (by omega) (by omega)
  have last : i32 (init.numUpper + 1 + (i : Int)) = init.numUpper + 1 + i :=
    i32_of_bounds (by omega) (by omega)
  have rowHere : [n, b, i, j] ∈ indices rowIndices.sizes := by rwa [rowSizes]
  have startHere : start.read [n, b, i, j] = some (max 0 ((i : Int) - init.numLower)) := by
    rw [readStart _ here, Expression.read_scalarTensor, Expression.read_map rowHere, readRow,
      map_some, first]
    rfl
  have endHere : end_.read [n, b, i, j] = some (min (width : Int) (init.numUpper + 1 + i)) := by
    rw [readEnd _ here, Expression.read_scalarTensor, Expression.read_map rowHere, readRow,
      map_some, last, whole]
    rfl
  have aboveHere : above.read [n, b, i, j] =
      some (decide (max 0 ((i : Int) - init.numLower) ≤ j)) := by
    rw [readAbove _ (by rwa [colSizes]), readCol, startHere]
    rfl
  have belowHere : below.read [n, b, i, j] =
      some (decide ((j : Int) < min (width : Int) (init.numUpper + 1 + i))) := by
    rw [readBelow _ (by rwa [colSizes]), readCol, endHere]
    rfl
  have insideHere : inside.read [n, b, i, j] = some (decide (Kept init width i j)) := by
    rw [readInside _ (by rwa [aboveSizes, colSizes]), aboveHere, belowHere]
    exact congrArg some (Bool.decide_and _ _).symm
  rw [insideHere, bind_eq_bind, bind_some, Expression.read_scalarTensor]
  simp

end Graph

theorem kept_iff {args : Arguments} {height width : Nat} {init : Init}
    (ok : validate args height width = .ok init) {i j : Nat} (row : i < height)
    (col : j < width) : Kept init width i j ↔ InBand args.numLower args.numUpper i j := by
  obtain ⟨-, -, -, -, -, rfl⟩ := validate_eq_ok.mp ok
  rw [Kept, InBand]
  simp only
  split_ifs <;> omega

theorem within_of_accepted {args : Arguments} {height width : Nat} {init : Init}
    (ok : validate args height width = .ok init) (rows : 0 < height) (cols : 0 < width) :
    init.Within height width := by
  obtain ⟨-, -, lower, -, upper, rfl⟩ := validate_eq_ok.mp ok
  constructor
  · simp only
    split_ifs <;> omega
  · simp only
    split_ifs <;> omega

theorem map_indices_eq {α : Type} (shape : TensorShape) (height width : Nat)
    (f : List Nat → Option α) : (indices [1, shape.prod, height, width]).map f =
      (indices (shape ++ [height, width])).map fun index =>
        f (Lib.collapse [[], shape, [height], [width]] index) := by
  have collapsed := map_collapse_indices [[], shape, [height], [width]]
  simp only [map_cons, map_nil, prod_nil, prod_singleton] at collapsed
  rw [← collapsed, List.map_map]
  simp

theorem collapse_matrix {shape outer : List Nat} (mem : outer ∈ indices shape)
    (height width i j : Nat) :
    Lib.collapse [[], shape, [height], [width]] (outer ++ [i, j]) = [0, flatten shape outer, i, j] := by
  rw [Lib.collapse, length_nil, take_zero, drop_zero, collapse_append (length_of_mem_indices mem)]
  simp [Lib.collapse, flatten]

theorem add_le_mul_add_one {m n : Nat} (first : 0 < m) (snd : 0 < n) : m + n ≤ m * n + 1 := by
  obtain ⟨k, rfl⟩ := Nat.exists_eq_succ_of_ne_zero first.ne'
  have least := Nat.le_mul_of_pos_right k snd
  rw [Nat.succ_mul]
  omega

section Compute

variable {args : Arguments} {init : Init}

theorem kernel_eq (rank : 2 ≤ args.input.length) (ne : 0 < args.input.prod)
    (small : args.input.prod < 2 ^ 31)
    (ok : initHelper args = some (.ok init)) {α : Type} [Zero α] (values : List α) :
    ∃ result, kernel args.input init values = some result ∧
      result.buffer = reference args values := by
  have shape := batches_append rank
  have height : dimSize args.input (args.input.length - 2) = some (fromEnd args.input 2) :=
    dimSize_fromEnd rank two_pos (le_refl 2)
  have width : dimSize args.input (args.input.length - 1) = some (fromEnd args.input 1) :=
    dimSize_fromEnd rank one_pos (by decide)
  rw [initHelper_eq rank, Option.some.injEq] at ok
  generalize fromEnd args.input 2 = rows at *
  generalize fromEnd args.input 1 = cols at *
  generalize batches args.input = outer at *
  have prod : args.input.prod = outer.prod * (rows * cols) := by
    rw [shape]
    simp
  rw [prod] at ne small
  have some_ := Nat.pos_of_mul_pos_right ne
  have matrix := Nat.pos_of_mul_pos_left ne
  have rowsPos := Nat.pos_of_mul_pos_right matrix
  have colsPos := Nat.pos_of_mul_pos_left matrix
  have matrixSmall : rows * cols < 2 ^ 31 := lt_of_le_of_lt (Nat.le_mul_of_pos_left _ some_) small
  have sum := add_le_mul_add_one rowsPos colsPos
  have batchSize : args.input.numElements / rows / cols = outer.prod := by
    rw [TensorShape.numElements, prod, Nat.div_div_eq_div_mul, Nat.mul_div_cancel _ matrix]
  have flatSmall : ([1, outer.prod, rows, cols] : List Nat).prod < 2 ^ 31 := by simpa using small
  have desc : create [1, outer.prod, rows, cols] [1, outer.prod, rows, cols] =
      some ⟨[1, outer.prod, rows, cols], packedStrides [1, outer.prod, rows, cols]⟩ := by
    refine DmlTensorDesc.create_self_eq_some.mpr ⟨⟨by simp; decide, fun dim mem => ?_⟩, rfl⟩
    have dvd := Nat.le_of_dvd (by simpa using ne) (dvd_prod mem)
    omega
  have within := within_of_accepted ok rowsPos colsPos
  obtain ⟨result, eq, buffer⟩ : ∃ result, kernel args.input init values = some result ∧
      result.buffer = (indices [1, outer.prod, rows, cols]).map fun index =>
        if Kept init cols (index.getD 2 0) (index.getD 3 0) then
          (⟨[1, outer.prod, rows, cols], some (packedStrides [1, outer.prod, rows, cols]),
            values.map some⟩ : Expression α).read index
        else some 0 := by
    rw [kernel, height, width]
    simp only [bind_eq_bind, bind_some, batchSize, desc]
    by_cases identity : isIdentity init rows cols = true
    · rw [if_pos identity]
      refine ⟨_, rfl, map_congr_left fun index mem => ?_⟩
      obtain ⟨_, -, _, first, rfl⟩ := mem_indices_cons.mp mem
      obtain ⟨_, -, _, snd, rfl⟩ := mem_indices_cons.mp first
      obtain ⟨i, row, _, third, rfl⟩ := mem_indices_cons.mp snd
      obtain ⟨j, col, _, -, rfl⟩ := mem_indices_cons.mp third
      simp only [isIdentity, Bool.and_eq_true, decide_eq_true_eq] at identity
      refine (if_pos ?_).symm
      rw [Kept, identity.1, identity.2]
      simp only [getD_cons_succ, getD_cons_zero]
      omega
    · rw [if_neg identity]
      exact bandPart_eq rfl rowsPos colsPos (by omega) within
  refine ⟨result, eq, ?_⟩
  rw [buffer, map_indices_eq, reference, shape]
  refine map_congr_left fun index mem => ?_
  obtain ⟨first, inOuter, snd, inMatrix, rfl⟩ := mem_indices_append.mp mem
  obtain ⟨i, row, _, last, rfl⟩ := mem_indices_cons.mp inMatrix
  obtain ⟨j, col, _, nil, rfl⟩ := mem_indices_cons.mp last
  obtain rfl := mem_singleton.mp nil
  have flat := @flatten_collapse [[], outer, [rows], [cols]] (first ++ [i, j])
    (by simpa using mem)
  have lt := @collapse_mem [[], outer, [rows], [cols]] (first ++ [i, j]) (by simpa using mem)
  rw [collapse_matrix inOuter] at flat lt ⊢
  obtain ⟨rowEnd, colEnd⟩ := fromEnd_concat first i j
  have addr := DmlTensorDesc.addressed_of_lt (lt_trans flatSmall (by decide))
    [0, flatten outer first, i, j] (by simpa using lt)
  simp only [map_cons, map_nil, prod_nil, prod_singleton, flatten_cons,
    flatten_nil, nil_append, append_nil, singleton_append] at flat
  rw [rowEnd, colEnd]
  simp only [getD_cons_succ, getD_cons_zero]
  rw [if_congr (kept_iff ok row col) rfl rfl, Expression.read, Expression.place]
  simp only [addr, flat, getElem?_map]
  cases values[flatten (outer ++ [rows, cols]) (first ++ [i, j])]? with
  | none => rfl
  | some x => rfl

theorem compute_eq (rank : 2 ≤ args.input.length) (some_ : 0 < args.input.prod)
    (lt : args.input.prod < 2 ^ 31) (ok : initHelper args = some (.ok init)) {α : Type}
    [Zero α] (values : List α) : compute args values = some (.ok (reference args values)) := by
  obtain ⟨result, eq, buffer⟩ := kernel_eq rank some_ lt ok values
  have valid := ok
  rw [initHelper_eq rank, Option.some.injEq] at valid
  obtain ⟨-, lower, -, upper, -, -⟩ := validate_eq_ok.mp valid
  have runs : NoOpKernel.isNoOpKernel [args.input, args.numLowerShape, args.numUpperShape]
      [args.input] = false := by
    rw [Bool.eq_false_iff, ne_eq, NoOpKernel.isNoOpKernel_iff, lower, upper]
    have scalar : TensorShape.numElements [] = 1 := rfl
    simp only [mem_cons, not_mem_nil, or_false, exists_eq_or_imp, exists_eq_left, scalar]
    rw [TensorShape.numElements]
    omega
  rw [compute, ok]
  simp only [bind_eq_bind, bind_some, runs, Bool.false_eq_true, if_false, eq, buffer]
  rfl

end Compute

namespace Call

variable {call : Call}

theorem validates_of_rank (rank : 2 ≤ call.input.length) : call.Validates := by
  rw [← show call.toArguments.input = call.input from rfl] at rank
  refine ⟨by rw [initHelper_eq rank]; exact some_ne_none _, ?_⟩
  rw [initHelper_eq rank]
  constructor
  · rintro ⟨message, rejected⟩
    by_contra lt
    have acc := (@validate_eq_ok call.toArguments (fromEnd call.input 2)
      (fromEnd call.input 1) _).mpr
        ⟨rank, call.lowerScalar, by omega, call.upperScalar, by omega, rfl⟩
    rw [some.inj rejected] at acc
    cases acc
  · intro invalid
    cases result : validate call.toArguments (fromEnd call.input 2) (fromEnd call.input 1) with
    | ok init =>
      obtain ⟨-, -, lower, -, upper, -⟩ := validate_eq_ok.mp result
      omega
    | error status =>
      obtain ⟨message, rfl⟩ := validate_error result
      exact ⟨message, rfl⟩

theorem keepsBand_of_rank (rank : 2 ≤ call.input.length) : call.KeepsBand := by
  intro init ok some_ lt
  refine ⟨fun α _ values _ => compute_eq rank some_ lt ok values, ?_⟩
  intro identity i row j col
  rw [initHelper_eq rank, Option.some.injEq] at ok
  refine (kept_iff ok row col).mp ?_
  simp only [isIdentity, Bool.and_eq_true, decide_eq_true_eq] at identity
  rw [Kept, identity.1, identity.2]
  omega

/-- The arguments are validated and the band is kept if and only if the input is a matrix or has
    more dimensions. -/
theorem bandPart_iff (call : Call) : call.Validates ∧ call.KeepsBand ↔ 2 ≤ call.input.length := by
  constructor
  · intro both
    by_contra rank
    exact both.1.reads (initHelper_eq_none (Nat.lt_of_not_le rank))
  · exact fun rank => ⟨validates_of_rank rank, keepsBand_of_rank rank⟩

def vector : Call where
  input := [3]
  numLowerShape := []
  numLower := 0
  numUpperShape := []
  numUpper := 0
  lowerScalar := rfl
  upperScalar := rfl
  lowerBounds := by decide
  upperBounds := by decide

theorem vector_not_validated : ¬(vector.Validates ∧ vector.KeepsBand) :=
  fun both => both.1.reads (by decide)

end Call

end TfDml.MatrixBandPart
