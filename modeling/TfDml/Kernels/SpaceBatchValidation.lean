import TfDml.Kernels.SpaceBatchHelper

/-! # What SpaceToBatch and BatchToSpace accept

Only the product of the block sizes is required to be positive. The number of elements is right
for block sizes of at least one, unless a size overflows.
-/

namespace TfDml.SpaceBatch

open Lib List
open GatherNd (IndexType)
open RangeOp (i64 i64_of_bounds)
open ScatterNd (indexWidth)
open StridedSlice (IndexTensor)

theorem split_dims (dims : List BlockDim) :
    removedPrefix dims ++ internalDims dims ++ removedSuffix dims = dims := by
  rw [append_assoc, internalDims, removedSuffix, rdropWhile_append_rtakeWhile,
    removedPrefix, takeWhile_append_dropWhile]

variable {d : BlockDim}

theorem combines_of_removed {dims : List BlockDim} (mem : d ∈ removedPrefix dims) :
    d.combines = true :=
  mem_takeWhile_imp mem

theorem combines_of_mem_suffix {dims : List BlockDim} (mem : d ∈ removedSuffix dims) :
    d.combines = true :=
  mem_rtakeWhile_imp mem

theorem combines_iff : d.combines = true ↔ d.before = 0 ∧ d.after = 0 ∧ d.block = 1 := by
  rw [BlockDim.combines, Bool.and_eq_true, Bool.and_eq_true, beq_iff_eq, beq_iff_eq, beq_iff_eq,
    and_assoc]

section Dims

variable {w : Nat} (input : TensorShape) (amounts : IndexTensor w) (blockShape : List Int)

theorem length_blockDims : (blockDims input amounts blockShape).length = blockShape.length := by
  rw [blockDims, length_map, length_range]

theorem map_block_blockDims :
    (blockDims input amounts blockShape).map BlockDim.block = blockShape := by
  rw [blockDims, map_map]
  exact map_getD_range blockShape 0

variable {input blockShape} in
theorem map_size_blockDims (rank : 1 + blockShape.length ≤ input.length) :
    (blockDims input amounts blockShape).map BlockDim.size =
      (input.drop 1).take blockShape.length := by
  rw [blockDims, map_map]
  refine ext_getElem (by simp; omega) fun d lt _ => ?_
  simp only [length_map, length_range] at lt
  simp only [getElem_map, getElem_range, Function.comp_apply, getElem_take, getElem_drop]
  rw [getD_eq_getElem _ _ (by omega)]
  congr 1
  omega

def trailing : List Nat := input.drop (1 + blockShape.length)

variable {input blockShape} in
theorem remaining_eq (rank : 1 + blockShape.length ≤ input.length) :
    remaining input (blockDims input amounts blockShape) =
      sizes (removedSuffix (blockDims input amounts blockShape)) ++
        (trailing input blockShape).map fun size : Nat => (size : Int) := by
  have split := split_dims (blockDims input amounts blockShape)
  have sizes_eq := map_size_blockDims amounts rank
  have length := length_blockDims input amounts blockShape
  generalize blockDims input amounts blockShape = dims at *
  have tail : input.drop 1 = dims.map BlockDim.size ++ trailing input blockShape := by
    rw [sizes_eq, trailing, ← drop_drop, take_append_drop]
  have parts : dims.map BlockDim.size =
      (removedPrefix dims ++ internalDims dims).map BlockDim.size ++
        (removedSuffix dims).map BlockDim.size := by rw [← map_append, split]
  have outer : dims.length - (removedSuffix dims).length =
      ((removedPrefix dims ++ internalDims dims).map BlockDim.size).length := by
    rw [length_map]
    have lens := congrArg List.length split
    rw [length_append] at lens
    omega
  rw [remaining, add_comm, ← drop_drop, tail, outer, parts, append_assoc,
    drop_left, map_append, sizes, map_map]
  rfl

end Dims

theorem i64_mul (m n : Int) : i64 (i64 m * n) = i64 (m * n) := by
  rw [i64, i64, i64, Int.bmod_mul_bmod]

theorem mul_i64 (m n : Int) : i64 (m * i64 n) = i64 (m * n) := by
  rw [Int.mul_comm, i64_mul, Int.mul_comm]

theorem product64_eq (start : Int) (factors : List Int) :
    product64 (i64 start) factors = i64 (start * factors.prod) := by
  induction factors generalizing start with
  | nil => rw [prod_nil, Int.mul_one]; rfl
  | cons factor rest ih =>
    rw [prod_cons, ← Int.mul_assoc, ← ih, product64, foldl_cons, i64_mul]
    rfl

theorem product64_one (factors : List Int) : product64 1 factors = i64 factors.prod := by
  have all := product64_eq 1 factors
  rwa [Int.one_mul] at all

variable {n : Int}

theorem i64_nonneg_le (nat : 0 ≤ n) : i64 n ≤ n := by
  by_cases lt : n < 2 ^ 63
  · rw [i64_of_bounds (by omega) lt]
  · have below : i64 n < 2 ^ 63 := Int.bmod_lt (by decide)
    omega

theorem i64_eq_iff (nat : 0 ≤ n) : i64 n = n ↔ n < 2 ^ 63 := by
  constructor
  · intro same
    have below : i64 n < 2 ^ 63 := Int.bmod_lt (by decide)
    omega
  · exact i64_of_bounds (by omega)

def outSize (direction : Direction) (d : BlockDim) : Int :=
  match direction with
  | .spaceToBatch => (i64 (d.size + d.before + d.after)).tdiv d.block
  | .batchToSpace => i64 (d.size * d.block - d.before - d.after)

def outBatch (direction : Direction) (batch blockShapeProduct : Int) : Int :=
  match direction with
  | .spaceToBatch => i64 (batch * blockShapeProduct)
  | .batchToSpace => batch.tdiv blockShapeProduct

def Checked (direction : Direction) (d : BlockDim) : Prop :=
  (0 ≤ d.before ∧ 0 ≤ d.after) ∧ match direction with
    | .spaceToBatch => (i64 (d.size + d.before + d.after)).tmod d.block = 0
    | .batchToSpace => 0 ≤ i64 (d.size * d.block - d.before - d.after)

variable {size : Int}

theorem paddedDim_eq_ok :
    paddedDim d = .ok size ↔ Checked .spaceToBatch d ∧ outSize .spaceToBatch d = size := by
  simp only [paddedDim, bind_eq_ok, opRequires_eq_ok, exists_const, Bool.and_eq_true,
    decide_eq_true_eq, beq_iff_eq, Except.ok.injEq, Checked, outSize, and_assoc]

theorem croppedDim_eq_ok :
    croppedDim d = .ok size ↔ Checked .batchToSpace d ∧ outSize .batchToSpace d = size := by
  simp only [croppedDim, bind_eq_ok, opRequires_eq_ok, exists_const, Bool.and_eq_true,
    decide_eq_true_eq, Except.ok.injEq, Checked, outSize, and_assoc]

structure Accepted {w : Nat} (direction : Direction) (input : TensorShape)
    (amounts : IndexTensor w) (blockShape : List Int) : Prop where
  rank : 1 + blockShape.length ≤ input.length
  matrix : (amounts.shape.length = 2 ∧ amounts.shape.getD 0 0 = blockShape.length) ∧
    amounts.shape.getD 1 0 = 2
  positive : 0 < i64 blockShape.prod
  divides : direction = .batchToSpace → (input.getD 0 0 : Int).tmod (i64 blockShape.prod) = 0
  few : (internalDims (blockDims input amounts blockShape)).length ≤ kMaxSpaceToBatchBlockDims
  checked : ∀ d ∈ internalDims (blockDims input amounts blockShape), Checked direction d

def initOf {w : Nat} (direction : Direction) (input : TensorShape) (amounts : IndexTensor w)
    (blockShape : List Int) : Init :=
  let dims := blockDims input amounts blockShape
  let inner := internalDims dims
  let inputBatchSize := product64 (input.getD 0 0) (sizes (removedPrefix dims))
  let depth := product64 1 (remaining input dims)
  let blockShapeProduct := product64 1 blockShape
  { internalInputShape := inputBatchSize :: sizes inner ++ [depth]
    internalOutputShape := outBatch direction inputBatchSize blockShapeProduct ::
      inner.map (outSize direction) ++ [depth]
    outputShape := outBatch direction (input.getD 0 0) blockShapeProduct ::
      sizes (removedPrefix dims) ++ inner.map (outSize direction) ++ remaining input dims
    internalDims := inner }

theorem checkShapes_eq_ok {w : Nat} {name : String} {input : TensorShape}
    {amounts : IndexTensor w} {blockShape : List Int} {result : Unit} :
    checkShapes name input amounts blockShape = .ok result ↔ 1 + blockShape.length ≤ input.length ∧
        ((amounts.shape.length = 2 ∧ amounts.shape.getD 0 0 = blockShape.length) ∧
          amounts.shape.getD 1 0 = 2) ∧ 0 < i64 blockShape.prod := by
  simp only [checkShapes, bind_eq_ok, opRequires_eq_ok, exists_const, Bool.and_eq_true,
    decide_eq_true_eq, beq_iff_eq, product64_one]

variable {direction : Direction}

theorem initializeFor_eq_ok {w : Nat} {input : TensorShape} {amounts : IndexTensor w}
    {blockShape : List Int} {init : Init} :
    initializeFor direction input amounts blockShape = .ok init ↔
      Accepted direction input amounts blockShape ∧
        initOf direction input amounts blockShape = init := by
  cases direction with
  | spaceToBatch =>
    simp only [initializeFor, initializeSpaceToBatch, bind_eq_ok, checkShapes_eq_ok,
      exists_const, checkInternalDims, opRequires_eq_ok, decide_eq_true_eq,
      mapM_eq_ok fun _ _ => paddedDim_eq_ok, Except.ok.injEq]
    constructor
    · rintro ⟨⟨rank, matrix, positive⟩, few, outs, ⟨checked, rfl⟩, made⟩
      exact ⟨⟨rank, matrix, positive, (by rintro ⟨⟩), few, checked⟩, made⟩
    · rintro ⟨⟨rank, matrix, positive, -, few, checked⟩, made⟩
      exact ⟨⟨rank, matrix, positive⟩, few, _, ⟨checked, rfl⟩, made⟩
  | batchToSpace =>
    simp only [initializeFor, initializeBatchToSpace, bind_eq_ok, checkShapes_eq_ok,
      exists_const, checkInternalDims, opRequires_eq_ok, decide_eq_true_eq, beq_iff_eq,
      mapM_eq_ok fun _ _ => croppedDim_eq_ok, Except.ok.injEq, product64_one]
    constructor
    · rintro ⟨⟨rank, matrix, positive⟩, dvd, few, outs, ⟨checked, rfl⟩, made⟩
      refine ⟨⟨rank, matrix, positive, fun _ => dvd, few, checked⟩, ?_⟩
      rw [← made]
      simp only [initOf, product64_one, outBatch]
    · rintro ⟨⟨rank, matrix, positive, dvd, few, checked⟩, made⟩
      refine ⟨⟨rank, matrix, positive⟩, dvd rfl, few, _, ⟨checked, rfl⟩, ?_⟩
      rw [← made]
      simp only [initOf, product64_one, outBatch]

theorem i64_natCast {n : Nat} (lt : n < 2 ^ 63) : i64 n = n := i64_of_bounds (by omega) (by omega)

theorem outSize_of_combines (combines : d.combines = true) (lt : d.size < 2 ^ 63) :
    outSize direction d = d.size := by
  obtain ⟨pre, after, block⟩ := combines_iff.mp combines
  cases direction with
  | spaceToBatch =>
    rw [outSize, pre, after, block, Int.add_zero, Int.add_zero, i64_natCast lt, Int.tdiv_one]
  | batchToSpace =>
    rw [outSize, pre, after, block, Int.sub_zero, Int.sub_zero, Int.mul_one, i64_natCast lt]

theorem checked_of_combines (combines : d.combines = true) (lt : d.size < 2 ^ 63) :
    Checked direction d := by
  have size : outSize direction d = d.size := outSize_of_combines combines lt
  obtain ⟨pre, after, block⟩ := combines_iff.mp combines
  refine ⟨⟨pre.ge, after.ge⟩, ?_⟩
  cases direction with
  | spaceToBatch => rw [block, Int.tmod_one]
  | batchToSpace => exact (Int.natCast_nonneg d.size).trans_eq size.symm

section Sized

variable {w : Nat} {input : TensorShape} {amounts : IndexTensor w} {blockShape : List Int}
  (sized : ∀ dim ∈ input, dim < 2 ^ 63)

include sized

variable {d : BlockDim}

theorem size_lt (rank : 1 + blockShape.length ≤ input.length)
    (mem : d ∈ blockDims input amounts blockShape) : d.size < 2 ^ 63 := by
  have inSizes := mem_map_of_mem (f := BlockDim.size) mem
  rw [map_size_blockDims amounts rank] at inSizes
  exact sized _ (mem_of_mem_drop (mem_of_mem_take inSizes))

variable {direction : Direction}

theorem Accepted.checkedAll (ok : Accepted direction input amounts blockShape)
    (mem : d ∈ blockDims input amounts blockShape) : Checked direction d := by
  have lt := size_lt sized ok.rank mem
  rw [← split_dims (blockDims input amounts blockShape)] at mem
  rcases mem_append.mp mem with outer | inSuffix
  · rcases mem_append.mp outer with inPrefix | inner
    · exact checked_of_combines (combines_of_removed inPrefix) lt
    · exact ok.checked d inner
  · exact checked_of_combines (combines_of_mem_suffix inSuffix) lt

theorem outputShape_initOf (rank : 1 + blockShape.length ≤ input.length) :
    (initOf direction input amounts blockShape).outputShape =
      outBatch direction (input.getD 0 0) (i64 blockShape.prod) ::
        ((blockDims input amounts blockShape).map (outSize direction) ++
          (trailing input blockShape).map fun size : Nat => (size : Int)) := by
  have combined : ∀ dims : List BlockDim, (∀ d ∈ dims, d.combines = true) →
      (∀ d ∈ dims, d ∈ blockDims input amounts blockShape) →
      sizes dims = dims.map (outSize direction) := fun dims combines lt =>
    map_congr_left fun d mem =>
      (outSize_of_combines (combines d mem) (size_lt sized rank (lt d mem))).symm
  have split := split_dims (blockDims input amounts blockShape)
  have first := combined (removedPrefix (blockDims input amounts blockShape))
    (fun _ => combines_of_removed) fun d mem => by
      rw [← split]
      exact mem_append_left _ (mem_append_left _ mem)
  have last := combined (removedSuffix (blockDims input amounts blockShape))
    (fun _ => combines_of_mem_suffix) fun d mem => by
      rw [← split]
      exact mem_append_right _ mem
  simp only [initOf, product64_one, remaining_eq amounts rank, first, last, cons_append]
  rw [← append_assoc, ← map_append, ← map_append, split]

end Sized

theorem numElements_eq {w : Nat} {input : TensorShape} (amounts : IndexTensor w)
    {blockShape : List Int} (rank : 1 + blockShape.length ≤ input.length) :
    input.numElements = input.getD 0 0 *
      ((blockDims input amounts blockShape).map BlockDim.size).prod *
        (trailing input blockShape).prod := by
  cases input with
  | nil => simp at rank
  | cons batch rest =>
    rw [map_size_blockDims amounts rank, trailing, TensorShape.numElements, prod_cons,
      getD_cons_zero, mul_assoc, ← drop_drop, prod_take_mul_prod_drop]
    rfl

section Products

variable {β : Type} {l : List β}

variable {f : β → Int}

theorem prod_map_nonneg (nat : ∀ x ∈ l, 0 ≤ f x) : 0 ≤ (l.map f).prod :=
  prod_induction (0 ≤ ·) (fun _ _ => Int.mul_nonneg) Int.one_nonneg fun n mem => by
    obtain ⟨x, lt, rfl⟩ := mem_map.mp mem
    exact nat x lt

variable {g : β → Int}

theorem prod_map_le (nat : ∀ x ∈ l, 0 ≤ f x) (le : ∀ x ∈ l, f x ≤ g x) :
    (l.map f).prod ≤ (l.map g).prod := by
  induction l with
  | nil => exact Int.le_refl 1
  | cons x rest ih =>
    obtain ⟨first, later⟩ := forall_mem_cons.mp nat
    obtain ⟨firstLe, laterLe⟩ := forall_mem_cons.mp le
    rw [map_cons, map_cons, prod_cons, prod_cons]
    exact Int.mul_le_mul firstLe (ih later laterLe) (prod_map_nonneg later)
      (Int.le_trans first firstLe)

theorem eq_of_prod_map_eq (nat : ∀ x ∈ l, 0 ≤ f x) (le : ∀ x ∈ l, f x ≤ g x)
    (same : (l.map f).prod = (l.map g).prod) (positive : (l.map g).prod ≠ 0) :
    ∀ x ∈ l, f x = g x := by
  induction l with
  | nil => exact fun _ mem => absurd mem not_mem_nil
  | cons x rest ih =>
    obtain ⟨first, later⟩ := forall_mem_cons.mp nat
    obtain ⟨firstLe, laterLe⟩ := forall_mem_cons.mp le
    rw [map_cons, map_cons, prod_cons, prod_cons] at same
    rw [map_cons, prod_cons] at positive
    have restLe := prod_map_le later laterLe
    have restNat := prod_map_nonneg later
    obtain ⟨some_, restSome⟩ := Int.mul_ne_zero_iff.mp positive
    have gPos : 0 < g x := lt_of_le_of_ne (Int.le_trans first firstLe) (Ne.symm some_)
    have restSame : (rest.map f).prod = (rest.map g).prod := by
      refine Int.le_antisymm restLe (Int.not_lt.mp fun less => ?_)
      have lt := Int.mul_lt_mul_of_pos_left less gPos
      have step := Int.mul_le_mul_of_nonneg_right firstLe restNat
      omega
    rw [restSame] at same
    exact forall_mem_cons.mpr ⟨Int.eq_of_mul_eq_mul_right restSome same,
      ih later laterLe restSame restSome⟩

theorem prod_tdiv {q block : β → Int} (dvd : ∀ x ∈ l, (q x).tmod (block x) = 0) :
    (l.map fun x => (q x).tdiv (block x)).prod * (l.map block).prod = (l.map q).prod := by
  induction l with
  | nil => rfl
  | cons x rest ih =>
    obtain ⟨first, later⟩ := forall_mem_cons.mp dvd
    have whole := Int.tdiv_mul_cancel_of_tmod_eq_zero first
    rw [map_cons, map_cons, map_cons, prod_cons, prod_cons, prod_cons, ← ih later]
    calc (q x).tdiv (block x) * _ * (block x * _)
        = (q x).tdiv (block x) * block x *
            ((rest.map fun x => (q x).tdiv (block x)).prod * (rest.map block).prod) := by ring
      _ = _ := by rw [whole]

end Products

structure Call where
  direction : Direction
  index : IndexType
  input : TensorShape
  blockShape : BlockShape
  amounts : IndexTensor (indexWidth index)
  init : Init
  sized : ∀ dim ∈ input, dim < 2 ^ 63
  accepted : initHelper direction input blockShape amounts = .ok init

namespace Call

variable (c : Call)

def blocks : List Int :=
  match c.blockShape.values c.input with
  | .ok values => values
  | .error _ => []

def dims : List BlockDim := blockDims c.input c.amounts c.blocks

def batch : Nat := c.input.getD 0 0

def depth : Nat := (trailing c.input c.blocks).prod

def paddedSize (d : BlockDim) : Int := d.size + d.before + d.after

def croppedSize (d : BlockDim) : Int := d.size * d.block - d.before - d.after

def blockProduct : Int := c.blocks.prod

def paddedCount : Int := c.batch * (c.dims.map paddedSize).prod * c.depth

def croppedCount : Int :=
  c.batch / c.blockProduct * ((c.dims.map fun d => (d.size : Int) * d.block).prod -
    (c.dims.map fun d => max 0 (croppedSize d)).prod) * c.depth

def CountsMatch : Prop :=
  match c.direction with
  | .spaceToBatch => c.init.outputShape.prod = c.paddedCount
  | .batchToSpace => c.init.outputShape.prod = c.input.numElements - c.croppedCount

def Sound : Prop :=
  (∀ block ∈ c.blocks, 1 ≤ block) ∧ (∀ dim ∈ c.init.outputShape, 0 ≤ dim) ∧ c.CountsMatch

/-- Nothing overflows. -/
def Fits : Prop :=
  match c.direction with
  | .spaceToBatch => (c.batch : Int) * c.blockProduct < 2 ^ 63 ∧ ∀ d ∈ c.dims, paddedSize d < 2 ^ 63
  | .batchToSpace => c.blockProduct < 2 ^ 63 ∧
      ∀ d ∈ c.dims, -2 ^ 63 ≤ croppedSize d ∧ croppedSize d < 2 ^ 63

/-- An overflow that does not matter: nothing is padded and no size becomes negative, or the
    sizes that are wrapped around have the right product. -/
def Harmless : Prop :=
  match c.direction with
  | .spaceToBatch => c.paddedCount = 0 ∧ 0 ≤ i64 ((c.batch : Int) * c.blockProduct) ∧
      ∀ d ∈ c.dims, 0 ≤ i64 (paddedSize d)
  | .batchToSpace => (c.batch : Int).tdiv (i64 c.blockProduct) *
      ((c.dims.map fun d => i64 (croppedSize d)).prod * (c.depth : Int)) =
        c.input.numElements - c.croppedCount

theorem accepts : Accepted c.direction c.input c.amounts c.blocks ∧
    initOf c.direction c.input c.amounts c.blocks = c.init := by
  have ok := c.accepted
  rw [initHelper, bind_eq_ok] at ok
  obtain ⟨values, isValues, made⟩ := ok
  have isBlocks : c.blocks = values := by rw [blocks, isValues]
  rw [isBlocks]
  exact initializeFor_eq_ok.mp made

theorem outputShape_prod : c.init.outputShape.prod =
    outBatch c.direction c.batch (i64 c.blockProduct) *
      ((c.dims.map (outSize c.direction)).prod * c.depth) := by
  obtain ⟨ok, made⟩ := c.accepts
  have cast : ((trailing c.input c.blocks).map fun size : Nat => (size : Int)).prod = c.depth :=
    (Nat.cast_list_prod _).symm
  rw [← made, outputShape_initOf c.sized ok.rank, prod_cons, prod_append, cast]
  rfl

theorem dims_nonneg_iff : (∀ dim ∈ c.init.outputShape, 0 ≤ dim) ↔
    0 ≤ outBatch c.direction c.batch (i64 c.blockProduct) ∧
      ∀ d ∈ c.dims, 0 ≤ outSize c.direction d := by
  obtain ⟨ok, made⟩ := c.accepts
  rw [← made, outputShape_initOf c.sized ok.rank, forall_mem_cons, forall_mem_append]
  refine and_congr_right fun _ => ?_
  simp only [forall_mem_map, Int.natCast_nonneg, implies_true, and_true]
  rfl

variable {d : BlockDim}

theorem checked (mem : d ∈ c.dims) : Checked c.direction d := c.accepts.1.checkedAll c.sized mem

theorem map_block : c.dims.map BlockDim.block = c.blocks := map_block_blockDims _ _ _

theorem blockProduct_pos (positive : ∀ block ∈ c.blocks, 1 ≤ block) : 0 < c.blockProduct :=
  prod_induction (0 < ·) (fun _ _ => Int.mul_pos) Int.one_pos fun block mem =>
    positive block mem

theorem block_pos (positive : ∀ block ∈ c.blocks, 1 ≤ block) (mem : d ∈ c.dims) : 0 < d.block := by
  rw [← c.map_block] at positive
  exact positive _ (mem_map_of_mem mem)

theorem paddedSize_nonneg (mem : d ∈ c.dims) : 0 ≤ paddedSize d := by
  obtain ⟨⟨pre, after⟩, -⟩ := c.checked mem
  rw [paddedSize]
  omega

section SpaceToBatch

variable {c} (isSpace : c.direction = .spaceToBatch) (positive : ∀ block ∈ c.blocks, 1 ≤ block)

include isSpace

variable {d : BlockDim}

theorem divides (mem : d ∈ c.dims) : (i64 (paddedSize d)).tmod d.block = 0 := by
  have checked := (c.checked mem).2
  rw [isSpace] at checked
  exact checked

theorem outSize_eq : c.dims.map (outSize c.direction) =
    c.dims.map fun d => (i64 (paddedSize d)).tdiv d.block := by
  rw [isSpace]
  rfl

theorem prod_outSize : (c.dims.map (outSize c.direction)).prod * c.blockProduct =
    (c.dims.map fun d => i64 (paddedSize d)).prod := by
  rw [outSize_eq isSpace, blockProduct, ← c.map_block]
  exact prod_tdiv fun d mem => divides isSpace mem

theorem countsMatch_iff_space : c.CountsMatch ↔
    i64 (c.batch * c.blockProduct) * ((c.dims.map (outSize c.direction)).prod * c.depth) =
      c.batch * (c.dims.map paddedSize).prod * c.depth := by
  have batch : outBatch c.direction c.batch (i64 c.blockProduct) =
      i64 (c.batch * c.blockProduct) := by
    rw [isSpace, outBatch, mul_i64]
  rw [← batch, ← c.outputShape_prod, ← paddedCount, CountsMatch, isSpace]

include positive

theorem outSize_nonneg_iff (mem : d ∈ c.dims) :
    0 ≤ outSize c.direction d ↔ 0 ≤ i64 (paddedSize d) := by
  have block := c.block_pos positive mem
  have whole := Int.tdiv_mul_cancel_of_tmod_eq_zero (divides isSpace mem)
  have out : outSize c.direction d = (i64 (paddedSize d)).tdiv d.block := by
    rw [isSpace]
    rfl
  rw [out]
  constructor
  · intro nat
    rw [← whole]
    exact Int.mul_nonneg nat (Int.le_of_lt block)
  · intro nat
    exact Int.tdiv_nonneg nat (Int.le_of_lt block)

theorem space_sound_of_fits (fits : c.Fits) : c.Sound := by
  rw [Fits, isSpace] at fits
  obtain ⟨batchFits, dimsFit⟩ := fits
  have blocks := c.blockProduct_pos positive
  have batchNat : 0 ≤ (c.batch : Int) * c.blockProduct :=
    Int.mul_nonneg (Int.natCast_nonneg _) (Int.le_of_lt blocks)
  have exact_ : ∀ d ∈ c.dims, i64 (paddedSize d) = paddedSize d := fun d mem =>
    (i64_eq_iff (c.paddedSize_nonneg mem)).mpr (dimsFit d mem)
  refine ⟨positive, c.dims_nonneg_iff.mpr ⟨?_, fun d mem => ?_⟩, ?_⟩
  · rw [isSpace, outBatch, mul_i64, (i64_eq_iff batchNat).mpr batchFits]
    exact batchNat
  · rw [outSize_nonneg_iff isSpace positive mem, exact_ d mem]
    exact c.paddedSize_nonneg mem
  · have products := prod_outSize isSpace
    rw [map_congr_left exact_] at products
    rw [countsMatch_iff_space isSpace, (i64_eq_iff batchNat).mpr batchFits, ← products]
    ring

theorem space_sound_of_harmless (harmless : c.Harmless) : c.Sound := by
  rw [Harmless, isSpace] at harmless
  obtain ⟨empty, batchNat, dimsNat⟩ := harmless
  refine ⟨positive, c.dims_nonneg_iff.mpr ⟨?_, fun d mem => ?_⟩, ?_⟩
  · rwa [isSpace, outBatch, mul_i64]
  · exact (outSize_nonneg_iff isSpace positive mem).mpr (dimsNat d mem)
  · rw [countsMatch_iff_space isSpace, ← paddedCount, empty]
    have wrapped : (i64 (c.batch * c.blockProduct) = 0 ∨
        (c.dims.map (outSize c.direction)).prod = 0) ∨ (c.depth : Int) = 0 := by
      rw [paddedCount, mul_eq_zero, mul_eq_zero] at empty
      refine empty.imp_left fun outer => outer.imp (fun noBatch => ?_) fun noSize => ?_
      · rw [noBatch, Int.zero_mul]
        rfl
      · obtain ⟨d, mem, zero⟩ := mem_map.mp (prod_eq_zero_iff.mp noSize)
        have products := prod_outSize isSpace
        have none : (c.dims.map fun d => i64 (paddedSize d)).prod = 0 :=
          prod_eq_zero (mem_map.mpr ⟨d, mem, by rw [zero]; rfl⟩)
        rw [none, mul_eq_zero] at products
        exact products.resolve_right (c.blockProduct_pos positive).ne'
    rcases wrapped with (zero | zero) | zero
    · rw [zero, Int.zero_mul]
    · rw [zero, Int.zero_mul, Int.mul_zero]
    · rw [zero, Int.mul_zero, Int.mul_zero]

theorem fits_or_harmless_of_sound (sound : c.Sound) : c.Fits ∨ c.Harmless := by
  obtain ⟨-, dimsNat, count⟩ := sound
  obtain ⟨batchNat, sizesNat⟩ := c.dims_nonneg_iff.mp dimsNat
  rw [isSpace, outBatch, mul_i64] at batchNat
  have wrappedNat : ∀ d ∈ c.dims, 0 ≤ i64 (paddedSize d) := fun d mem =>
    (outSize_nonneg_iff isSpace positive mem).mp (sizesNat d mem)
  rw [Fits, Harmless, isSpace]
  by_cases empty : c.paddedCount = 0
  · exact Or.inr ⟨empty, batchNat, wrappedNat⟩
  · left
    rw [countsMatch_iff_space isSpace, ← Int.mul_assoc] at count
    rw [paddedCount, mul_eq_zero, not_or, mul_eq_zero, not_or] at empty
    obtain ⟨⟨someBatch, someSize⟩, someDepth⟩ := empty
    have same := Int.eq_of_mul_eq_mul_right someDepth count
    have products := prod_outSize isSpace
    have blocks := c.blockProduct_pos positive
    have exactNat : 0 ≤ (c.batch : Int) * c.blockProduct :=
      Int.mul_nonneg (Int.natCast_nonneg _) (Int.le_of_lt blocks)
    have outNat : 0 ≤ (c.dims.map (outSize c.direction)).prod := prod_map_nonneg sizesNat
    have wrappedLe : ∀ d ∈ c.dims, i64 (paddedSize d) ≤ paddedSize d := fun d mem =>
      i64_nonneg_le (c.paddedSize_nonneg mem)
    have batchStep := Int.mul_le_mul_of_nonneg_right (i64_nonneg_le exactNat) outNat
    have sizeStep := Int.mul_le_mul_of_nonneg_left (prod_map_le wrappedNat wrappedLe)
      (Int.natCast_nonneg c.batch)
    have regroup : (c.batch : Int) * c.blockProduct * (c.dims.map (outSize c.direction)).prod =
        c.batch * (c.dims.map fun d => i64 (paddedSize d)).prod := by
      rw [← products]
      ring
    have batchSame : i64 (c.batch * c.blockProduct) * (c.dims.map (outSize c.direction)).prod =
        c.batch * c.blockProduct * (c.dims.map (outSize c.direction)).prod := by omega
    have sizeSame : (c.batch : Int) * (c.dims.map fun d => i64 (paddedSize d)).prod =
        c.batch * (c.dims.map paddedSize).prod := by omega
    have someOut : (c.dims.map (outSize c.direction)).prod ≠ 0 := by
      intro zero
      rw [zero, Int.mul_zero] at same
      exact mul_ne_zero someBatch someSize same.symm
    refine ⟨(i64_eq_iff exactNat).mp (Int.eq_of_mul_eq_mul_right someOut batchSame),
      fun d mem => ?_⟩
    have each := eq_of_prod_map_eq wrappedNat wrappedLe
      (Int.eq_of_mul_eq_mul_left someBatch sizeSame) someSize d mem
    exact (i64_eq_iff (c.paddedSize_nonneg mem)).mp each

theorem space_sound_iff : c.Sound ↔ c.Fits ∨ c.Harmless :=
  ⟨fits_or_harmless_of_sound isSpace positive, fun fine => fine.elim
    (space_sound_of_fits isSpace positive) (space_sound_of_harmless isSpace positive)⟩

end SpaceToBatch

section BatchToSpace

variable {c} (isBatch : c.direction = .batchToSpace) (positive : ∀ block ∈ c.blocks, 1 ≤ block)

include isBatch

theorem croppedSize_nonneg {d : BlockDim} (mem : d ∈ c.dims) : 0 ≤ i64 (croppedSize d) := by
  have checked := (c.checked mem).2
  rw [isBatch] at checked
  exact checked

theorem batch_dims_nonneg : ∀ dim ∈ c.init.outputShape, 0 ≤ dim := by
  rw [dims_nonneg_iff, isBatch]
  exact ⟨Int.tdiv_nonneg (Int.natCast_nonneg _) (Int.le_of_lt c.accepts.1.positive),
    fun d mem => croppedSize_nonneg isBatch mem⟩

theorem countsMatch_iff_batch : c.CountsMatch ↔ c.Harmless := by
  rw [CountsMatch, Harmless, isBatch, c.outputShape_prod, isBatch]
  rfl

include positive

theorem batch_countsMatch_of_fits (fits : c.Fits) : c.CountsMatch := by
  rw [Fits, isBatch] at fits
  obtain ⟨blocksFit, dimsFit⟩ := fits
  have blocks := c.blockProduct_pos positive
  have product : i64 c.blockProduct = c.blockProduct :=
    (i64_eq_iff (Int.le_of_lt blocks)).mpr blocksFit
  have exact_ : ∀ d ∈ c.dims, i64 (croppedSize d) = croppedSize d := fun d mem =>
    i64_of_bounds (dimsFit d mem).1 (dimsFit d mem).2
  have kept : ∀ d ∈ c.dims, max 0 (croppedSize d) = croppedSize d := fun d mem => by
    have nat := croppedSize_nonneg isBatch mem
    rw [exact_ d mem] at nat
    exact max_eq_right nat
  have dvd := c.accepts.1.divides isBatch
  rw [← blockProduct, product] at dvd
  have whole := Int.tdiv_mul_cancel_of_tmod_eq_zero dvd
  have quotient : (c.batch : Int) / c.blockProduct = (c.batch : Int).tdiv c.blockProduct :=
    (Int.tdiv_eq_ediv_of_nonneg (Int.natCast_nonneg _)).symm
  have spread : (c.dims.map fun d => (d.size : Int) * d.block).prod =
      (c.dims.map fun d => (d.size : Int)).prod * c.blockProduct := by
    rw [prod_map_mul, blockProduct, ← c.map_block]
  have xs : (c.input.numElements : Int) =
      c.batch * (c.dims.map fun d => (d.size : Int)).prod * c.depth := by
    have count := SpaceBatch.numElements_eq c.amounts c.accepts.1.rank
    rw [count, Nat.cast_mul, Nat.cast_mul, Nat.cast_list_prod, map_map]
    rfl
  rw [countsMatch_iff_batch isBatch, Harmless, isBatch, product]
  change _ = (c.input.numElements : Int) - c.croppedCount
  rw [map_congr_left exact_, croppedCount, map_congr_left kept, quotient, spread, xs]
  change (c.batch : Int).tdiv c.blockProduct * c.blockProduct = c.batch at whole
  generalize (c.batch : Int).tdiv c.blockProduct = q at whole ⊢
  rw [← whole]
  ring

theorem batch_sound_iff : c.Sound ↔ c.Fits ∨ c.Harmless := by
  rw [Sound, ← countsMatch_iff_batch isBatch]
  constructor
  · exact fun sound => Or.inr sound.2.2
  · exact fun fine => ⟨positive, batch_dims_nonneg isBatch,
      fine.elim (batch_countsMatch_of_fits isBatch positive) id⟩

end BatchToSpace

end Call

/-- Accepted arguments are what was promised exactly if no block size is less than one, and no
    overflow matters. -/
theorem sound_iff (c : Call) :
    c.Sound ↔ (∀ block ∈ c.blocks, 1 ≤ block) ∧ (c.Fits ∨ c.Harmless) := by
  constructor
  · intro sound
    refine ⟨sound.1, ?_⟩
    cases direction : c.direction with
    | spaceToBatch => exact (Call.space_sound_iff direction sound.1).mp sound
    | batchToSpace => exact (Call.batch_sound_iff direction sound.1).mp sound
  · rintro ⟨positive, fine⟩
    cases direction : c.direction with
    | spaceToBatch => exact (Call.space_sound_iff direction positive).mpr fine
    | batchToSpace => exact (Call.batch_sound_iff direction positive).mpr fine

def negativeBlocks : Call where
  direction := .spaceToBatch
  index := .int32
  input := [1, 2, 2, 1]
  blockShape := .int32 ⟨[2], [-1, -1], rfl⟩
  amounts := ⟨[2, 2], [0, 0, 0, 0], rfl⟩
  init := ⟨[1, 2, 2, 1], [1, -2, -2, 1], [1, -2, -2, 1], [⟨0, 2, -1, 0, 0⟩, ⟨1, 2, -1, 0, 0⟩]⟩
  sized := by decide
  accepted := rfl

theorem negativeBlocks_not_sound : ¬ negativeBlocks.Sound := by
  rintro ⟨positive, -⟩
  exact absurd (positive (-1) (by decide)) (by decide)

end TfDml.SpaceBatch
