import TfDml.Kernels.MatrixDiagPartIndices

/-! # MatrixDiagPart and its reference

The helper accepts a band inside the matrix only. Without a bound on the arithmetic, each index is
inside the padded matrix, and what is gathered there is the element of the diagonal or padding.
-/

namespace TfDml.MatrixDiagPart

open Lib List
open ScatterNd (Refusal requires requires_eq_ok)
open NoOpKernel (isNoOpKernel)
open MatrixDiag (Align Attributes attributes InRange diagLen maxLen diagLen_of_nonneg
  diagLen_of_nonpos diagLen_le_maxLen toNat_diagLen toNat_maxLen)
open StridedSlice (IndexTensor i32 i32_of_bounds)

variable {α : Type}

structure PartCall where
  input : TensorShape
  diagIndex : Option (IndexTensor 32)
  align : Option Align
  init : Init
  accepted : initHelper input diagIndex = .ok init
  runs : isNoOpKernel [input] [init.outputShape] = false
  /-- The number of elements of a tensor is an `int64_t`. -/
  sized : input.numElements < 2 ^ 63

namespace PartCall

variable (c : PartCall)

def rows : Nat := c.input.getD (c.input.length - 2) 0

def cols : Nat := c.input.getD (c.input.length - 1) 0

def batches : Nat := (c.input.take (c.input.length - 2)).prod

def k0 : Int := c.init.lowerDiagIndex

def k1 : Int := c.init.upperDiagIndex

def attr : Attributes := attributes c.align

def depth : Nat := (c.k1 + 1 - c.k0).toNat

/-- `max_diag_len`, the last dimension of the output. -/
def maxDiagLen : Nat := c.init.outputShape.getLastD 0

theorem helped : 2 ≤ c.input.length ∧
    (isDiagonal c.rows c.cols c.k0 = true ∧ isDiagonal c.rows c.cols c.k1 = true) ∧
    c.k0 ≤ c.k1 ∧ 0 ≤ i32 (maxLen c.rows c.cols c.k0 c.k1) ∧
    c.maxDiagLen = (i32 (maxLen c.rows c.cols c.k0 c.k1)).toNat := by
  have acc := c.accepted
  simp only [initHelper, bind_eq_ok, requires_eq_ok, exists_const, Prod.exists,
    decide_eq_true_eq] at acc
  obtain ⟨lower, upper, -, matrix, first, last, lt, made⟩ := acc
  split at made
  case isTrue natural =>
    have isInit := Except.ok.inj made
    have isLower : c.k0 = lower := by rw [k0, ← isInit]
    have isUpper : c.k1 = upper := by rw [k1, ← isInit]
    rw [isLower, isUpper, maxDiagLen, ← isInit]
    exact ⟨matrix, ⟨first, last⟩, lt, natural, by simp [maxLen, rows, cols]⟩
  case isFalse => cases made

theorem numElements_eq : c.input.numElements = c.batches * (c.rows * c.cols) := by
  obtain ⟨matrix, -⟩ := c.helped
  have rows_eq : c.rows = c.input[c.input.length - 2] := getD_eq_getElem _ _ (by omega)
  have cols_eq : c.cols = c.input[c.input.length - 1] := getD_eq_getElem _ _ (by omega)
  have last : c.input.drop (c.input.length - 2) = [c.rows, c.cols] := by
    rw [drop_eq_getElem_cons (by omega), ← rows_eq]
    congr 1
    rw [drop_eq_getElem_cons (by omega), drop_eq_nil_of_le (by omega)]
    congr 1
    rw [cols_eq]
    congr 1
    omega
  have split := prod_take_mul_prod_drop c.input (c.input.length - 2)
  rw [last] at split
  rw [TensorShape.numElements, ← split, batches]
  simp

theorem positive : 0 < c.batches ∧ 0 < c.rows ∧ 0 < c.cols := by
  have runs := c.runs
  rw [← Bool.not_eq_true, NoOpKernel.isNoOpKernel_iff] at runs
  have ne : c.input.numElements ≠ 0 := by
    intro zero
    exact runs (by simp [zero])
  rw [numElements_eq] at ne
  have inner := right_ne_zero_of_mul ne
  exact ⟨Nat.pos_of_ne_zero (left_ne_zero_of_mul ne),
    Nat.pos_of_ne_zero (left_ne_zero_of_mul inner), Nat.pos_of_ne_zero (right_ne_zero_of_mul inner)⟩

theorem inRange : InRange c.rows c.cols c.k0 c.k1 := by
  obtain ⟨-, ⟨first, last⟩, lt, -⟩ := c.helped
  obtain ⟨-, tall, wide⟩ := c.positive
  simp only [isDiagonal, Bool.or_eq_true, Bool.and_eq_true, decide_eq_true_eq] at first last
  exact ⟨tall, wide, lt, by omega, by omega⟩

theorem maxDiagLen_eq : (c.maxDiagLen : Int) = maxLen c.rows c.cols c.k0 c.k1 := by
  obtain ⟨-, -, -, natural, isLength⟩ := c.helped
  have long := toNat_maxLen c.inRange
  obtain ⟨ne, tall, wide⟩ := c.positive
  have le : maxLen c.rows c.cols c.k0 c.k1 ≤ min (c.rows : Int) c.cols := by
    rw [maxLen]
    omega
  have lt : (maxLen c.rows c.cols c.k0 c.k1).toNat < 2 ^ 32 := by
    by_contra large
    have matrix := Nat.mul_le_mul (show 2 ^ 32 ≤ c.rows by omega) (show 2 ^ 32 ≤ c.cols by omega)
    have whole := Nat.le_mul_of_pos_left (c.rows * c.cols) ne
    have sized := c.sized
    rw [numElements_eq] at sized
    omega
  have exact_ : i32 (maxLen c.rows c.cols c.k0 c.k1) = maxLen c.rows c.cols c.k0 c.k1 := by
    rw [i32, Int.bmod_def] at natural ⊢
    omega
  rw [exact_] at isLength
  omega

def matrices (values : Nat → α) : Rows α :=
  ⟨c.batches * c.rows, c.cols, fun i j => values (i * c.cols + j)⟩

/-- The element of a diagonal in the buffer, or padding. -/
def reference (values : Nat → α) (padding : α) (b s n : Nat) : α :=
  let k : Int := c.k1 - s
  (element (alignLeft c.attr k) c.maxDiagLen (diagLen c.rows c.cols k).toNat n).elim padding
    fun m => values ((b * c.rows + (m - min k 0).toNat) * c.cols + (m + max k 0).toNat)

/-- The indices list the diagonals from the top to the bottom, with rows of the length that is
    reported, and each one selects the element of its position, or padding. -/
structure Listed (indices : List (List Int)) : Prop where
  depth : indices.length = c.depth
  rows : ∀ s < c.depth, ∃ row, indices[s]? = some row ∧ row.length = c.maxDiagLen ∧
    ∀ n < c.maxDiagLen, ∃ p, row[n]? = some p ∧ Selects c.rows c.cols (c.k1 - s)
        (element (alignLeft c.attr (c.k1 - s)) c.maxDiagLen
          (diagLen c.rows c.cols (c.k1 - s)).toNat n) p

end PartCall

theorem paddedRows_entry (m : Rows α) {ylen i j : Nat} (paddingValue : α) (b : Nat)
    (row : i ≤ ylen) (column : j ≤ m.width) :
    (paddedRows m ylen paddingValue).entry b (i * (m.width + 1) + j) =
      if i < ylen ∧ j < m.width then m.entry (b * ylen + i) j else paddingValue := by
  have position : b * ((ylen + 1) * (m.width + 1)) + (i * (m.width + 1) + j) =
      (b * (ylen + 1) + i) * (m.width + 1) + j := by ring
  have width : (m.surround paddingValue ylen 0 0 1 1).width = m.width + 1 := by
    simp only [Rows.surround, zero_add]
  have height : b * (ylen + 1) + i = b * (0 + ylen + 1) + i := by rw [zero_add]
  have flat := (m.surround paddingValue ylen 0 0 1 1).flat_add (i := b * (ylen + 1) + i) (j := j)
    (by omega)
  rw [width] at flat
  simp only [paddedRows, position, flat]
  rw [height, Rows.surround_entry _ _ _ _ (by omega)]
  simp only [Nat.zero_le, zero_add, true_and, Nat.sub_zero]

theorem Selects.bounds {rows cols : Nat} {k p : Int} {hit : Option Nat}
    (selects : Selects rows cols k hit p) : 0 ≤ p ∧ p < ((rows + 1) * (cols + 1) : Nat) := by
  obtain ⟨i, j, rfl, row, column, -⟩ := selects
  have product : (i : Int) * (cols + 1) ≤ rows * (cols + 1) :=
    Int.mul_le_mul_of_nonneg_right (by omega) (by omega)
  have natural : 0 ≤ (i : Int) * (cols + 1) := Int.mul_nonneg (by omega) (by omega)
  push_cast
  rw [show ((rows : Int) + 1) * (cols + 1) = rows * (cols + 1) + (cols + 1) by ring]
  omega

theorem Selects.entry {rows cols : Nat} {k p : Int} {hit : Option Nat}
    (selects : Selects rows cols k hit p) {m : Rows α} (width : m.width = cols)
    (paddingValue : α) (b : Nat) : (paddedRows m rows paddingValue).entry b p.toNat =
      hit.elim paddingValue fun n =>
        m.entry (b * rows + (n - min k 0).toNat) (n + max k 0).toNat := by
  obtain ⟨i, j, rfl, row, column, cell⟩ := selects
  have position : ((i : Int) * (cols + 1) + j).toNat = i * (m.width + 1) + j := by
    rw [width]
    exact Int.toNat_natCast (i * (cols + 1) + j)
  rw [position, paddedRows_entry m paddingValue b row (width ▸ column)]
  cases hit with
  | some n =>
    obtain ⟨inside, inside', diagonal, first⟩ := cell
    rw [if_pos ⟨inside, by omega⟩, Option.elim_some]
    congr 1
    · omega
    · omega
  | none =>
    have outside : ¬(i < rows ∧ j < m.width) := by
      cases cell with
      | inl last => omega
      | inr last => omega
    rw [if_neg outside, Option.elim_none]

theorem gatherElements_some {t : Rows α} {indices : List Int}
    (inside : ∀ p ∈ indices, 0 ≤ p ∧ p < t.width) :
    ∃ out, gatherElements t indices = some out ∧ out.count = t.count ∧ out.width = indices.length ∧
      ∀ b q p, indices[q]? = some p → out.entry b q = t.entry b p.toNat := by
  refine ⟨⟨t.count, indices.length, fun b q => t.entry b (indices.getD q 0).toNat⟩, ?_, rfl, rfl,
    fun b q p hit => ?_⟩
  · rw [gatherElements, if_pos]
    rw [all_eq_true]
    intro p mem
    rw [Bool.and_eq_true, decide_eq_true_eq, decide_eq_true_eq]
    exact inside p mem
  · simp only [getD_eq_getElem?_getD, hit, Option.getD_some]

theorem flatten_rows {β : Type} (depth length : Nat) (f : Nat → Nat → β) :
    ((range depth).map fun s => (range length).map (f s)).flatten =
      (range (depth * length)).map fun q => f (q / length) (q % length) := by
  have joined := flatMap_range_mul depth length (fun s n => [f s n])
    (fun q => [f (q / length) (q % length)]) fun s _ n less => by
      rw [Nat.mul_add_mod_of_lt less, mul_comm, Nat.mul_add_div (by omega),
        Nat.div_eq_of_lt less, add_zero]
  simp only [← map_eq_flatMap] at joined
  rwa [flatMap_def] at joined

theorem fits_exact (rows cols : Nat) (k0 k1 : Int) : Fits (fun _ => True) rows cols k0 k1 where
  bounds := ⟨trivial, trivial, trivial, trivial, trivial, trivial, trivial⟩
  xsize := fun _ _ _ _ => trivial
  ysize := fun _ _ _ _ => trivial
  xindex := fun _ _ _ _ _ _ => ⟨trivial, trivial, trivial, trivial, trivial, trivial⟩
  xscaled := fun _ _ _ _ => trivial
  xmax := fun _ _ _ _ => trivial
  yindex := fun _ _ _ _ _ _ => ⟨trivial, trivial, trivial, trivial, trivial, trivial⟩

namespace PartCall

variable (c : PartCall)

/-- The index for a position, without a bound on the arithmetic. -/
def index (s n : Nat) : Int := flatIndex c.rows c.cols c.attr c.maxDiagLen (c.k1 - s) n

theorem index_selects {s n : Nat} (inside : s < c.depth) (less : n < c.maxDiagLen) :
    Selects c.rows c.cols (c.k1 - s)
      (element (alignLeft c.attr (c.k1 - s)) c.maxDiagLen
        (diagLen c.rows c.cols (c.k1 - s)).toNat n) (c.index s n) := by
  have longest := c.maxDiagLen_eq
  rw [depth] at inside
  have selects := @flatIndex_selects c.rows c.cols (c.k1 - s) n c.k0 c.k1 c.attr c.inRange
    (by omega) (by omega) (by omega)
  rw [← longest, Int.toNat_natCast] at selects
  exact selects

theorem diagsIndices_exact : diagsIndices exact c.cols c.rows c.k0 c.k1 c.attr =
    some ((range c.depth).map fun s => (range c.maxDiagLen).map (c.index s)) := by
  have agrees (x : Int) : True → exact x = some x := fun _ => rfl
  rw [diagsIndices_eq agrees c.attr c.inRange (fits_exact _ _ _ _), ← c.maxDiagLen_eq,
    Int.toNat_natCast, descending, map_map]
  rfl

theorem listed : c.Listed
    ((range c.depth).map fun s => (range c.maxDiagLen).map (c.index s)) := by
  refine ⟨by rw [length_map, length_range], fun s inside => ?_⟩
  refine ⟨(range c.maxDiagLen).map (c.index s), ?_, ?_, fun n less => ?_⟩
  · rw [getElem?_map, getElem?_range inside, Option.map_some]
  · rw [length_map, length_range]
  · exact ⟨c.index s n, by rw [getElem?_map, getElem?_range less, Option.map_some],
      c.index_selects inside less⟩

theorem gathered (values : Nat → α) (padding : α) :
    ∃ out, matrixDiagPart exact (c.matrices values) c.rows c.k0 c.k1 padding c.attr = some out ∧
      out.count = c.batches ∧ out.width = c.depth * c.maxDiagLen ∧
      ∀ b, ∀ s < c.depth, ∀ n < c.maxDiagLen,
        out.entry b (s * c.maxDiagLen + n) = c.reference values padding b s n := by
  have inside : ∀ p ∈ (range (c.depth * c.maxDiagLen)).map fun q =>
      c.index (q / c.maxDiagLen) (q % c.maxDiagLen),
      0 ≤ p ∧ p < (paddedRows (c.matrices values) c.rows padding).width := by
    intro p mem
    obtain ⟨q, less, rfl⟩ := mem_map.mp mem
    rw [mem_range] at less
    have length : 0 < c.maxDiagLen := Nat.pos_of_ne_zero fun zero => by
      rw [zero, mul_zero] at less
      exact Nat.not_lt_zero q less
    have isRow : q / c.maxDiagLen < c.depth := Nat.div_lt_of_lt_mul (mul_comm c.depth _ ▸ less)
    exact (c.index_selects isRow (Nat.mod_lt q length)).bounds
  obtain ⟨out, made, count, width, entries⟩ := gatherElements_some inside
  refine ⟨out, ?_, ?_, ?_, fun b s less n less' => ?_⟩
  · rw [matrixDiagPart]
    change (diagsIndices exact c.cols c.rows c.k0 c.k1 c.attr).bind _ = _
    rw [c.diagsIndices_exact, Option.bind_some, flatten_rows]
    exact made
  · rw [count]
    exact Nat.mul_div_cancel _ c.positive.2.1
  · rw [width, length_map, length_range]
  · have isRow : (s * c.maxDiagLen + n) / c.maxDiagLen = s := by
      rw [mul_comm, Nat.mul_add_div (by omega), Nat.div_eq_of_lt less', add_zero]
    have isColumn : (s * c.maxDiagLen + n) % c.maxDiagLen = n := Nat.mul_add_mod_of_lt less'
    have small : s * c.maxDiagLen + n < c.depth * c.maxDiagLen := by
      have last := Nat.mul_le_mul_right c.maxDiagLen (Nat.succ_le_of_lt less)
      rw [Nat.succ_mul] at last
      omega
    rw [entries b _ (c.index s n) (by rw [getElem?_map, getElem?_range small,
      Option.map_some, isRow, isColumn])]
    exact (c.index_selects less less').entry (m := c.matrices values) rfl padding b

variable (α) in
/-- Without a bound on the arithmetic, the indices select the diagonals of the band from the top
    to the bottom, and the output is the one of the reference. -/
theorem matrixDiagPart_reference :
    ∃ indices, diagsIndices exact c.cols c.rows c.k0 c.k1 c.attr = some indices ∧
      c.Listed indices ∧ ∀ (values : Nat → α) (padding : α), ∃ out,
        matrixDiagPart exact (c.matrices values) c.rows c.k0 c.k1 padding c.attr = some out ∧
        out.count = c.batches ∧ out.width = c.depth * c.maxDiagLen ∧
        ∀ b < c.batches, ∀ s < c.depth, ∀ n < c.maxDiagLen,
          out.entry b (s * c.maxDiagLen + n) = c.reference values padding b s n := by
  refine ⟨_, c.diagsIndices_exact, c.listed, fun values padding => ?_⟩
  obtain ⟨out, made, count, width, xs⟩ := c.gathered values padding
  exact ⟨out, made, count, width, fun b _ => xs b⟩

end PartCall

end TfDml.MatrixDiagPart
