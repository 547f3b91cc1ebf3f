import TfDml.Kernels.ScatterNdArithmetic
import TfDml.Kernels.SplitOp

/-! # The sizes that SplitV accepts

The sum of the sizes is a 64-bit value, and the size of the axis is narrowed to 32 bits before
they are compared.
-/

namespace TfDml.SplitOp

open Lib List
open GatherNd (IndexType)
open RangeOp (i64)
open ScatterNd (indexWidth)
open StridedSlice (IndexTensor i32)

theorem i64_add (a b : Int) : i64 (i64 a + b) = i64 (a + b) := by
  rw [i64, i64, i64, Int.bmod_add_bmod]

theorem foldlM_visitSize {sizes : List Int} (given : -1 ∉ sizes) (k : Nat) (got : Option Nat)
    (acc : Int) :
    (sizes.zipIdx k).foldlM visitSize (got, i64 acc) = .ok (got, i64 (acc + sizes.sum)) := by
  induction sizes generalizing k acc with
  | nil =>
    rw [sum_nil, Int.add_zero]
    rfl
  | cons size rest ih =>
    obtain ⟨first, later⟩ := ne_and_not_mem_of_not_mem_cons given
    rw [zipIdx_cons, foldlM_cons, visitSize, if_neg (Ne.symm first), i64_add,
      sum_cons, ← Int.add_assoc]
    exact ih later (k + 1) (acc + size)

theorem forM_checkSize {sizes : List Int} {result : Unit} :
    sizes.zipIdx.forM checkSize = .ok result ↔ ∀ size ∈ sizes, 0 ≤ size := by
  simp only [forM_eq_ok, checkSize, opRequires_eq_ok, decide_eq_true_eq]
  constructor
  · intro each size mem
    obtain ⟨i, lt, rfl⟩ := getElem_of_mem mem
    exact each (sizes[i], i) (mk_mem_zipIdx_iff_getElem?.mpr (getElem?_eq_getElem lt))
  · intro each entry mem
    exact each entry.1 (fst_mem_of_mem_zipIdx mem)

theorem splitVSizes_given {sizes splitSizes : List Int} {axisSize : Int} (given : -1 ∉ sizes) :
    splitVSizes sizes axisSize = .ok splitSizes ↔
      (i64 sizes.sum = axisSize ∧ ∀ size ∈ sizes, 0 ≤ size) ∧ sizes = splitSizes := by
  have seen : sizes.zipIdx.foldlM visitSize (none, 0) = .ok (none, i64 sizes.sum) := by
    have all := foldlM_visitSize given 0 none 0
    rwa [Int.zero_add] at all
  simp only [splitVSizes, seen, bind_eq_ok, Except.ok.injEq, exists_eq_left', opRequires_eq_ok,
    exists_const, fits, resolve, forM_checkSize, beq_iff_eq, and_assoc]

theorem splitVSizes_determined {pre after splitSizes : List Int} {axisSize : Int}
    (first : -1 ∉ pre) (last : -1 ∉ after) :
    splitVSizes (pre ++ -1 :: after) axisSize = .ok splitSizes ↔
      (i64 (pre ++ after).sum ≤ axisSize ∧
        0 ≤ i64 (axisSize - i64 (pre ++ after).sum) ∧ ∀ size ∈ pre ++ after, 0 ≤ size) ∧
      pre ++ i64 (axisSize - i64 (pre ++ after).sum) :: after = splitSizes := by
  have seen : (pre ++ -1 :: after).zipIdx.foldlM visitSize (none, 0) =
      .ok (some pre.length, i64 (pre ++ after).sum) := by
    have start := foldlM_visitSize first 0 none 0
    rw [Int.zero_add] at start
    have rest := foldlM_visitSize last (pre.length + 1) (some pre.length) pre.sum
    rw [zipIdx_append, foldlM_append, zipIdx_cons, sum_append, ← rest]
    change (pre.zipIdx.foldlM visitSize (none, i64 0) >>= _) = _
    rw [start, zero_add]
    rfl
  have resolved (n : Int) : (pre ++ -1 :: after).set pre.length n = pre ++ n :: after := by
    rw [set_append_right _ _ (le_refl _), Nat.sub_self, set_cons_zero]
  simp only [splitVSizes, seen, bind_eq_ok, Except.ok.injEq, exists_eq_left', opRequires_eq_ok,
    exists_const, fits, resolve, forM_checkSize, decide_eq_true_eq, resolved]
  rw [forall_mem_append, forall_mem_cons, forall_mem_append]
  constructor
  · rintro ⟨lt, ⟨early, nat, late⟩, made⟩
    exact ⟨⟨lt, nat, early, late⟩, made⟩
  · rintro ⟨⟨lt, nat, early, late⟩, made⟩
    exact ⟨lt, ⟨early, nat, late⟩, made⟩

theorem splitVSizes_two {pre mid after : List Int} {axisSize : Int} (first : -1 ∉ pre)
    (snd : -1 ∉ mid) (splitSizes : List Int) :
    splitVSizes (pre ++ -1 :: (mid ++ -1 :: after)) axisSize ≠ .ok splitSizes := by
  have start := foldlM_visitSize first 0 none 0
  have middle := foldlM_visitSize snd (pre.length + 1) (some pre.length)
    (0 + pre.sum)
  have err : (pre ++ -1 :: (mid ++ -1 :: after)).zipIdx.foldlM visitSize (none, 0) =
      .error (.invalidArgument "There can only be one -1 in the input.") := by
    rw [zipIdx_append, foldlM_append, zipIdx_cons, zipIdx_append, zipIdx_cons]
    change (pre.zipIdx.foldlM visitSize (none, i64 0) >>= _) = _
    rw [start, Nat.zero_add]
    change ((mid.zipIdx (pre.length + 1) ++ _).foldlM visitSize
      (some pre.length, i64 (0 + pre.sum))) = _
    rw [foldlM_append, middle]
    rfl
  rw [splitVSizes, err]
  exact nofun

theorem filter_given {sizes : List Int} (given : -1 ∉ sizes) : sizes.filter (· != -1) = sizes :=
  filter_eq_self.mpr fun size mem => by
    rw [bne_iff_ne]
    rintro rfl
    exact given mem

theorem filter_append_cons {pre after : List Int} (first : -1 ∉ pre) :
    (pre ++ -1 :: after).filter (· != -1) = pre ++ after.filter (· != -1) := by
  rw [filter_append, filter_given first, filter_cons_of_neg (by decide)]

theorem i64_bounds (n : Int) : -2 ^ 63 ≤ i64 n ∧ i64 n < 2 ^ 63 ∧ ∃ k, n = i64 n + 2 ^ 64 * k :=
  ⟨Int.le_bmod (by decide), Int.bmod_lt (by decide), n.bdiv (2 ^ 64),
    (Int.bmod_add_bdiv n (2 ^ 64)).symm⟩

theorem i32_bounds (n : Int) : -2 ^ 31 ≤ i32 n ∧ i32 n < 2 ^ 31 ∧ ∃ k, n = i32 n + 2 ^ 32 * k :=
  ⟨Int.le_bmod (by decide), Int.bmod_lt (by decide), n.bdiv (2 ^ 32),
    (Int.bmod_add_bdiv n (2 ^ 32)).symm⟩

theorem i64_sub_nonneg {n : Nat} {sum : Int} (lt : i64 sum ≤ i32 n) :
    0 ≤ i64 (i32 n - i64 sum) ↔ i32 n - i64 sum < 2 ^ 63 := by
  have lower : -2 ^ 63 ≤ i64 sum := Int.le_bmod (by decide)
  have upper : i32 n < 2 ^ 31 := Int.bmod_lt (by decide)
  have bounds : 0 ≤ i32 n - i64 sum ∧ i32 n - i64 sum < 2 ^ 63 + 2 ^ 31 := by omega
  generalize i32 n - i64 sum = rest at bounds ⊢
  rw [i64, Int.bmod]
  split_ifs <;> omega

structure SplitVCall where
  index : IndexType
  input : TensorShape
  splitDim : BitVec 32
  sizeSplits : List (BitVec (indexWidth index))
  inRange : -(input.length : Int) ≤ splitDim.toInt ∧ splitDim.toInt < input.length
  few : input.numElements < 2 ^ 31
  sized : ∀ dim ∈ input, dim < 2 ^ 63
  several : sizeSplits ≠ []

namespace SplitVCall

variable (c : SplitVCall)

def splitDimTensor : IndexTensor 32 := ⟨[], [c.splitDim], rfl⟩

def splitTensor : IndexTensor (indexWidth c.index) :=
  ⟨[c.sizeSplits.length], c.sizeSplits, prod_singleton.symm⟩

def axis : Nat :=
  (if c.splitDim.toInt < 0 then c.splitDim.toInt + c.input.length else c.splitDim.toInt).toNat

def axisLength : Nat := c.input.getD c.axis 0

def sizes : List Int := c.sizeSplits.map BitVec.toInt

def given : List Int := c.sizes.filter (· != -1)

/-- At most one size is to be determined, and the others are not negative. -/
def Natural : Prop := c.sizes.count (-1) ≤ 1 ∧ ∀ size ∈ c.given, 0 ≤ size

def Valid : Prop :=
  c.Natural ∧ if -1 ∈ c.sizes then c.given.sum ≤ c.axisLength else c.given.sum = c.axisLength

def initHelper : Except Status Init :=
  SplitOp.initHelper c.input c.splitDimTensor (some c.splitTensor) c.sizeSplits.length

def Accepts : Prop := ∃ init, c.initHelper = .ok init

theorem axis_lt : c.axis < c.input.length := by
  have range := c.inRange
  rw [axis]
  split_ifs <;> omega

theorem axis_eq : (c.axis : Int) =
    if c.splitDim.toInt < 0 then c.splitDim.toInt + c.input.length else c.splitDim.toInt := by
  have range := c.inRange
  rw [axis]
  split_ifs <;> omega

theorem initHelper_eq_ok {init : Init} : c.initHelper = .ok init ↔
      splitVSizes c.sizes (i32 c.axisLength) = .ok init.splitSizes ∧ init.splitDim = c.axis := by
  have range := c.inRange
  have axis := c.axis_eq
  have pos : 0 < c.sizeSplits.length := length_pos_iff.mpr c.several
  have dim : c.splitDimTensor.flat 0 = c.splitDim.toInt := rfl
  have count : c.splitTensor.numElements = c.sizeSplits.length := prod_singleton
  have vector : c.splitTensor.shape.length = 1 := rfl
  have scalar : c.splitDimTensor.shape.isScalar = true := rfl
  simp only [initHelper, SplitOp.initHelper, bind_eq_ok, opRequires_eq_ok, exists_const, dim,
    scalar, true_and, ← axis, Bool.and_eq_true, decide_eq_true_eq, pos, count, vector,
    beq_self_eq_true, and_self, Int.toNat_natCast, Nat.cast_lt, c.axis_lt, Int.natCast_nonneg]
  constructor
  · rintro ⟨splitSizes, sizes, made⟩
    obtain rfl := Except.ok.inj made
    exact ⟨sizes, rfl⟩
  · rintro ⟨sizes, same⟩
    exact ⟨init.splitSizes, sizes, congrArg Except.ok (Init.mk.injEq .. ▸ ⟨same.symm, rfl⟩)⟩

/-- The comparison of the sum and the axis, as they are computed. -/
def Fits : Prop :=
  if -1 ∈ c.sizes then
    i64 c.given.sum ≤ i32 c.axisLength ∧ i32 c.axisLength - i64 c.given.sum < 2 ^ 63
  else i64 c.given.sum = i32 c.axisLength

theorem accepts_iff : c.Accepts ↔ c.Natural ∧ c.Fits := by
  have sizes : c.Accepts ↔ ∃ splitSizes, splitVSizes c.sizes (i32 c.axisLength) = .ok splitSizes :=
    ⟨fun ⟨init, ok⟩ => ⟨_, (c.initHelper_eq_ok.mp ok).1⟩,
      fun ⟨splitSizes, ok⟩ => ⟨⟨c.axis, splitSizes⟩, c.initHelper_eq_ok.mpr ⟨ok, rfl⟩⟩⟩
  rw [sizes, Natural, Fits, given]
  by_cases determined : -1 ∈ c.sizes
  · obtain ⟨pre, after, split, first⟩ := eq_append_cons_of_mem determined
    rw [split, if_pos (by simp), filter_append_cons first]
    by_cases again : -1 ∈ after
    · obtain ⟨mid, later, isAfter, snd⟩ := eq_append_cons_of_mem again
      rw [isAfter]
      constructor
      · rintro ⟨splitSizes, ok⟩
        exact absurd ok (splitVSizes_two first snd splitSizes)
      · rintro ⟨⟨once, -⟩, -⟩
        simp only [count_append, count_cons_self] at once
        omega
    · have others : after.filter (· != -1) = after := filter_given again
      have once : (pre ++ -1 :: after).count (-1) = 1 := by
        rw [count_append, count_cons_self, count_eq_zero.mpr first, count_eq_zero.mpr again]
      simp only [splitVSizes_determined first again, exists_and_left, exists_eq', and_true, others,
        once, le_refl, true_and]
      constructor
      · rintro ⟨lt, rest, nat⟩
        exact ⟨nat, lt, (i64_sub_nonneg lt).mp rest⟩
      · rintro ⟨nat, lt, rest⟩
        exact ⟨lt, (i64_sub_nonneg lt).mpr rest, nat⟩
  · have once : c.sizes.count (-1) ≤ 1 := by
      rw [count_eq_zero.mpr determined]
      exact Nat.zero_le 1
    simp only [splitVSizes_given determined, exists_and_left, exists_eq', and_true,
      filter_given determined, if_neg determined, once, true_and]
    exact and_comm

/-- The sizes fit an axis whose length does not fit in an `int`. -/
def Narrowed : Prop :=
  2 ^ 31 ≤ c.axisLength ∧
    if -1 ∈ c.sizes then i32 c.axisLength < c.given.sum ∧ c.given.sum ≤ c.axisLength
    else c.given.sum = c.axisLength

/-- The sum of the sizes does not fit the axis, but its low bits do. -/
def Wrapped : Prop :=
  if -1 ∈ c.sizes then
    c.axisLength < c.given.sum ∧ i64 c.given.sum ≤ i32 c.axisLength ∧
      i32 c.axisLength - i64 c.given.sum < 2 ^ 63
  else c.given.sum ≠ c.axisLength ∧ i64 c.given.sum = i32 c.axisLength

theorem axisLength_lt : c.axisLength < 2 ^ 63 := by
  rw [axisLength, getD_eq_getElem _ _ c.axis_lt]
  exact c.sized _ (getElem_mem c.axis_lt)

theorem fits_iff_valid (nat : c.Natural) : (c.Fits ↔ c.Valid) ↔ ¬ c.Narrowed ∧ ¬ c.Wrapped := by
  have pos : 0 ≤ c.given.sum := sum_induction (0 ≤ ·) (fun _ _ => Int.add_nonneg)
    (Int.le_refl 0) nat.2
  have length := c.axisLength_lt
  have ⟨lowSum, highSum, wraps, sum⟩ := i64_bounds c.given.sum
  have ⟨lowAxis, highAxis, narrows, axis⟩ := i32_bounds c.axisLength
  simp only [Fits, Valid, Narrowed, Wrapped, nat, true_and]
  generalize i64 c.given.sum = wrapped at *
  generalize i32 c.axisLength = narrowed at *
  generalize c.given.sum = sum at *
  generalize c.axisLength = length at *
  split_ifs
  · omega
  · omega

theorem accepts_iff_valid : (c.Accepts ↔ c.Valid) ↔ c.Natural → ¬ c.Narrowed ∧ ¬ c.Wrapped := by
  rw [c.accepts_iff]
  by_cases nat : c.Natural
  · rw [← c.fits_iff_valid nat]
    simp [nat]
  · simp [nat, Valid]

end SplitVCall

end TfDml.SplitOp
