import TfDml.Core.NoOpKernel
import TfDml.Core.TensorDesc
import TfDml.Core.TensorShapeUtils
import TfDml.Kernels.StridedSliceSpec
import TfDml.Lib.RoundedInteger
import Mathlib.Algebra.Order.Floor.Div

/-! # Range of 64-bit integers

The helper computes how many elements lie between the start and the limit. The kernel fills a
sequence from the start with steps of delta; both scalars are passed on as a double. The rounded
up division is a parameter.
-/

namespace TfDml.RangeOp

open Lib List
open StridedSlice (IndexTensor)
open TensorShape NoOpKernel

/-- An `int64_t` result. -/
def i64 (n : Int) : Int := n.bmod (2 ^ 64)

/-- `Eigen::numext::abs`. -/
def abs64 (n : Int) : Int := i64 |n|

def isSingle (shape : TensorShape) : Bool :=
  shape.isScalar || (shape.length == 1 && shape.getD 0 0 == 1)

structure Init where
  outputShape : TensorShape
  start : Int
  delta : Int

def checkDirection (start limit delta : Int) : Except Status Unit :=
  if 0 < delta then
    opRequires (start ≤ limit) (.invalidArgument ("Requires start <= limit when delta > 0: " ++
      toString start ++ "/" ++ toString limit))
  else
    opRequires (limit ≤ start) (.invalidArgument ("Requires start >= limit when delta < 0: " ++
      toString start ++ "/" ++ toString limit))

/-- The constructor of `RangeInitHelper<int64_t>`, where `divup` is `Eigen::divup`. -/
def initHelper (divup : Int → Int → Int) (startIn limitIn deltaIn : IndexTensor 64) :
    Except Status Init := do
  opRequires (isSingle startIn.shape)
    (.invalidArgument ("start must be a scalar, not shape " ++ startIn.shape.debugString))
  opRequires (isSingle limitIn.shape)
    (.invalidArgument ("limit must be a scalar, not shape " ++ limitIn.shape.debugString))
  opRequires (isSingle deltaIn.shape)
    (.invalidArgument ("delta must be a scalar, not shape " ++ deltaIn.shape.debugString))
  let start := startIn.flat 0
  let limit := limitIn.flat 0
  let delta := deltaIn.flat 0
  opRequires (delta != 0) (.invalidArgument ("Requires delta != 0: " ++ toString delta))
  checkDirection start limit delta
  let size := divup (abs64 (i64 (limit - start))) (abs64 delta)
  let outputShape ← addDimWithStatus [] size
  .ok ⟨outputShape, start, delta⟩

/-- `static_cast<double>` of an `int64_t`, which is an integer. -/
def toDouble (n : Int) : Int := roundInt 53 n

/-- `ScalarUnion` for `DML_TENSOR_DATA_TYPE_INT64`. The cast back has no defined result for a
    value that is out of range. -/
def scalarUnion (value : Int) : Option Int :=
  if -2 ^ 63 ≤ value ∧ value < 2 ^ 63 then some value else none

/-- `DML_OPERATOR_FILL_VALUE_SEQUENCE` for 64-bit integers. -/
def fillValueSequence (sizes : List Nat) (start delta : Int) : List Int :=
  (List.range sizes.prod).map fun i : Nat => i64 (start + i * delta)

/-- `DmlRangeKernel<int64_t>`. -/
def kernel (init : Init) : Option (List Int) := do
  let sizes ← DmlTensorDesc.narrowTensorShape init.outputShape
  let start ← scalarUnion (toDouble init.start)
  let delta ← scalarUnion (toDouble init.delta)
  some (fillValueSequence sizes start delta)

/-- The wrapper does not run the kernel for an empty output. -/
def compute (startIn limitIn deltaIn : IndexTensor 64) (init : Init) : Option (List Int) :=
  if isNoOpKernel [startIn.shape, limitIn.shape, deltaIn.shape] [init.outputShape] then
    some (List.replicate init.outputShape.numElements 0)
  else kernel init

/-- The division rounds up if its dividend and its divisor can be added. -/
def RoundsUp (divup : Int → Int → Int) : Prop :=
  ∀ x y : Nat, 0 < y → x + y - 1 < 2 ^ 63 → divup x y = (x ⌈/⌉ y : Nat)

def divupBySum (x y : Int) : Int := (i64 (x + y - 1)).tdiv y

theorem i64_of_bounds {n : Int} (above : -2 ^ 63 ≤ n) (below : n < 2 ^ 63) : i64 n = n := by
  rw [i64, Int.bmod_eq_of_le] <;> omega

theorem roundsUp_divupBySum : RoundsUp divupBySum := by
  intro x y pos lt
  have sum : (x : Int) + y - 1 = ((x + y - 1 : Nat) : Int) := by omega
  rw [divupBySum, sum, i64_of_bounds (by omega) (by omega), Nat.ceilDiv_eq_add_pred_div]
  exact Int.ofNat_tdiv _ _

/-- An accepted invocation, whose output `NarrowTensorShape` lets through. -/
structure RangeCall (divup : Int → Int → Int) where
  startIn : IndexTensor 64
  limitIn : IndexTensor 64
  deltaIn : IndexTensor 64
  init : Init
  accepted : initHelper divup startIn limitIn deltaIn = .ok init
  narrow : init.outputShape.numElements < 2 ^ 32

namespace RangeCall

variable {divup : Int → Int → Int} (c : RangeCall divup)

def start : Int := c.startIn.flat 0

def limit : Int := c.limitIn.flat 0

def delta : Int := c.deltaIn.flat 0

/-- The number of elements, as the specification has it. -/
def count : Nat := (c.limit - c.start).natAbs ⌈/⌉ c.delta.natAbs

/-- What is computed on the way to the number of elements, the last one by the division. -/
def intermediates : List Int :=
  [c.limit - c.start, |c.limit - c.start|, |c.delta|, |c.limit - c.start| + |c.delta| - 1]

/-- The range is computed without overflow and without rounding. -/
structure IsExact : Prop where
  noOverflow : ∀ n ∈ c.intermediates, -2 ^ 63 ≤ n ∧ n < 2 ^ 63
  size : c.init.outputShape = [c.count]
  scalars : c.init.outputShape.numElements ≠ 0 →
    scalarUnion (toDouble c.init.start) = some c.start ∧
      scalarUnion (toDouble c.init.delta) = some c.delta
  elements : compute c.startIn c.limitIn c.deltaIn c.init =
    some ((List.range c.count).map fun i : Nat => c.start + i * c.delta)

/-- The distance and the step can be added, and a sequence that is not empty has scalars with no
    more bits than a double has. -/
def Representable : Prop :=
  |c.limit - c.start| + |c.delta| ≤ 2 ^ 63 ∧ c.delta ≠ -2 ^ 63 ∧
    (c.start = c.limit ∨ HasPrecision 53 c.start ∧ HasPrecision 53 c.delta)

structure Checked : Prop where
  single : isSingle c.startIn.shape = true ∧ isSingle c.limitIn.shape = true ∧
    isSingle c.deltaIn.shape = true
  nonzero : c.delta ≠ 0
  up : 0 < c.delta → c.start ≤ c.limit
  down : c.delta < 0 → c.limit ≤ c.start
  outputShape : c.init.outputShape =
    [(divup (abs64 (i64 (c.limit - c.start))) (abs64 c.delta)).toNat]
  start : c.init.start = c.start
  delta : c.init.delta = c.delta

theorem checked : c.Checked := by
  have ok := c.accepted
  simp only [initHelper, bind_eq_ok, opRequires_eq_ok, exists_const, bne_iff_ne,
    addDimWithStatus, decide_eq_true_eq] at ok
  obtain ⟨startSingle, limitSingle, deltaSingle, ne, _, directed, shape, ⟨-, -, -, made⟩,
    rest⟩ := ok
  obtain rfl := Except.ok.inj made
  have isInit := Except.ok.inj rest
  rw [checkDirection] at directed
  refine ⟨⟨startSingle, limitSingle, deltaSingle⟩, ne, fun up => ?_, fun down => ?_, ?_, ?_, ?_⟩
  · have up : 0 < c.deltaIn.flat 0 := up
    rwa [if_pos up, opRequires_eq_ok, decide_eq_true_eq] at directed
  · have notUp : ¬0 < c.deltaIn.flat 0 := Int.not_lt.mpr (Int.le_of_lt down)
    rwa [if_neg notUp, opRequires_eq_ok, decide_eq_true_eq] at directed
  · rw [← isInit]
    rfl
  · rw [← isInit]
    rfl
  · rw [← isInit]
    rfl

theorem start_bounds : -2 ^ 63 ≤ c.start ∧ c.start < 2 ^ 63 := ⟨BitVec.le_toInt _, BitVec.toInt_lt⟩

theorem limit_bounds : -2 ^ 63 ≤ c.limit ∧ c.limit < 2 ^ 63 := ⟨BitVec.le_toInt _, BitVec.toInt_lt⟩

theorem delta_bounds : -2 ^ 63 ≤ c.delta ∧ c.delta < 2 ^ 63 := ⟨BitVec.le_toInt _, BitVec.toInt_lt⟩

end RangeCall

theorem scalarUnion_toDouble_iff {n : Int} (above : -2 ^ 63 ≤ n) (below : n < 2 ^ 63) :
    scalarUnion (toDouble n) = some n ↔ HasPrecision 53 n := by
  rw [← roundInt_eq_self_iff, scalarUnion, Option.ite_none_right_eq_some, Option.some.injEq]
  constructor
  · intro passed
    exact passed.2
  · intro same
    have same : toDouble n = n := same
    rw [same]
    exact ⟨⟨above, below⟩, rfl⟩

namespace RangeCall

variable {divup : Int → Int → Int} (c : RangeCall divup)

theorem noOverflow_iff : (∀ n ∈ c.intermediates, -2 ^ 63 ≤ n ∧ n < 2 ^ 63) ↔
      |c.limit - c.start| + |c.delta| ≤ 2 ^ 63 ∧ c.delta ≠ -2 ^ 63 := by
  have ne := c.checked.nonzero
  have bounds := c.delta_bounds
  simp only [intermediates, forall_mem_cons, not_mem_nil, false_implies,
    implies_true, and_true, Int.abs_eq_natAbs]
  omega

theorem outputShape_eq (rounds : RoundsUp divup)
    (noOverflow : |c.limit - c.start| + |c.delta| ≤ 2 ^ 63 ∧ c.delta ≠ -2 ^ 63) :
    c.init.outputShape = [c.count] := by
  have ne := c.checked.nonzero
  have bounds := c.delta_bounds
  rw [Int.abs_eq_natAbs, Int.abs_eq_natAbs] at noOverflow
  have distance : abs64 (i64 (c.limit - c.start)) = (c.limit - c.start).natAbs := by
    rw [i64_of_bounds (by omega) (by omega), abs64, Int.abs_eq_natAbs,
      i64_of_bounds (by omega) (by omega)]
  have step : abs64 c.delta = c.delta.natAbs := by
    rw [abs64, Int.abs_eq_natAbs, i64_of_bounds (by omega) (by omega)]
  rw [c.checked.outputShape, distance, step, rounds _ _ (by omega) (by omega), Int.toNat_natCast,
    count]

theorem count_eq_zero_iff : c.count = 0 ↔ c.start = c.limit := by
  have pos : 0 < c.delta.natAbs := by
    have ne := c.checked.nonzero
    omega
  rw [count, Nat.ceilDiv_eq_add_pred_div, Nat.div_eq_zero_iff]
  omega

theorem mul_lt_of_lt_count {i : Nat} (lt : i < c.count) :
    i * c.delta.natAbs < (c.limit - c.start).natAbs := by
  have pos : 0 < c.delta.natAbs := by
    have ne := c.checked.nonzero
    omega
  rw [count, Nat.ceilDiv_eq_add_pred_div, Nat.lt_iff_add_one_le, Nat.le_div_iff_mul_le pos,
    Nat.succ_mul] at lt
  omega

theorem element_bounds {i : Nat} (lt : i < c.count) :
    -2 ^ 63 ≤ c.start + i * c.delta ∧ c.start + i * c.delta < 2 ^ 63 := by
  have pre := c.mul_lt_of_lt_count lt
  have start := c.start_bounds
  have limit := c.limit_bounds
  have product : ((i * c.delta.natAbs : Nat) : Int) = i * |c.delta| := by
    rw [Int.abs_eq_natAbs, Int.natCast_mul]
  cases Int.lt_or_gt_of_ne c.checked.nonzero with
  | inl neg =>
    have ordered := c.checked.down neg
    rw [abs_of_neg neg, Int.mul_neg] at product
    omega
  | inr pos =>
    have ordered := c.checked.up pos
    rw [abs_of_pos pos] at product
    omega

theorem single_numElements {shape : TensorShape} (single : isSingle shape = true) :
    shape.numElements ≠ 0 := by
  rw [isSingle, Bool.or_eq_true, Bool.and_eq_true, beq_iff_eq, beq_iff_eq] at single
  cases shape with
  | nil => exact Nat.one_ne_zero
  | cons dim rest =>
    rcases single with scalar | ⟨vector, one⟩
    · cases scalar
    · obtain rfl := length_eq_zero_iff.mp (Nat.succ.inj vector)
      simp only [getD_cons_zero] at one
      rw [one]
      exact Nat.one_ne_zero

theorem compute_eq : compute c.startIn c.limitIn c.deltaIn c.init =
    if c.init.outputShape.numElements = 0 then some [] else kernel c.init := by
  have start := single_numElements c.checked.single.1
  have limit := single_numElements c.checked.single.2.1
  have delta := single_numElements c.checked.single.2.2
  by_cases empty : c.init.outputShape.numElements = 0
  · have noOp : isNoOpKernel [c.startIn.shape, c.limitIn.shape, c.deltaIn.shape]
        [c.init.outputShape] = true :=
      isNoOpKernel_iff.mpr (.inr ⟨_, mem_singleton_self _, empty⟩)
    rw [compute, if_pos noOp, if_pos empty, empty, replicate_zero]
  · have run : ¬isNoOpKernel [c.startIn.shape, c.limitIn.shape, c.deltaIn.shape]
        [c.init.outputShape] = true := by
      simp [isNoOpKernel_iff, start, limit, delta, empty]
    rw [compute, if_neg run, if_neg empty]

theorem kernel_eq (scalars : scalarUnion (toDouble c.init.start) = some c.start ∧
    scalarUnion (toDouble c.init.delta) = some c.delta) (size : c.init.outputShape = [c.count]) :
    kernel c.init = some ((List.range c.count).map fun i : Nat => c.start + i * c.delta) := by
  have lt := c.narrow
  rw [size, numElements, prod_singleton] at lt
  have desc := DmlTensorDesc.narrowTensorShape_eq_some.mpr
    ⟨fun dim (mem : dim ∈ [c.count]) => mem_singleton.mp mem ▸ lt, rfl⟩
  rw [kernel, size, desc, scalars.1, scalars.2]
  simp only [Option.bind_eq_bind, Option.bind_some, fillValueSequence, prod_singleton]
  refine congrArg some (map_congr_left fun i mem => ?_)
  have bounds := c.element_bounds (mem_range.mp mem)
  exact i64_of_bounds bounds.1 bounds.2

def evens : RangeCall divupBySum where
  startIn := ⟨[], [0], rfl⟩
  limitIn := ⟨[], [5], rfl⟩
  deltaIn := ⟨[], [2], rfl⟩
  init := ⟨[3], 0, 2⟩
  accepted := by rfl
  narrow := by decide

def beyondDouble : RangeCall divupBySum where
  startIn := ⟨[], [9007199254740993], rfl⟩
  limitIn := ⟨[], [9007199254740994], rfl⟩
  deltaIn := ⟨[], [1], rfl⟩
  init := ⟨[1], 9007199254740993, 1⟩
  accepted := by rfl
  narrow := by decide

end RangeCall

end TfDml.RangeOp
