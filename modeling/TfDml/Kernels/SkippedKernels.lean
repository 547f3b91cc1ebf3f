import TfDml.Core.NoOpKernel
import TfDml.Kernels.SimplifyPad
import Mathlib.Analysis.Complex.Exponential

/-! # Kernels that are skipped though they have something to compute

`Pad`, `PadV2` and `_FusedMatMul` do not override `IsNoOpKernel`. A scalar has an empty
tensor of paddings, a padded tensor without elements consists of the constant, and a
product over nothing leaves the bias: zeros are right only under a condition on the values.
-/

namespace TfDml.SkippedKernels

open Lib
open List hiding flatten
open NoOpKernel
open Pad (PadInitHelper padInitHelper padDim)
open StridedSlice (IndexTensor)
open TensorShape

/-- An invocation that the initialization helper accepts; `PadV2` has constant values. -/
structure PadInvocation (α : Type) [Zero α] (w : Nat) where
  input : TensorShape
  paddings : IndexTensor w
  constantValues : Option α
  values : List α
  helper : PadInitHelper α
  sized : values.length = input.numElements
  accepted : padInitHelper .constant input paddings (constantValues.map fun x => ([], x)) =
    .ok helper

namespace PadInvocation

variable {α : Type} [Zero α] {w : Nat} (i : PadInvocation α w)

def inputShapes : List TensorShape :=
  i.input :: i.paddings.shape :: i.constantValues.toList.map fun _ => []

def reference : List (Option α) :=
  padded .constant ((range i.input.length).map (padDim i.input i.paddings))
    (i.constantValues.getD 0) i.values

/-- Where the kernel is skipped, the output is what it would have computed. -/
def SkipSound : Prop :=
  isNoOpKernel i.inputShapes [i.helper.outputShape] = true →
    i.reference = zeroed i.helper.outputShape

/-- A scalar is zero. Of inputs without elements, the output has none either, or is padded
    with zero. -/
structure ZeroOrEmpty : Prop where
  scalar : i.input = [] → ∀ x ∈ i.values, x = 0
  empty : i.input.numElements = 0 →
    (∃ d < i.input.length, padDim i.input i.paddings d = ⟨0, 0, 0⟩) ∨ i.constantValues.getD 0 = 0

theorem length_reference : i.reference.length = i.helper.outputShape.numElements := by
  have known := Pad.padInitHelper_ok i.accepted
  rw [reference, length_padded, known.outputShape, map_map]
  rfl

theorem isNoOpKernel_iff_empty : isNoOpKernel i.inputShapes [i.helper.outputShape] = true ↔
      i.input = [] ∨ i.input.numElements = 0 ∨ i.helper.outputShape.numElements = 0 := by
  have known := Pad.padInitHelper_ok i.accepted
  have paddings : i.paddings.shape.numElements = 0 ↔ i.input = [] := by
    rw [known.dims]
    simp [numElements]
  have constant : ∀ shape ∈ i.constantValues.toList.map fun _ => ([] : TensorShape),
      shape.prod ≠ 0 := by
    intro shape mem
    obtain ⟨x, -, rfl⟩ := mem_map.mp mem
    exact Nat.one_ne_zero
  rw [isNoOpKernel_iff]
  constructor
  · rintro (⟨shape, mem, empty⟩ | ⟨shape, mem, empty⟩)
    · rw [inputShapes, mem_cons, mem_cons] at mem
      rcases mem with rfl | rfl | isConstant
      · exact Or.inr (Or.inl empty)
      · exact Or.inl (paddings.mp empty)
      · exact absurd empty (constant shape isConstant)
    · exact Or.inr (Or.inr (mem_singleton.mp mem ▸ empty))
  · rintro (isScalar | empty | empty)
    · exact Or.inl ⟨i.paddings.shape, by simp [inputShapes], paddings.mpr isScalar⟩
    · exact Or.inl ⟨i.input, by simp [inputShapes], empty⟩
    · exact Or.inr ⟨i.helper.outputShape, mem_singleton_self _, empty⟩

theorem output_empty_iff : i.helper.outputShape.numElements = 0 ↔
      ∃ d < i.input.length, padDim i.input i.paddings d = ⟨0, 0, 0⟩ := by
  have known := Pad.padInitHelper_ok i.accepted
  have total : ∀ d, (padDim i.input i.paddings d).total = 0 ↔
      padDim i.input i.paddings d = ⟨0, 0, 0⟩ := by
    intro d
    cases padDim i.input i.paddings d with
    | mk size pre after =>
      simp only [PadDim.total, PadDim.mk.injEq]
      omega
  rw [known.outputShape, numElements, prod_eq_zero_iff]
  simp [total]

theorem reference_of_empty (empty : i.input.numElements = 0) :
    i.reference = replicate i.helper.outputShape.numElements
      (some (i.constantValues.getD 0)) := by
  obtain ⟨d, lt, size⟩ := getElem_of_mem (prod_eq_zero_iff.mp empty)
  have known := Pad.padInitHelper_ok i.accepted
  have mem : padDim i.input i.paddings d ∈ (range i.input.length).map (padDim i.input i.paddings) :=
    mem_map_of_mem (mem_range.mpr lt)
  have noSize : (padDim i.input i.paddings d).size = 0 := by
    rw [padDim, getD_eq_getElem _ _ lt, size]
  rw [reference, padded_of_empty mem noSize, known.outputShape, map_map]
  rfl

theorem skipSound_of_scalar (isScalar : i.input = []) : i.SkipSound ↔ ∀ x ∈ i.values, x = 0 := by
  have one : i.values.length = 1 := by rw [i.sized, isScalar]; rfl
  have known := Pad.padInitHelper_ok i.accepted
  obtain ⟨x, values⟩ := length_eq_one_iff.mp one
  have reference : i.reference = [some x] := by
    rw [PadInvocation.reference, isScalar, values]
    rfl
  have shape : i.helper.outputShape = [] := by rw [known.outputShape, isScalar]; rfl
  have skip := i.isNoOpKernel_iff_empty.mpr (Or.inl isScalar)
  rw [SkipSound, imp_iff_right skip, reference, shape, values]
  simp [zeroed, numElements]

theorem skipSound_iff : i.SkipSound ↔ i.ZeroOrEmpty := by
  by_cases isScalar : i.input = []
  · rw [i.skipSound_of_scalar isScalar]
    constructor
    · intro zero
      refine ⟨fun _ => zero, fun empty => ?_⟩
      rw [isScalar] at empty
      exact absurd empty Nat.one_ne_zero
    · intro cond
      exact cond.scalar isScalar
  · by_cases empty : i.input.numElements = 0
    · have skip := i.isNoOpKernel_iff_empty.mpr (Or.inr (Or.inl empty))
      have cond : i.ZeroOrEmpty ↔
          i.helper.outputShape.numElements = 0 ∨ i.constantValues.getD 0 = 0 := by
        rw [output_empty_iff]
        exact ⟨fun holds => holds.empty empty, fun holds => ⟨fun is => absurd is isScalar,
          fun _ => holds⟩⟩
      rw [SkipSound, imp_iff_right skip, i.reference_of_empty empty, cond, zeroed]
      simp [replicate_inj]
    · refine iff_of_true (fun skip => ?_) ⟨fun is => absurd is isScalar, fun is => absurd is empty⟩
      rcases i.isNoOpKernel_iff_empty.mp skip with is | is | none
      · exact absurd is isScalar
      · exact absurd is empty
      · rw [zeroed_of_empty none, ← length_eq_zero_iff, i.length_reference, none]

end PadInvocation

inductive FusedComputationType where
  | kBiasAdd
  | kBiasAddWithRelu
  | kBiasAddWithElu
  deriving DecidableEq

structure MatMulAttributes where
  transposeA : Bool
  transposeB : Bool

def matMulInitHelper (attr : MatMulAttributes) (a b : TensorShape) : Except Status Unit := do
  opRequires (a.length == 2)
    (.invalidArgument ("In[0] is not a matrix. Instead it has shape " ++ a.debugString))
  opRequires (b.length == 2)
    (.invalidArgument ("In[1] is not a matrix. Instead it has shape " ++ b.debugString))
  let in0KIndex := if attr.transposeA then 0 else 1
  let in1KIndex := if attr.transposeB then 1 else 0
  opRequires (a.getD in0KIndex 0 == b.getD in1KIndex 0)
    (.invalidArgument ("Matrix size-incompatible: In[0]: " ++ a.debugString ++ ", In[1]: " ++
      b.debugString))

/-- `MatMulShapeHelper::GetOutputShapes`. -/
def outputShape (attr : MatMulAttributes) (a b : TensorShape) : TensorShape :=
  [if !attr.transposeA then a.getD 0 0 else a.getD 1 0,
    if !attr.transposeB then b.getD 1 0 else b.getD 0 0]

/-- The fused activation; `elu_desc.Alpha` is 1. -/
noncomputable def activation : FusedComputationType → ℝ → ℝ
  | .kBiasAdd, x => x
  | .kBiasAddWithRelu, x => max x 0
  | .kBiasAddWithElu, x => if 0 < x then x else Real.exp x - 1

/-- Matrices that the initialization helper accepts, and a bias for each column of the
    output. -/
structure FusedMatMul where
  attr : MatMulAttributes
  type : FusedComputationType
  a : TensorShape
  b : TensorShape
  aValues : List ℝ
  bValues : List ℝ
  bias : List ℝ
  accepted : matMulInitHelper attr a b = .ok ()
  sizedA : aValues.length = a.numElements
  sizedB : bValues.length = b.numElements
  sizedBias : bias.length = (outputShape attr a b).getD 1 0

namespace FusedMatMul

variable (m : FusedMatMul)

def shape : TensorShape := outputShape m.attr m.a m.b

def rows : Nat := m.shape.getD 0 0

def columns : Nat := m.shape.getD 1 0

def inner : Nat := m.a.getD (if m.attr.transposeA then 0 else 1) 0

noncomputable def entryA (i l : Nat) : ℝ :=
  m.aValues.getD (flatten m.a (if m.attr.transposeA then [l, i] else [i, l])) 0

noncomputable def entryB (l j : Nat) : ℝ :=
  m.bValues.getD (flatten m.b (if m.attr.transposeB then [j, l] else [l, j])) 0

noncomputable def entry (i j : Nat) : ℝ :=
  activation m.type
    (((range m.inner).map fun l => m.entryA i l * m.entryB l j).sum + m.bias.getD j 0)

noncomputable def reference : List (Option ℝ) :=
  (range m.rows).flatMap fun i => (range m.columns).map fun j => some (m.entry i j)

def SkipSound : Prop :=
  isNoOpKernel [m.a, m.b, [m.bias.length]] [m.shape] = true → m.reference = zeroed m.shape

def Vanishes : FusedComputationType → ℝ → Prop
  | .kBiasAdd, x => x = 0
  | .kBiasAddWithRelu, x => x ≤ 0
  | .kBiasAddWithElu, x => x = 0

theorem activation_eq_zero_iff {type : FusedComputationType} {x : ℝ} :
    activation type x = 0 ↔ Vanishes type x := by
  cases type with
  | kBiasAdd => exact Iff.rfl
  | kBiasAddWithRelu => exact max_eq_right_iff
  | kBiasAddWithElu =>
    simp only [activation, Vanishes]
    split
    case isTrue pos => exact Iff.rfl
    case isFalse notPositive => rw [sub_eq_zero, Real.exp_eq_one_iff]

/-- Something is multiplied, there is no row, or nothing comes from the bias. -/
def ProductOrNothing : Prop := m.inner ≠ 0 ∨ m.rows = 0 ∨ ∀ x ∈ m.bias, Vanishes m.type x

theorem matrices : m.a.numElements = m.rows * m.inner ∧ m.b.numElements = m.inner * m.columns := by
  have ok := m.accepted
  simp only [matMulInitHelper, bind_eq_ok, opRequires_eq_ok, exists_const, beq_iff_eq] at ok
  obtain ⟨matrixA, matrixB, inner⟩ := ok
  obtain ⟨a0, a1, shapeA⟩ := length_eq_two.mp matrixA
  obtain ⟨b0, b1, shapeB⟩ := length_eq_two.mp matrixB
  rw [shapeA, shapeB] at inner
  simp only [rows, columns, FusedMatMul.inner, shape, outputShape, shapeA, shapeB, numElements]
  cases transposeA : m.attr.transposeA with
  | false =>
    cases transposeB : m.attr.transposeB with
    | false => simp_all
    | true => simp_all [mul_comm]
  | true =>
    cases transposeB : m.attr.transposeB with
    | false => simp_all [mul_comm]
    | true => simp_all [mul_comm]

theorem numElements_shape : m.shape.numElements = m.rows * m.columns := by
  simp [shape, rows, columns, outputShape, numElements]

theorem length_reference : m.reference.length = m.shape.numElements := by
  rw [numElements_shape]
  simp [reference, length_flatMap]

theorem mem_reference {x : Option ℝ} :
    x ∈ m.reference ↔ ∃ i < m.rows, ∃ j < m.columns, some (m.entry i j) = x := by
  simp [reference]

theorem reference_zero_iff (noInner : m.inner = 0) :
    (∀ x ∈ m.reference, x = some 0) ↔ m.rows = 0 ∨ ∀ x ∈ m.bias, Vanishes m.type x := by
  have entry : ∀ i j, m.entry i j = activation m.type (m.bias.getD j 0) := by
    intro i j
    simp [FusedMatMul.entry, noInner]
  have cols : m.bias.length = m.columns := m.sizedBias
  constructor
  · intro zero
    rcases Nat.eq_zero_or_pos m.rows with none | some
    · exact Or.inl none
    · refine Or.inr fun x mem => ?_
      obtain ⟨j, lt, rfl⟩ := getElem_of_mem mem
      have isZero := zero _ (m.mem_reference.mpr ⟨0, some, j, cols ▸ lt, rfl⟩)
      rw [entry, getD_eq_getElem _ _ lt, Option.some.injEq, activation_eq_zero_iff] at isZero
      exact isZero
  · rintro vanishes x mem
    obtain ⟨i, isRow, j, isColumn, rfl⟩ := m.mem_reference.mp mem
    rcases vanishes with none | vanishes
    · omega
    · have lt : j < m.bias.length := cols ▸ isColumn
      rw [entry, getD_eq_getElem _ _ lt, Option.some.injEq, activation_eq_zero_iff]
      exact vanishes _ (getElem_mem lt)

theorem isNoOpKernel_iff_empty : isNoOpKernel [m.a, m.b, [m.bias.length]] [m.shape] = true ↔
      m.rows = 0 ∨ m.inner = 0 ∨ m.columns = 0 := by
  have bias : numElements [m.bias.length] = m.columns := by
    rw [m.sizedBias]
    simp [numElements, columns, shape]
  simp only [isNoOpKernel, any_cons, any_nil, m.matrices, bias, m.numElements_shape,
    Bool.or_eq_true, beq_iff_eq, Nat.mul_eq_zero, Bool.false_eq_true]
  grind

theorem skipSound_iff : m.SkipSound ↔ m.ProductOrNothing := by
  rw [SkipSound, eq_zeroed_iff m.length_reference, ProductOrNothing]
  by_cases noInner : m.inner = 0
  · have skipped := m.isNoOpKernel_iff_empty.mpr (Or.inr (Or.inl noInner))
    rw [imp_iff_right skipped, m.reference_zero_iff noInner]
    exact (or_iff_right (not_not_intro noInner)).symm
  · -- Only an output without elements is skipped.
    refine iff_of_true (fun skipped x mem => ?_) (Or.inl noInner)
    obtain ⟨i, isRow, j, isColumn, -⟩ := m.mem_reference.mp mem
    have empty := m.isNoOpKernel_iff_empty.mp skipped
    omega

end FusedMatMul

/-- When the kernels are skipped, the zeros are the result exactly under the conditions. -/
theorem skipSound_iff_values {α : Type} [Zero α] {w : Nat} (i : PadInvocation α w)
    (m : FusedMatMul) : (i.SkipSound ↔ i.ZeroOrEmpty) ∧ (m.SkipSound ↔ m.ProductOrNothing) :=
  ⟨i.skipSound_iff, m.skipSound_iff⟩

/-- A scalar that is padded in no dimension. -/
def paddedScalar : PadInvocation Int 32 where
  input := []
  paddings := ⟨[0, 2], [], rfl⟩
  constantValues := none
  values := [7]
  helper := ⟨[], 0, replicate 4 ⟨1, 1, 0, 0⟩, .constant⟩
  sized := rfl
  accepted := rfl

def paddedNothing : PadInvocation Int 32 where
  input := [0]
  paddings := ⟨[1, 2], [1, 2], rfl⟩
  constantValues := some 1
  values := []
  helper := ⟨[3], 1, replicate 3 ⟨1, 1, 0, 0⟩ ++ [⟨0, 3, 1, 2⟩], .constant⟩
  sized := rfl
  accepted := rfl

/-- A product over nothing, and a bias. -/
def emptyProduct : FusedMatMul where
  attr := ⟨false, false⟩
  type := .kBiasAddWithRelu
  a := [2, 0]
  b := [0, 1]
  aValues := []
  bValues := []
  bias := [1]
  accepted := rfl
  sizedA := rfl
  sizedB := rfl
  sizedBias := rfl

theorem not_skipSound :
    ¬ paddedScalar.SkipSound ∧ ¬ paddedNothing.SkipSound ∧ ¬ emptyProduct.SkipSound := by
  refine ⟨fun sound => ?_, fun sound => ?_, fun sound => ?_⟩
  · exact absurd (sound rfl) (by decide)
  · exact absurd (sound rfl) (by decide)
  · have zero := sound rfl
    have first : some (emptyProduct.entry 0 0) = some 0 := congrArg (fun l => (l.head?).join) zero
    simp [FusedMatMul.entry, FusedMatMul.inner, emptyProduct, activation] at first

end TfDml.SkippedKernels
