import TfDml.Kernels.ScatterUpdate
import TfDml.Lib.ExtendedField
import TfDml.Lib.MaskedReduce
import Mathlib.Algebra.Order.Ring.Rat
import Mathlib.Data.List.GetD

/-! # Scatters that compute

The graph compares each index with each row, masks the updates of the other rows with the
identity of the operation, and reduces over the indices. The largest and the lowest
number stand for the identities of `min` and `max`; the infinities lie beyond them.
-/

namespace TfDml.ScatterUpdate

open Lib List
open NoOpKernel (isNoOpKernel isNoOpKernel_iff)
open TensorShape

inductive BinaryOperation where
  | add
  | sub
  | mul
  | div
  | min
  | max
  deriving DecidableEq

/-- `std::numeric_limits` of the type of the params. -/
structure NumericLimits (K : Type) where
  lowest : K
  max : K

section Operations

variable {K : Type} [Field K] [LinearOrder K]

namespace BinaryOperation

def apply : BinaryOperation → Extended K → Extended K → Extended K
  | .add => Extended.add
  | .sub => Extended.sub
  | .mul => Extended.mul
  | .div => Extended.div
  | .min => Extended.min
  | .max => Extended.max

/-- The `DML_REDUCE_FUNCTION` of the operation. -/
def reduceFunction : BinaryOperation → Extended K → Extended K → Extended K
  | .add | .sub => Extended.add
  | .mul | .div => Extended.mul
  | .min => Extended.min
  | .max => Extended.max

/-- `BinaryOperationIdentityValue`. -/
def identityValue (limits : NumericLimits K) : BinaryOperation → Extended K
  | .mul | .div => 1
  | .add | .sub => 0
  | .min => .finite limits.max
  | .max => .finite limits.lowest

end BinaryOperation

/-- `Reinterpret` with strides, at some coordinates. -/
def reinterpret {α : Type} (buffer : List α) (strides coordinates : List Nat) : Option α :=
  buffer[(zipWith (· * ·) coordinates strides).sum]?

/-- Params with rows, indices of rows, and updates that have a row for each index or are one
    scalar for all. -/
structure Scatter (K : Type) where
  params : TensorShape
  indices : TensorShape
  updates : TensorShape
  flat : FlatShapes
  paramsValues : List (Extended K)
  indicesValues : List Nat
  updatesValues : List (Extended K)
  built : flatShapes params indices updates = .ok flat
  updatesShape : updates = [] ∨ updates = indices ++ params.drop 1
  sizedParams : paramsValues.length = params.numElements
  sizedIndices : indicesValues.length = indices.numElements
  sizedUpdates : updatesValues.length = updates.numElements
  inRange : ∀ i ∈ indicesValues, i < params.getD 0 0

namespace Scatter

variable (op : BinaryOperation) (limits : NumericLimits K) (s : Scatter K)

def rowCount : Nat := s.flat.params.getD 0 0

def columns : Nat := s.flat.params.getD 1 0

def indexCount : Nat := s.flat.indices.getD 0 0

/-- `broadcasted_indices == broadcasted_row_indices` -/
def isMatch (u r c : Nat) : Option Bool := do
  let index ← reinterpret s.indicesValues [0, 1, 0, 0] [0, u, r, c]
  let row ← reinterpret (range s.rowCount) [0, 0, 1, 0] [0, u, r, c]
  some (index == row)

def broadcastedUpdate (u r c : Nat) : Option (Extended K) :=
  if s.updates.isScalar then reinterpret s.updatesValues [0, 0, 0, 0] [0, u, r, c]
  else reinterpret s.updatesValues [0, s.flat.indices.getD 1 0, 0, 1] [0, u, r, c]

def sparseUpdate (u r c : Nat) : Option (Extended K) := do
  let isMatch ← s.isMatch u r c
  let update ← s.broadcastedUpdate u r c
  some (if isMatch then update else op.identityValue limits)

def reducedUpdate (r c : Nat) : Option (Extended K) := do
  let sparse ← (range s.indexCount).mapM fun u => s.sparseUpdate op limits u r c
  reduced op.reduceFunction sparse

def result (r c : Nat) : Option (Extended K) := do
  let x ← s.paramsValues[r * s.columns + c]?
  let update ← s.reducedUpdate op limits r c
  some (op.apply x update)

def run (r c : Nat) : Option (Extended K) :=
  if isNoOpKernel [[], s.indices, s.updates] [] then s.paramsValues[r * s.columns + c]?
  else s.result op limits r c

def index (u : Nat) : Nat := s.indicesValues.getD u 0

def update (u c : Nat) : Extended K :=
  if s.updates = [] then s.updatesValues.getD 0 0
  else s.updatesValues.getD (u * (s.params.drop 1).prod + c) 0

def applyUpdate (values : List (Extended K)) (u : Nat) : List (Extended K) :=
  values.mapIdx fun k x =>
    if s.index u = k / (s.params.drop 1).prod then
      op.apply x (s.update u (k % (s.params.drop 1).prod))
    else x

def reference : List (Extended K) :=
  (range s.indices.numElements).foldl (s.applyUpdate op) s.paramsValues

def EqualsSequential : Prop :=
  ∀ r < s.params.getD 0 0, ∀ c < (s.params.drop 1).prod,
    s.run op limits r c = (s.reference op)[r * (s.params.drop 1).prod + c]?

omit [Field K] [LinearOrder K] in
theorem flat_eq : s.params.getD 0 0 ≠ 0 ∧ s.rowCount = s.params.getD 0 0 ∧
      s.columns = (s.params.drop 1).prod ∧ s.indexCount = s.indices.numElements ∧
      s.flat.indices.getD 1 0 = (s.params.drop 1).prod := by
  have built := s.built
  simp only [flatShapes, bind_eq_ok, Except.ok.injEq] at built
  obtain ⟨size, sized, flat⟩ := built
  obtain ⟨-, some_, rfl⟩ := sliceSize_ok_iff.mp sized
  rw [rowCount, columns, indexCount, ← flat]
  exact ⟨some_, rfl, rfl, rfl, rfl⟩

/-- The updates of an element, with whether they are for its row. -/
def updatesOf (r c : Nat) : List (Bool × Extended K) :=
  (range s.indices.numElements).map fun u => (s.index u == r, s.update u c)

variable {s}

omit [Field K] [LinearOrder K] in
theorem position_lt {r c : Nat} (isRow : r < s.params.getD 0 0)
    (isColumn : c < (s.params.drop 1).prod) :
    r * (s.params.drop 1).prod + c < s.paramsValues.length := by
  rw [s.sizedParams]
  cases shape : s.params with
  | nil => simp [shape] at isRow
  | cons outer rest =>
    simp only [shape, getD_cons_zero, drop_one, tail_cons] at isRow isColumn
    have row : (r + 1) * rest.prod ≤ outer * rest.prod := Nat.mul_le_mul_right _ isRow
    rw [Nat.succ_mul] at row
    simp only [numElements, prod_cons, drop_one, tail_cons]
    omega

omit [Field K] [LinearOrder K] in
theorem isMatch_eq {u r : Nat} (c : Nat) (isIndex : u < s.indices.numElements)
    (isRow : r < s.params.getD 0 0) : s.isMatch u r c = some (s.index u == r) := by
  have lt : u < s.indicesValues.length := s.sizedIndices ▸ isIndex
  have rows : (range s.rowCount)[r]? = some r := by rw [s.flat_eq.2.1, getElem?_range isRow]
  have index : s.indicesValues[u]? = some (s.index u) := by
    rw [Scatter.index, getD_eq_getElem _ _ lt, getElem?_eq_getElem lt]
  simp [isMatch, reinterpret, rows, index]

omit [LinearOrder K] in
theorem broadcastedUpdate_eq {u c : Nat} (r : Nat) (isIndex : u < s.indices.numElements)
    (isColumn : c < (s.params.drop 1).prod) : s.broadcastedUpdate u r c = some (s.update u c) := by
  have sized := s.sizedUpdates
  by_cases isScalar : s.updates = []
  · have lt : 0 < s.updatesValues.length := by
      rw [sized, isScalar]
      exact one_pos
    simp [broadcastedUpdate, update, isScalar, TensorShape.isScalar, reinterpret,
      getElem?_eq_getElem lt]
  · have shape := s.updatesShape.resolve_left isScalar
    have lt : u * (s.params.drop 1).prod + c < s.updatesValues.length := by
      have row : (u + 1) * (s.params.drop 1).prod ≤
          s.indices.numElements * (s.params.drop 1).prod := Nat.mul_le_mul_right _ isIndex
      rw [sized, shape, numElements, prod_append]
      rw [numElements] at row
      rw [Nat.succ_mul] at row
      omega
    have notScalar : s.updates.isScalar = false := by simpa [TensorShape.isScalar] using isScalar
    simp only [broadcastedUpdate, notScalar, Bool.false_eq_true, if_false, update, isScalar,
      reinterpret, s.flat_eq.2.2.2.2, zipWith_cons_cons, zipWith_nil_left, sum_cons,
      sum_nil, mul_zero, zero_add, mul_one, add_zero]
    rw [getElem?_eq_getElem lt, getD_eq_getElem _ _ lt]

theorem result_eq {r c : Nat} {x : Extended K} (isRow : r < s.params.getD 0 0)
    (isColumn : c < (s.params.drop 1).prod) (some_ : s.indices.numElements ≠ 0)
    (param : s.paramsValues[r * (s.params.drop 1).prod + c]? = some x) : s.result op limits r c =
      some (maskedReduce op.apply op.reduceFunction (op.identityValue limits) x
        (s.updatesOf r c)) := by
  have sparse : ((range s.indexCount).mapM fun u => s.sparseUpdate op limits u r c) =
      some (masked (op.identityValue limits) (s.updatesOf r c)) := by
    rw [masked, updatesOf, map_map, s.flat_eq.2.2.2.1]
    apply mapM_eq_some
    intro u mem
    have isIndex := mem_range.mp mem
    rw [sparseUpdate, isMatch_eq c isIndex isRow, broadcastedUpdate_eq r isIndex isColumn]
    rfl
  have ne : masked (op.identityValue limits) (s.updatesOf r c) ≠ [] := by
    simpa [masked, updatesOf] using some_
  rw [result, s.flat_eq.2.2.1, param, reducedUpdate, sparse, maskedReduce]
  exact reduced_bind ne x

theorem getElem?_reference {r c : Nat} (isColumn : c < (s.params.drop 1).prod) :
    (s.reference op)[r * (s.params.drop 1).prod + c]? =
      (s.paramsValues[r * (s.params.drop 1).prod + c]?).map fun x =>
        sequential op.apply x (s.updatesOf r c) := by
  have row : (r * (s.params.drop 1).prod + c) / (s.params.drop 1).prod = r := by
    rw [mul_comm, Nat.mul_add_div (by omega), Nat.div_eq_of_lt isColumn, add_zero]
  have column : (r * (s.params.drop 1).prod + c) % (s.params.drop 1).prod = c := by
    rw [mul_comm, Nat.mul_add_mod, Nat.mod_eq_of_lt isColumn]
  have folded := getElem?_foldl_mapIdx op.apply
    (fun u k => s.index u = k / (s.params.drop 1).prod)
    (fun u k => s.update u (k % (s.params.drop 1).prod)) (range s.indices.numElements)
    s.paramsValues (r * (s.params.drop 1).prod + c)
  rw [row, column] at folded
  exact folded

variable (s)

def AllOf (P : Extended K → Prop) (r c : Nat) : Prop :=
  (∀ x ∈ s.paramsValues[r * (s.params.drop 1).prod + c]?, P x) ∧
    ∀ u < s.indices.numElements, s.index u = r → P (s.update u c)

/-- For `min`, nothing of the element may lie beyond the largest number unless all indices are
    its row, so that nothing is masked; `max` is dual. -/
def NeutralAt (r c : Nat) : Prop :=
  match op with
  | .add | .sub | .mul | .div => True
  | .min =>
    (∀ u < s.indices.numElements, s.index u = r) ∨ ¬ s.AllOf (Extended.Exceeds limits.max) r c
  | .max =>
    (∀ u < s.indices.numElements, s.index u = r) ∨ ¬ s.AllOf (Extended.FallsBelow limits.lowest) r c

def Neutral : Prop :=
  ∀ r < s.params.getD 0 0, ∀ c < (s.params.drop 1).prod, s.NeutralAt op limits r c

variable {s}

omit [LinearOrder K] in
theorem all_updatesOf {r c : Nat} :
    (s.updatesOf r c).all Prod.fst = true ↔ ∀ u < s.indices.numElements, s.index u = r := by
  simp [updatesOf]

omit [LinearOrder K] in
theorem sequential_updatesOf_iff {combine : Extended K → Extended K → Extended K}
    {P : Extended K → Prop} (both : ∀ x y, P (combine x y) ↔ P x ∧ P y) {r c : Nat}
    {x : Extended K} (param : s.paramsValues[r * (s.params.drop 1).prod + c]? = some x) :
    P (sequential combine x (s.updatesOf r c)) ↔ s.AllOf P r c := by
  rw [sequential_iff both, AllOf, param]
  simp [updatesOf]

omit [LinearOrder K] in
theorem extremum_eq_iff {combine : Extended K → Extended K → Extended K}
    (assoc : ∀ x y z, combine x (combine y z) = combine (combine x y) z)
    (comm : ∀ x y, combine x y = combine y x) (idem : ∀ x, combine x x = x)
    {P : Extended K → Prop} {identity : Extended K}
    (kept : ∀ x, combine x identity = x ↔ ¬ P x)
    (both : ∀ x y, P (combine x y) ↔ P x ∧ P y) {r c : Nat} {x : Extended K}
    (param : s.paramsValues[r * (s.params.drop 1).prod + c]? = some x) :
    maskedReduce combine combine identity x (s.updatesOf r c) =
        sequential combine x (s.updatesOf r c) ↔
      (∀ u < s.indices.numElements, s.index u = r) ∨ ¬ s.AllOf P r c := by
  rw [maskedReduce_of_idempotent assoc comm idem]
  by_cases all : (s.updatesOf r c).all Prod.fst = true
  · rw [if_pos all]
    exact iff_of_true rfl (Or.inl (all_updatesOf.mp all))
  · rw [if_neg all, kept, sequential_updatesOf_iff both param]
    have notAll : ¬ ∀ u < s.indices.numElements, s.index u = r := fun every =>
      all (all_updatesOf.mpr every)
    exact (or_iff_right notAll).symm

variable [IsStrictOrderedRing K]

theorem maskedReduce_eq_iff {r c : Nat} {x : Extended K}
    (param : s.paramsValues[r * (s.params.drop 1).prod + c]? = some x) :
    maskedReduce op.apply op.reduceFunction (op.identityValue limits) x (s.updatesOf r c) =
        sequential op.apply x (s.updatesOf r c) ↔ s.NeutralAt op limits r c := by
  cases op with
  | add =>
    exact iff_of_true (maskedReduce_eq_sequential Extended.add_add Extended.add_neutral x _)
      trivial
  | sub =>
    exact iff_of_true (maskedReduce_eq_sequential Extended.sub_sum Extended.sub_neutral x _)
      trivial
  | mul =>
    exact iff_of_true (maskedReduce_eq_sequential Extended.mul_mul Extended.mul_neutral x _)
      trivial
  | div =>
    exact iff_of_true
      (maskedReduce_eq_sequential Extended.div_product Extended.div_neutral x _) trivial
  | min =>
    exact extremum_eq_iff Extended.min_min Extended.min_commutes Extended.min_self_eq
      (fun _ => Extended.min_finite_eq_iff) (fun _ _ => Extended.exceeds_min) param
  | max =>
    exact extremum_eq_iff Extended.max_max Extended.max_commutes Extended.max_self_eq
      (fun _ => Extended.max_finite_eq_iff) (fun _ _ => Extended.fallsBelow_max) param

omit [Field K] [LinearOrder K] [IsStrictOrderedRing K] in
theorem noIndices_of_skipped (skip : isNoOpKernel [[], s.indices, s.updates] [] = true)
    (cols : 0 < (s.params.drop 1).prod) : s.indices.numElements = 0 := by
  rcases isNoOpKernel_iff.mp skip with ⟨shape, mem, empty⟩ | ⟨shape, mem, -⟩
  · simp only [mem_cons, not_mem_nil, or_false] at mem
    rcases mem with rfl | rfl | rfl
    · exact absurd empty Nat.one_ne_zero
    · exact empty
    · rcases s.updatesShape with isScalar | shape
      · rw [isScalar] at empty
        exact absurd empty Nat.one_ne_zero
      · rw [shape, numElements, prod_append, Nat.mul_eq_zero] at empty
        exact empty.resolve_right (Nat.ne_of_gt cols)
  · exact absurd mem not_mem_nil

omit [IsStrictOrderedRing K] in
theorem neutralAt_of_noIndices (none : s.indices.numElements = 0) (r c : Nat) :
    s.NeutralAt op limits r c := by
  cases op with
  | add | sub | mul | div => trivial
  | min | max =>
    refine Or.inl fun u isIndex => ?_
    rw [none] at isIndex
    exact absurd isIndex (Nat.not_lt_zero u)

theorem run_eq_iff {r c : Nat} (isRow : r < s.params.getD 0 0)
    (isColumn : c < (s.params.drop 1).prod) :
    s.run op limits r c = (s.reference op)[r * (s.params.drop 1).prod + c]? ↔
      s.NeutralAt op limits r c := by
  rw [getElem?_reference op isColumn, run]
  by_cases skip : isNoOpKernel [[], s.indices, s.updates] [] = true
  · have none := noIndices_of_skipped skip (by omega)
    rw [if_pos skip, s.flat_eq.2.2.1]
    exact iff_of_true (by simp [sequential, updatesOf, none])
      (neutralAt_of_noIndices op limits none r c)
  · have some_ : s.indices.numElements ≠ 0 := fun none =>
      skip (isNoOpKernel_iff.mpr (Or.inl ⟨s.indices, by simp, none⟩))
    have param := getElem?_eq_getElem (position_lt isRow isColumn)
    rw [if_neg skip, result_eq op limits isRow isColumn some_ param, param, Option.map_some,
      Option.some.injEq]
    exact maskedReduce_eq_iff op limits param

/-- The params are those of the updates one by one exactly if the identity is neutral for every
    element. -/
theorem equalsSequential_iff_neutral (s : Scatter K) :
    s.EqualsSequential op limits ↔ s.Neutral op limits :=
  forall₄_congr fun _ isRow _ isColumn => run_eq_iff op limits isRow isColumn

end Scatter

end Operations

def halfLimits : NumericLimits ℚ := ⟨-65504, 65504⟩

/-- Three updates of two rows, two of them of the second. -/
def repeatedRow : Scatter ℚ where
  params := [2, 2]
  indices := [3]
  updates := [3, 2]
  flat := ⟨[2, 2], [3, 2], [3, 1], [3, 2], [3, 2]⟩
  paramsValues := [.posInf, .finite 0, .finite 3, .negInf]
  indicesValues := [1, 0, 1]
  updatesValues := [.finite 1, .finite 2, .finite 3, .posInf, .finite (-4), .finite 5]
  built := rfl
  updatesShape := Or.inr rfl
  sizedParams := rfl
  sizedIndices := rfl
  sizedUpdates := rfl
  inRange := by decide

theorem repeatedRow_sequential : repeatedRow.EqualsSequential .div halfLimits := by
  apply (Scatter.equalsSequential_iff_neutral .div halfLimits repeatedRow).mpr
  intro r _ c _
  exact trivial

def infiniteRow : Scatter ℚ where
  params := [2, 1]
  indices := [1]
  updates := [1, 1]
  flat := ⟨[2, 1], [1, 1], [1, 1], [1, 1], [1, 1]⟩
  paramsValues := [.posInf, .finite 0]
  indicesValues := [1]
  updatesValues := [.finite 1]
  built := rfl
  updatesShape := Or.inr rfl
  sizedParams := rfl
  sizedIndices := rfl
  sizedUpdates := rfl
  inRange := by decide

/-- The minimum with the largest number takes the place of the infinity. -/
theorem infiniteRow_notSequential : ¬ infiniteRow.EqualsSequential .min halfLimits := by
  intro same
  have first := same 0 (by decide) 0 (by decide)
  have eq : infiniteRow.run .min halfLimits 0 0 = some (.finite 65504) := rfl
  have kept : (infiniteRow.reference .min)[0 * (infiniteRow.params.drop 1).prod + 0]? =
      some .posInf := rfl
  rw [eq, kept] at first
  simp at first

end TfDml.ScatterUpdate
