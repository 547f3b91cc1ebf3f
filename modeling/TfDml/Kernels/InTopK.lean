import TfDml.Core.DmlGraph
import TfDml.Core.NoOpKernel
import TfDml.Kernels.GatherNd
import TfDml.Kernels.SimplifySlice

/-! # InTopKV2

The op says for each row of predictions whether that of the target is among the `k` largest. The
kernel compares it to the last of these, and takes it from the row by a sum with zeros.
-/

namespace TfDml.InTopK

open Lib Option
open List hiding flatten
open DmlGraph (Expression)
open DmlTensorDesc (create)
open GatherNd (IndexType)
open StridedSlice (i32)

/-- The targets and `k` have the type `T`. -/
structure Arguments (α : Type) where
  type : IndexType
  predictions : TensorShape
  targets : TensorShape
  kShape : TensorShape
  values : List α
  targetValues : List Int
  k : Int

namespace Arguments

variable {α : Type} (args : Arguments α)

def batch : Nat := args.predictions.getD 0 0
def classes : Nat := args.predictions.getD 1 0

/-- `DmlInTopKInitHelper`, with its `k_`. -/
def initHelper : Except Status Int := do
  opRequires args.kShape.isScalar
    (.invalidArgument s!"k must be 0-D, got shape {args.kShape.debugString}")
  opRequires (args.predictions.length == 2)
    (.invalidArgument "predictions must be 2-dimensional")
  opRequires (args.targets.length == 1) (.invalidArgument "targets must be 1-dimensional")
  opRequires (args.predictions.getD 0 0 == args.targets.getD 0 0)
    (.invalidArgument (s!"First dimension of predictions {args.predictions.getD 0 0}" ++
      s!" must match length of targets {args.targets.getD 0 0}"))
  return args.k

def getK (k_ : Int) : Int := i32 k_

def element (type : IndexType) (n : Nat) : Int :=
  match type with
  | .int32 => i32 n
  | .int64 => n

/-- `dml::Sequence<T>` from 0. -/
def sequence (type : IndexType) (sizes : List Nat) : Expression Int :=
  .ofIndices sizes fun index => some (element type (flatten sizes index))

def lowestColumn (topK : Expression α) (k : Nat) : Option (Expression α) :=
  if 1 < k then topK.split 3 [k - 1, 1] 1 else some topK

variable [AddCommMonoid α] [LinearOrder α]

/-- The graph, for a `k` that the classes have. -/
def graph (type : IndexType) (predictions : Expression α) (targets : Expression Int)
    (k numClasses : Nat) : Option (Expression Bool) := do
  let topK ← predictions.topK 3 k
  let classes := sequence type [1, 1, 1, numClasses]
  let numClassesTensor := Expression.scalarTensor (element type numClasses) targets.sizes
  let zeroTensor := Expression.scalarTensor (0 : Int) targets.sizes
  -- Broadcast the classes list to the number of targets
  let sparseClasses ← classes.reinterpret predictions.sizes (some [0, 0, 0, 1])
  let zeroFloatTensor := Expression.scalarTensor (0 : α) predictions.sizes
  let sparseTargets ← targets.reinterpret predictions.sizes (some [0, 0, 1, 0])
  let matches_ ← sparseTargets.map₂ (fun target c => decide (target = c)) sparseClasses
  let sparsePredictions ← matches_.select predictions zeroFloatTensor
  let classPrediction ←
    (sparsePredictions.reduceSum 3).reinterpret targets.sizes (some [0, 0, 0, 1])
  -- To handle ties, the prediction is compared to the lowest one of the TopK result
  let lowestTopK ← lowestColumn topK k
  let lowest ← lowestTopK.reinterpret classPrediction.sizes (some [0, 0, 0, 1])
  let above ← targets.map₂ (fun target zero => decide (zero ≤ target)) zeroTensor
  let below ← targets.map₂ (fun target count => decide (target < count)) numClassesTensor
  let inTop ← classPrediction.map₂ (fun prediction least => decide (least ≤ prediction)) lowest
  -- Every value is finite
  let finite := classPrediction.map fun _ => true
  let inRange ← above.map₂ and below
  let found ← inRange.map₂ and inTop
  found.map₂ and finite

/-- `DmlInTopKKernel`. Without a result, a `CHECK` fails. -/
def kernel (k_ : Int) : Option (List (Option Bool)) := do
  let predictions ← create args.predictions args.predictions
  let targets ← create args.targets args.targets
  let _ ← create args.targets args.targets
  -- DML doesn't support K values bigger than the size of the TopK axis
  let k := min (getK k_) args.classes
  if k < 1 then return List.replicate args.targets.numElements (some false)
  else
    let result ← graph args.type ⟨predictions.sizes, some predictions.strides, args.values.map some⟩
      ⟨targets.sizes, some targets.strides, args.targetValues.map some⟩ k.toNat args.classes
    return result.buffer

def compute : Option (Except Status (List (Option Bool))) :=
  match args.initHelper with
  | .error status => some (.error status)
  | .ok k_ =>
    if NoOpKernel.isNoOpKernel [args.predictions, args.targets, args.kShape] [args.targets] then
      some (.ok (List.replicate args.targets.numElements (some false)))
    else do
      let output ← args.kernel k_
      return .ok output

def row (b : Nat) : List α :=
  (List.range args.classes).map fun c => args.values.getD (b * args.classes + c) 0

def target (b : Nat) : Int := args.targetValues.getD b 0

def InRange (b : Nat) : Prop := 0 ≤ args.target b ∧ args.target b < args.classes

instance (b : Nat) : Decidable (args.InRange b) := inferInstanceAs (Decidable (_ ∧ _))

def greater (b : Nat) : Nat :=
  let prediction := args.values.getD (b * args.classes + (args.target b).toNat) 0
  (args.row b).countP fun x => decide (prediction < x)

def reference : List Bool :=
  (List.range args.batch).map fun b => decide (args.InRange b ∧ (args.greater b : Int) < args.k)

end Arguments

def Fits (type : IndexType) (n : Int) : Prop := -type.max - 1 ≤ n ∧ n ≤ type.max

/-- An accepted call with predictions that are not empty. -/
structure Call (α : Type) extends Arguments α where
  sizedPredictions : values.length = predictions.numElements
  sizedTargets : targetValues.length = targets.numElements
  fitsTargets : ∀ n ∈ targetValues, Fits type n
  fitsK : Fits type k
  accepted : toArguments.initHelper = .ok k
  nonempty : predictions.numElements ≠ 0

namespace Call

variable {α : Type} [AddCommMonoid α] [LinearOrder α] (call : Call α)

def Correct : Prop := call.compute = some (.ok (call.reference.map some))

/-- The sizes have 32 bits, and in 31 bits there are as many classes as they can be compared to. No
    count is between `k` and what is left of it in 32 bits. -/
structure Supported : Prop where
  narrow : call.batch < 2 ^ 32 ∧ call.classes < 2 ^ 32
  classes : call.type = .int32 → 2 ^ 31 ≤ call.classes →
    ∀ b < call.batch, call.InRange b → call.k ≤ call.greater b
  truncated : ∀ b < call.batch, call.InRange b →
    ¬(call.k ≤ call.greater b ∧ call.greater b < i32 call.k) ∧
      ¬(i32 call.k ≤ call.greater b ∧ call.greater b < call.k)

end Call

end TfDml.InTopK

namespace TfDml.InTopK

open Lib Option
open List hiding flatten
open DmlGraph (Expression exists_transposed rows_mem)
open DmlTensorDesc (address create packedStrides)
open GatherNd (IndexType)
open StridedSlice (i32 i32_of_bounds)
open Arguments (element getK graph lowestColumn sequence)

section Sorted

variable {α : Type} [LinearOrder α]

variable {x : α} {j : Nat}

theorem getElem_le_iff {sorted : List α} (decreasing : sorted.Pairwise fun x y => y ≤ x)
    (lt : j < sorted.length) : sorted[j] ≤ x ↔ sorted.countP (fun y => decide (x < y)) ≤ j := by
  induction sorted generalizing j with
  | nil => simp at lt
  | cons first rest ih =>
    obtain ⟨least, later⟩ := pairwise_cons.mp decreasing
    by_cases above : x < first
    · rw [countP_cons_of_pos (by simpa using above)]
      cases j with
      | zero => simp [above]
      | succ j =>
        rw [getElem_cons_succ, ih later (by simpa using lt)]
        omega
    · have below : ∀ y ∈ first :: rest, y ≤ x := by
        rw [forall_mem_cons]
        exact ⟨le_of_not_gt above, fun y mem => (least y mem).trans (le_of_not_gt above)⟩
      have none : (first :: rest).countP (fun y => decide (x < y)) = 0 :=
        countP_eq_zero.mpr fun y mem => by simpa using below y mem
      rw [none]
      exact iff_of_true (below _ (getElem_mem lt)) (Nat.zero_le j)

theorem mergeSort_decreasing (l : List α) :
    (l.mergeSort fun x y => decide (y ≤ x)).Pairwise fun x y => y ≤ x := by
  have sorted := @List.pairwise_mergeSort α (fun x y => decide (y ≤ x))
    (fun a b c first snd => by
      simp only [decide_eq_true_eq] at first snd ⊢
      exact snd.trans first)
    (fun a b => by simpa using le_total b a) l
  simpa using sorted

theorem kth_le_iff {l : List α} (lt : j < (l.mergeSort fun x y => decide (y ≤ x)).length) :
    (l.mergeSort fun x y => decide (y ≤ x))[j] ≤ x ↔ l.countP (fun y => decide (x < y)) ≤ j := by
  rw [getElem_le_iff (mergeSort_decreasing l) lt,
    (mergeSort_perm l fun x y => decide (y ≤ x)).countP_eq]

end Sorted

theorem sum_masked {α : Type} [AddCommMonoid α] (n t : Nat) (f : Nat → α) :
    ((List.range n).map fun c => if c = t then f c else 0).sum = if t < n then f t else 0 := by
  induction n with
  | zero => rfl
  | succ n ih =>
    rw [range_succ, map_append, sum_append, ih]
    by_cases here : n = t
    · subst here
      simp
    · by_cases less : t < n
      · simp [here, less, Nat.lt_succ_of_lt less]
      · simp [here, less, show ¬t < n + 1 by omega]

theorem element_eq_iff {type : IndexType} {t c : Nat} (fits : Fits type t) (lt : c < 2 ^ 32) :
    (t : Int) = element type c ↔ c = t := by
  cases type with
  | int64 => rw [element]; omega
  | int32 =>
    rw [Fits, IndexType.max] at fits
    rw [element]
    by_cases small : c < 2 ^ 31
    · rw [i32_of_bounds (by omega) (by omega)]
      omega
    · rw [i32, Int.bmod]
      split <;> omega

section Graph

variable {α : Type} {rows cols k : Nat}

variable {p : Nat → Nat → α} {t : Expression α}

theorem line_row (sizes : t.sizes = [1, 1, rows, cols])
    (reads : ∀ b < rows, ∀ c < cols, t.read [0, 0, b, c] = some (p b c)) {b : Nat} (row : b < rows)
    (k : Nat) : t.line 3 [0, 0, b, k] = some ((List.range cols).map (p b)) := by
  have count : t.sizes.getD 3 0 = cols := by rw [sizes]; rfl
  have line := @Expression.line_eq_some α t 3 [0, 0, b, k] (p b) fun c lt =>
    reads b row c (count ▸ lt)
  rw [line, count]

def sortedRow [LinearOrder α] (cols : Nat) (p : Nat → Nat → α) (b : Nat) : List α :=
  ((List.range cols).map (p b)).mergeSort fun x y => decide (y ≤ x)

theorem exists_lowest [LinearOrder α] (sizes : t.sizes = [1, 1, rows, cols])
    (reads : ∀ b < rows, ∀ c < cols, t.read [0, 0, b, c] = some (p b c)) (some_ : 0 < rows)
    (pos : 0 < k) (most : k ≤ cols) : ∃ topK column lowest : Expression α, t.topK 3 k = some topK ∧
      lowestColumn topK k = some column ∧
      column.reinterpret [1, 1, 1, rows] (some [0, 0, 0, 1]) = some lowest ∧
      lowest.sizes = [1, 1, 1, rows] ∧
      ∀ b < rows, lowest.read [0, 0, 0, b] = (sortedRow cols p b)[k - 1]? := by
  have count : t.sizes.getD 3 0 = cols := by rw [sizes]; rfl
  let largest (index : List Nat) : Option α := do
    let xs ← t.line 3 index
    (xs.mergeSort fun x y => decide (y ≤ x))[index.getD 3 0]?
  have made : t.topK 3 k = some (.ofIndices [1, 1, rows, k] largest) := by
    rw [Expression.topK, if_pos (count ▸ most), sizes]
    rfl
  obtain ⟨last, isColumn, isLast⟩ : ∃ last : List Nat → Option α,
      lowestColumn (.ofIndices [1, 1, rows, k] largest) k = some (.ofIndices [1, 1, rows, 1] last) ∧
      ∀ b < rows, last [0, 0, b, 0] = largest [0, 0, b, k - 1] := by
    by_cases many : 1 < k
    · have whole : ([k - 1, 1] : List Nat).sum = (Expression.ofIndices [1, 1, rows, k]
          largest).sizes.getD 3 0 ∧ 1 < ([k - 1, 1] : List Nat).length := by
        simp [Expression.ofIndices]
        omega
      rw [lowestColumn, if_pos many, Expression.split, if_pos whole]
      refine ⟨_, rfl, fun b row => ?_⟩
      exact Expression.read_ofIndices (rows_mem row (by simp; omega))
    · obtain rfl : k = 1 := by omega
      exact ⟨largest, if_neg many, fun b row => rfl⟩
  obtain ⟨lowest, reinterpreted, lowestSizes, read⟩ := exists_transposed some_ last
  refine ⟨_, _, lowest, made, isColumn, reinterpreted, lowestSizes, fun b row => ?_⟩
  have line := line_row sizes reads row (k - 1)
  rw [read b row, isLast b row]
  simp only [largest, line]
  rfl

theorem exists_sums [AddCommMonoid α] (sizes : t.sizes = [1, 1, rows, cols])
    (reads : ∀ b < rows, ∀ c < cols, t.read [0, 0, b, c] = some (p b c)) (some_ : 0 < rows) :
    ∃ sums : Expression α,
      (t.reduceSum 3).reinterpret [1, 1, 1, rows] (some [0, 0, 0, 1]) = some sums ∧
      sums.sizes = [1, 1, 1, rows] ∧
      ∀ b < rows, sums.read [0, 0, 0, b] = some ((List.range cols).map (p b)).sum := by
  obtain ⟨sums, reinterpreted, sumSizes, read⟩ :=
    exists_transposed some_ fun index => (t.line 3 index).map List.sum
  refine ⟨sums, ?_, sumSizes, fun b row => ?_⟩
  · rw [Expression.reduceSum, sizes]
    exact reinterpreted
  · rw [read b row, line_row sizes reads row, map_some]

theorem buffer_sequence (type : IndexType) (sizes : List Nat) :
    (sequence type sizes).buffer = (List.range sizes.prod).map fun n => some (element type n) := by
  rw [Arguments.sequence, Expression.ofIndices, ← map_flatten_indices, List.map_map]
  rfl

theorem exists_sparse [AddCommMonoid α] {type : IndexType} {t : Expression α}
    (sizes : t.sizes = [1, 1, rows, cols])
    {p : Nat → Nat → α} (reads : ∀ b < rows, ∀ c < cols, t.read [0, 0, b, c] = some (p b c))
    {targets : Expression Int} {target : Nat → Int}
    (put : targets.buffer = (List.range rows).map fun b => some (target b))
    (some_ : 0 < rows) (some_' : 0 < cols) :
    ∃ (classes sparse : Expression Int) (hit : Expression Bool) (masked : Expression α),
      (sequence type [1, 1, 1, cols]).reinterpret t.sizes (some [0, 0, 0, 1]) = some classes ∧
      targets.reinterpret t.sizes (some [0, 0, 1, 0]) = some sparse ∧
      sparse.map₂ (fun target c => decide (target = c)) classes = some hit ∧
      hit.select t (Expression.scalarTensor 0 t.sizes) = some masked ∧
      masked.sizes = [1, 1, rows, cols] ∧ ∀ b < rows, ∀ c < cols, masked.read [0, 0, b, c] =
        some (if target b = element type c then p b c else 0) := by
  have classBuffer := buffer_sequence type [1, 1, 1, cols]
  have classView : (sequence type [1, 1, 1, cols]).reinterpret t.sizes (some [0, 0, 0, 1]) =
      some ⟨t.sizes, some [0, 0, 0, 1], (sequence type [1, 1, 1, cols]).buffer⟩ := by
    refine Expression.reinterpret_eq_some.mpr ⟨rfl, ?_⟩
    simp only [Expression.extent, classBuffer, sizes]
    simp [DmlTensorDesc.lastElement]
    omega
  have targetView : targets.reinterpret t.sizes (some [0, 0, 1, 0]) =
      some ⟨t.sizes, some [0, 0, 1, 0], targets.buffer⟩ := by
    refine Expression.reinterpret_eq_some.mpr ⟨rfl, ?_⟩
    simp only [Expression.extent, put, sizes]
    simp [DmlTensorDesc.lastElement]
    omega
  obtain ⟨hit, isFound, foundSizes, readFound⟩ := @Expression.map₂_eq_some _ _ _
    (fun target c : Int => decide (target = c)) ⟨t.sizes, some [0, 0, 1, 0], targets.buffer⟩
    ⟨t.sizes, some [0, 0, 0, 1], (sequence type [1, 1, 1, cols]).buffer⟩ rfl
  refine ⟨_, _, hit, _, classView, targetView, isFound, if_pos ⟨foundSizes, rfl⟩,
    sizes, fun b row c col => ?_⟩
  have mem := rows_mem row col
  have readTarget : (⟨t.sizes, some [0, 0, 1, 0], targets.buffer⟩ : Expression Int).read
      [0, 0, b, c] = some (target b) := by
    rw [Expression.read, Expression.place]
    simp [address, put, row]
  have readClass : (⟨t.sizes, some [0, 0, 0, 1], (sequence type [1, 1, 1, cols]).buffer⟩ :
      Expression Int).read [0, 0, b, c] = some (element type c) := by
    rw [Expression.read, Expression.place]
    simp [address, classBuffer, col]
  rw [← sizes] at mem
  rw [Expression.read_ofIndices mem, readFound _ mem, readTarget,
    readClass, Expression.read_scalarTensor, reads b row c col]
  by_cases here : target b = element type c
  · simp [here]
  · simp [here]

theorem indices_vector (n : Nat) :
    indices [1, 1, 1, n] = (List.range n).map fun b => [0, 0, 0, b] := by
  have leading := indices_leading 3 [n]
  have single : indices [n] = (List.range n).map fun k => [k] := by
    rw [indices, map_eq_flatMap]
    rfl
  rw [show indices [1, 1, 1, n] = _ from leading, single, List.map_map]
  rfl

theorem graph_eq [AddCommMonoid α] [LinearOrder α] {type : IndexType} {t : Expression α}
    (sizes : t.sizes = [1, 1, rows, cols]) {p : Nat → Nat → α}
    (reads : ∀ b < rows, ∀ c < cols, t.read [0, 0, b, c] = some (p b c))
    {targets : Expression Int} (targetSizes : targets.sizes = [1, 1, 1, rows])
    {target : Nat → Int} (put : targets.buffer = (List.range rows).map fun b => some (target b))
    (readTargets : ∀ b < rows, targets.read [0, 0, 0, b] = some (target b))
    (some_ : 0 < rows) (pos : 0 < k) (most : k ≤ cols) :
    ∃ result, graph type t targets k cols = some result ∧
      result.buffer = (List.range rows).map fun b =>
        (sortedRow cols p b)[k - 1]?.map fun least => decide (0 ≤ target b) &&
          decide (target b < element type cols) && decide (least ≤ ((List.range cols).map fun c =>
            if target b = element type c then p b c else 0).sum) := by
  obtain ⟨topK, column, lowest, isTopK, isColumn, isLowest, lowestSizes, readLowest⟩ :=
    exists_lowest sizes reads some_ pos most
  obtain ⟨classes, sparse, matches_, masked, isClasses, isSparse, isMatches, isMasked, maskedSizes,
    readMasked⟩ := @exists_sparse α rows cols _ type t sizes p reads targets target put some_
      (lt_of_lt_of_le pos most)
  obtain ⟨sums, isSums, sumSizes, readSums⟩ := exists_sums maskedSizes readMasked some_
  obtain ⟨above, isAbove, aboveSizes, readAbove⟩ := @Expression.map₂_eq_some _ _ _
    (fun target zero : Int => decide (zero ≤ target)) targets
    (Expression.scalarTensor 0 targets.sizes) rfl
  obtain ⟨below, isBelow, belowSizes, readBelow⟩ := @Expression.map₂_eq_some _ _ _
    (fun target count : Int => decide (target < count)) targets
    (Expression.scalarTensor (element type cols) targets.sizes) rfl
  obtain ⟨inTop, isInTop, inTopSizes, readInTop⟩ := @Expression.map₂_eq_some _ _ _
    (fun prediction least : α => decide (least ≤ prediction)) sums lowest
    (sumSizes.trans lowestSizes.symm)
  obtain ⟨lt, isInRange, inRangeSizes, readInRange⟩ := @Expression.map₂_eq_some _ _ _ and
    above below (aboveSizes.trans belowSizes.symm)
  obtain ⟨got, isFound, foundSizes, readFound⟩ := @Expression.map₂_eq_some _ _ _ and
    lt inTop (by rw [inRangeSizes, aboveSizes, targetSizes, inTopSizes, sumSizes])
  obtain ⟨result, isResult, resultSizes, readResult⟩ := @Expression.map₂_eq_some _ _ _ and
    got (sums.map fun _ => true)
    (by rw [foundSizes, inRangeSizes, aboveSizes, targetSizes]; exact sumSizes.symm)
  refine ⟨result, ?_, ?_⟩
  · rw [graph, isTopK]
    simp only [bind_eq_bind, bind_some, isClasses, isSparse, isMatches, isMasked,
      targetSizes, isSums, isColumn, sumSizes, isLowest]
    rw [← targetSizes, isAbove, bind_some, isBelow, bind_some, isInTop,
      bind_some, isInRange, bind_some, isFound, bind_some, isResult]
  · have vector : got.sizes = [1, 1, 1, rows] := by
      rw [foundSizes, inRangeSizes, aboveSizes, targetSizes]
    rw [Expression.buffer_of_map₂ isResult, vector, indices_vector, List.map_map]
    refine map_congr_left fun b mem => ?_
    have row := mem_range.mp mem
    have here : [0, 0, 0, b] ∈ indices [1, 1, 1, rows] := rows_mem one_pos row
    have targetHere : [0, 0, 0, b] ∈ indices targets.sizes := by rwa [targetSizes]
    have sumHere : [0, 0, 0, b] ∈ indices sums.sizes := by rwa [sumSizes]
    have readInRangeHere : lt.read [0, 0, 0, b] =
        some (decide (0 ≤ target b) && decide (target b < element type cols)) := by
      rw [readInRange _ (by rwa [aboveSizes]), readAbove _ targetHere, readBelow _ targetHere,
        readTargets b row, Expression.read_scalarTensor, Expression.read_scalarTensor]
      rfl
    rw [Function.comp, readResult _ (by rwa [vector]), Expression.read_map sumHere,
      readFound _ (by rwa [inRangeSizes, aboveSizes]), readInTop _ sumHere, readInRangeHere,
      readSums b row, readLowest b row]
    cases (sortedRow cols p b)[k - 1]? with
    | none => rfl
    | some least => simp

end Graph

namespace Call

variable {α : Type} {call : Call α}

theorem shapes : call.kShape = [] ∧ call.predictions = [call.batch, call.classes] ∧
    call.targets = [call.batch] := by
  have ok := call.accepted
  simp only [Arguments.initHelper, bind_eq_ok, opRequires_eq_ok, beq_iff_eq, TensorShape.isScalar,
    List.isEmpty_iff] at ok
  obtain ⟨⟨⟩, scalar, ⟨⟩, matrix, ⟨⟩, vector, ⟨⟩, same, -⟩ := ok
  obtain ⟨batch, classes, isMatrix⟩ := length_eq_two.mp matrix
  obtain ⟨count, isVector⟩ := length_eq_one_iff.mp vector
  rw [isMatrix, isVector] at same
  refine ⟨scalar, ?_, ?_⟩
  · rw [Arguments.batch, Arguments.classes, isMatrix]
    rfl
  · rw [Arguments.batch, isVector, isMatrix]
    exact congrArg (fun n => [n]) same.symm

theorem length_values : call.values.length = call.batch * call.classes := by
  rw [call.sizedPredictions, shapes.2.1]
  simp [TensorShape.numElements]

theorem length_targets : call.targetValues.length = call.batch := by
  rw [call.sizedTargets, shapes.2.2]
  simp [TensorShape.numElements]

theorem positive : 0 < call.batch ∧ 0 < call.classes := by
  have some_ := call.nonempty
  rw [← call.sizedPredictions, length_values, mul_ne_zero_iff] at some_
  exact ⟨Nat.pos_of_ne_zero some_.1, Nat.pos_of_ne_zero some_.2⟩

theorem create_matrix {desc : DmlTensorDesc} :
    create [call.batch, call.classes] [call.batch, call.classes] = some desc ↔
      (call.batch < 2 ^ 32 ∧ call.classes < 2 ^ 32) ∧
        desc = ⟨[1, 1, call.batch, call.classes], [0, 0, call.classes % 2 ^ 32, 1]⟩ := by
  rw [DmlTensorDesc.create_self_eq_some]
  constructor
  · rintro ⟨describable, rfl⟩
    refine ⟨⟨describable.dims _ (by simp), describable.dims _ (by simp)⟩, ?_⟩
    simp [DmlTensorDesc.kNchwDimensionCount, packedStrides]
  · rintro ⟨lt, rfl⟩
    refine ⟨⟨Nat.le_of_ble_eq_true rfl, by simpa using lt⟩, ?_⟩
    simp [DmlTensorDesc.kNchwDimensionCount, packedStrides]

theorem create_vector (lt : call.batch < 2 ^ 32) :
    create [call.batch] [call.batch] = some ⟨[1, 1, 1, call.batch], [0, 0, 0, 1]⟩ := by
  refine DmlTensorDesc.create_self_eq_some.mpr
    ⟨⟨Nat.le_of_ble_eq_true rfl, by simpa using lt⟩, ?_⟩
  simp [DmlTensorDesc.kNchwDimensionCount, packedStrides]

theorem element_le (type : IndexType) {n : Nat} (lt : n < 2 ^ 32) : element type n ≤ n := by
  cases type with
  | int64 => exact le_refl _
  | int32 =>
    rw [element, i32, Int.bmod]
    split <;> omega

theorem stored_targets :
    call.targetValues.map some = (List.range call.batch).map fun b => some (call.target b) := by
  conv_lhs => rw [← map_getD_range call.targetValues 0, List.map_map, length_targets]
  rfl

theorem read_targets : ∀ b < call.batch,
    (⟨[1, 1, 1, call.batch], some [0, 0, 0, 1], call.targetValues.map some⟩ :
      Expression Int).read [0, 0, 0, b] = some (call.target b) := by
  intro b row
  have inside : b < call.targetValues.length := by rwa [length_targets]
  rw [Expression.read_values, Arguments.target, getD_eq_getElem?_getD]
  simp [address, getElem?_eq_getElem inside]

theorem i32_k (type : call.type = .int32) : i32 call.k = call.k := by
  have fits := call.fitsK
  rw [type, Fits, IndexType.max] at fits
  exact i32_of_bounds (by omega) (by omega)

variable [AddCommMonoid α]

theorem length_row (b : Nat) : (call.row b).length = call.classes := by
  rw [Arguments.row, length_map, length_range]

theorem read_predictions (lt : call.classes < 2 ^ 32) : ∀ b < call.batch, ∀ c < call.classes,
      (⟨[1, 1, call.batch, call.classes], some [0, 0, call.classes % 2 ^ 32, 1],
        call.values.map some⟩ : Expression α).read [0, 0, b, c] =
          some (call.values.getD (b * call.classes + c) 0) := by
  intro b row c col
  have inside : b * call.classes + c < call.values.length := by
    have rows : (b + 1) * call.classes ≤ call.batch * call.classes := Nat.mul_le_mul_right _ row
    rw [Nat.succ_mul] at rows
    rw [length_values]
    omega
  have place : address [0, 0, call.classes % 2 ^ 32, 1] [0, 0, b, c] = b * call.classes + c := by
    rw [Nat.mod_eq_of_lt lt]
    simp [address]
  rw [Expression.read_values, place, getElem?_eq_getElem inside, getD_eq_getElem?_getD,
    getElem?_eq_getElem inside, getD_some]

variable {b : Nat}

theorem sum_target (row : b < call.batch) (narrow : call.classes < 2 ^ 32)
    (inRange : call.InRange b) :
    ((List.range call.classes).map fun c => if call.target b = element call.type c then
      call.values.getD (b * call.classes + c) 0 else 0).sum =
        call.values.getD (b * call.classes + (call.target b).toNat) 0 := by
  obtain ⟨nat, below⟩ := inRange
  have fits : Fits call.type (call.target b) := by
    have lt : b < call.targetValues.length := by rwa [length_targets]
    rw [Arguments.target, getD_eq_getElem?_getD, getElem?_eq_getElem lt]
    exact call.fitsTargets _ (getElem_mem lt)
  generalize call.target b = target at nat below fits ⊢
  obtain ⟨t, rfl⟩ := Int.eq_ofNat_of_zero_le nat
  have less : t < call.classes := by omega
  have masked : ((List.range call.classes).map fun c => if (t : Int) = element call.type c then
      call.values.getD (b * call.classes + c) 0 else 0) =
      (List.range call.classes).map fun c => if c = t then
        call.values.getD (b * call.classes + c) 0 else 0 := by
    refine map_congr_left fun c mem => ?_
    have small := lt_trans (mem_range.mp mem) narrow
    exact if_congr (element_eq_iff fits small) rfl rfl
  rw [masked, sum_masked call.classes t fun c => call.values.getD (b * call.classes + c) 0,
    if_pos less, Int.toNat_natCast]

variable [LinearOrder α]

theorem compute_eq : call.compute = (call.kernel call.k).map .ok := by
  obtain ⟨scalar, matrix, vector⟩ := @shapes α call
  obtain ⟨rows, cols⟩ := @positive α call
  have runs : NoOpKernel.isNoOpKernel [call.predictions, call.targets, call.kShape]
      [call.targets] = false := by
    rw [Bool.eq_false_iff, ne_eq, NoOpKernel.isNoOpKernel_iff, scalar, matrix, vector]
    simp [TensorShape.numElements, rows.ne, cols.ne]
  rw [Arguments.compute, call.accepted]
  simp only [runs, Bool.false_eq_true, if_false]
  cases call.kernel call.k with
  | none => rfl
  | some output => rfl

/-- The narrowed `k`, and the number of classes as an element of the type of the targets. -/
def answer (call : Call α) (b : Nat) : Bool :=
  decide (0 ≤ call.target b) && decide (call.target b < element call.type call.classes) &&
    decide ((call.greater b : Int) < i32 call.k)

theorem greater_lt (lt : call.InRange b) : call.greater b < call.classes := by
  refine Nat.lt_of_le_of_ne (@length_row α call _ b ▸ countP_le_length) fun all => ?_
  rw [← length_row b, Arguments.greater, countP_eq_length] at all
  obtain ⟨nat, below⟩ := lt
  have mem : call.values.getD (b * call.classes + (call.target b).toNat) 0 ∈ call.row b :=
    List.mem_map.mpr ⟨(call.target b).toNat, mem_range.mpr (by omega), rfl⟩
  simpa using all _ mem

theorem least_le_iff {kept : Nat} (k : (kept : Int) = min (i32 call.k) call.classes)
    (pos : 0 < kept) (lt : kept - 1 < (sortedRow call.classes
      (fun b c => call.values.getD (b * call.classes + c) 0) b).length) (inRange : call.InRange b) :
    (sortedRow call.classes (fun b c => call.values.getD (b * call.classes + c) 0) b)[kept - 1] ≤
        call.values.getD (b * call.classes + (call.target b).toNat) 0 ↔
      (call.greater b : Int) < i32 call.k := by
  have counted := kth_le_iff (x := call.values.getD (b * call.classes + (call.target b).toNat) 0)
    lt
  have fewer := greater_lt inRange
  refine counted.trans ?_
  have same : (call.row b).countP (fun y => decide
      (call.values.getD (b * call.classes + (call.target b).toNat) 0 < y)) = call.greater b := rfl
  rw [show ((List.range call.classes).map fun c => call.values.getD (b * call.classes + c) 0) =
    call.row b from rfl, same]
  omega

theorem kernel_eq (narrow : call.batch < 2 ^ 32 ∧ call.classes < 2 ^ 32) :
    call.kernel call.k = some ((List.range call.batch).map fun b => some (call.answer b)) := by
  obtain ⟨-, matrix, vector⟩ := @shapes α call
  obtain ⟨rows, cols⟩ := @positive α call
  have count : TensorShape.numElements [call.batch] = call.batch := by
    simp [TensorShape.numElements]
  rw [Arguments.kernel, matrix, vector, create_matrix.mpr ⟨narrow, rfl⟩, create_vector narrow.1]
  simp only [bind_eq_bind, bind_some, count]
  by_cases none : min (getK call.k) (call.classes : Int) < 1
  · rw [if_pos none]
    have nonpositive : i32 call.k ≤ 0 := by
      rw [getK] at none
      omega
    refine congrArg some (ext_getElem (by simp) fun b first snd => ?_)
    have below : ¬(call.greater b : Int) < i32 call.k := by omega
    simp [answer, below]
  · rw [if_neg none]
    have k : ((min (getK call.k) (call.classes : Int)).toNat : Int) =
        min (i32 call.k) call.classes := by
      rw [getK] at none ⊢
      omega
    have pos : 0 < (min (getK call.k) (call.classes : Int)).toNat := by omega
    generalize (min (getK call.k) (call.classes : Int)).toNat = kept at k pos ⊢
    have most : kept ≤ call.classes := by omega
    obtain ⟨result, eq, buffer⟩ := @graph_eq α call.batch call.classes kept _ _ call.type
      ⟨[1, 1, call.batch, call.classes], some [0, 0, call.classes % 2 ^ 32, 1],
        call.values.map some⟩ rfl _ (read_predictions narrow.2)
      ⟨[1, 1, 1, call.batch], some [0, 0, 0, 1], call.targetValues.map some⟩ rfl
      call.target stored_targets read_targets rows pos most
    rw [eq, bind_some, buffer]
    refine congrArg some (map_congr_left fun b mem => ?_)
    have row := mem_range.mp mem
    have lt : kept - 1 < (sortedRow call.classes
        (fun b c => call.values.getD (b * call.classes + c) 0) b).length := by
      rw [sortedRow, length_mergeSort, length_map, length_range]
      omega
    rw [getElem?_eq_getElem lt, map_some, answer, Option.some.injEq]
    by_cases inRange : 0 ≤ call.target b ∧ call.target b < element call.type call.classes
    · have below := element_le call.type narrow.2
      have isClass : call.InRange b := ⟨inRange.1, by omega⟩
      rw [sum_target row narrow.2 isClass, decide_eq_decide.mpr (least_le_iff k pos lt isClass)]
    · rw [← Bool.decide_and, decide_eq_false inRange, Bool.false_and, Bool.false_and]

theorem kernel_eq_none (wide : ¬(call.batch < 2 ^ 32 ∧ call.classes < 2 ^ 32)) :
    call.kernel call.k = none := by
  have refused : create call.predictions call.predictions = none := by
    rw [shapes.2.1, eq_none_iff_forall_ne_some]
    exact fun desc made => wide (create_matrix.mp made).1
  rw [Arguments.kernel, refused]
  rfl

theorem correct_iff_answers : call.Correct ↔ (call.batch < 2 ^ 32 ∧ call.classes < 2 ^ 32) ∧
    ∀ b < call.batch,
      call.answer b = decide (call.InRange b ∧ (call.greater b : Int) < call.k) := by
  rw [Correct, compute_eq]
  by_cases lt : call.batch < 2 ^ 32 ∧ call.classes < 2 ^ 32
  · rw [kernel_eq lt, map_some, Option.some.injEq, Except.ok.injEq, Arguments.reference,
      List.map_map, map_inj_left, and_iff_right lt]
    simp only [Function.comp, Option.some.injEq, mem_range]
  · rw [kernel_eq_none lt]
    exact iff_of_false (nomatch ·) fun both => lt both.1

theorem answer_iff (lt : call.classes < 2 ^ 32) {b : Nat} :
    call.answer b = true ↔ call.InRange b ∧ (call.type = .int32 → call.classes < 2 ^ 31) ∧
      (call.greater b : Int) < i32 call.k := by
  rw [answer, Bool.and_eq_true, Bool.and_eq_true, decide_eq_true_eq, decide_eq_true_eq,
    decide_eq_true_eq, Arguments.InRange, and_assoc, and_assoc]
  refine and_congr_right fun nat => ?_
  rw [← and_assoc]
  refine and_congr_left fun _ => ?_
  cases call.type with
  | int64 => simp [element]
  | int32 =>
    by_cases small : call.classes < 2 ^ 31
    · rw [element, i32_of_bounds (by omega) (by omega)]
      exact (and_iff_left fun _ => small).symm
    · have neg : i32 call.classes = call.classes - 2 ^ 32 := by
        rw [i32, Int.bmod]
        split <;> omega
      rw [element, neg]
      simp only [forall_const, small, and_false, iff_false]
      omega

/-- Each answer is that of the counting definition if and only if the sizes have 32 bits, there are
    less than 2^31 classes for targets of 32 bits or no target is to be found, and no count is
    between `k` and what is left of it in 32 bits. -/
theorem inTopK_iff (call : Call α) : call.Correct ↔ call.Supported := by
  rw [correct_iff_answers]
  constructor
  · rintro ⟨lt, same⟩
    refine ⟨lt, fun type many b row inRange => ?_, fun b row inRange => ?_⟩
    · have expected := @answer_iff α call _ _ lt.2 b
      rw [same b row, decide_eq_true_eq] at expected
      by_contra less
      have small := (expected.mp ⟨inRange, by omega⟩).2.1 type
      omega
    · have expected := @answer_iff α call _ _ lt.2 b
      rw [same b row, decide_eq_true_eq, and_iff_right inRange, and_iff_right inRange] at expected
      cases type : call.type with
      | int32 =>
        rw [i32_k type]
        omega
      | int64 =>
        simp only [type, reduceCtorEq, false_implies, true_and] at expected
        omega
  · rintro ⟨lt, classes, truncated⟩
    refine ⟨lt, fun b row => Bool.eq_iff_iff.mpr ?_⟩
    rw [answer_iff lt.2, decide_eq_true_eq]
    refine and_congr_right fun inRange => ?_
    have kept := truncated b row inRange
    by_cases many : call.type = .int32 ∧ 2 ^ 31 ≤ call.classes
    · have none := classes many.1 many.2 b row inRange
      refine iff_of_false (fun both => ?_) (by omega)
      have small := both.1 many.1
      omega
    · rw [and_iff_right fun type => by
        by_contra large
        exact many ⟨type, by omega⟩]
      omega

def truncatedK : Call Int where
  type := .int64
  predictions := [1, 1]
  targets := [1]
  kShape := []
  values := [0]
  targetValues := [0]
  k := 2 ^ 32
  sizedPredictions := rfl
  sizedTargets := rfl
  fitsTargets := by simp [Fits, GatherNd.IndexType.max]
  fitsK := by simp [Fits, GatherNd.IndexType.max]
  accepted := rfl
  nonempty := by decide

theorem truncatedK_not_correct : ¬truncatedK.Correct := by
  rw [correct_iff_answers]
  rintro ⟨-, same⟩
  exact absurd (same 0 (by decide)) (by decide +kernel)

end Call

end TfDml.InTopK
