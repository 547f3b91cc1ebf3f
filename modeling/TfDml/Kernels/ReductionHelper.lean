import TfDml.Kernels.RangeOp
import TfDml.Lib.MarkOnce
import TfDml.Lib.Reduction

/-! # The collapsed shape of a reduction

Neighbouring dimensions that are both reduced or both kept become one, so that the dimensions of
the collapsed shape are reduced in turn. A dimension of size one belongs to the run before it.
-/

namespace TfDml.Reduce

open Lib List
open RangeOp (i64 i64_of_bounds)

def invalidDimension (index : Int) (dims : Nat) : Status :=
  .invalidArgument s!"Invalid reduction dimension ({index} for input with {dims} dimension(s)"

def duplicateDimension (index : Int) : Status :=
  .invalidArgument
    s!"Invalid reduction arguments: Axes contains duplicate dimension: {index}"

def wrapIndex (dims : Nat) (index : Int) : Int := (index + dims).tmod dims

/-- The loop of `SimplifyHelper`, for an axis. What passes the check is in the range of either
    `Tperm`. -/
def markAxis (dims : Nat) (bitmap : List Bool) (index : Int) : Except Status (List Bool) := do
  opRequires (!(index < -dims || dims ≤ index)) (invalidDimension index dims)
  let index := wrapIndex dims index
  opRequires (!bitmap.getD index.toNat false) (duplicateDimension index)
  return bitmap.set index.toNat true

def simplifyHelper (dims : Nat) (axes : List Int) : Except Status (List Bool) :=
  axes.foldlM (markAxis dims) (List.replicate dims false)

structure ReductionHelper where
  reduceFirstAxis : Bool
  dataReshape : List Int
  outShape : List Int
  outReshape : List Int
  deriving DecidableEq

/-- The output's sizes, for the dimensions with their entries of the bitmap. -/
def outShapeOf (keepDims : Bool) (dims : List ReduceDim) : List Int :=
  dims.filterMap fun d =>
    if !d.reduced then some (d.size : Int) else if keepDims then some 1 else none

def grouped (previous : Bool) (d : ReduceDim) : Bool := if d.size = 1 then previous else d.reduced

/-- The loop over the dimensions after the first: `run` is the last entry of the shape, and
    `previous` the bitmap's entry of the dimension before. -/
def collapse (run : Int) (previous : Bool) : List ReduceDim → List Int
  | [] => [run]
  | d :: rest =>
    let reduced := grouped previous d
    if previous ≠ reduced then run :: collapse d.size reduced rest
    else collapse (i64 (run * d.size)) reduced rest

def everyOther {α : Type*} : List α → List α
  | a :: _ :: rest => a :: everyOther rest
  | l => l

def simplify (shape : TensorShape) (axes : List Int) (keepDims : Bool) :
    Except Status ReductionHelper := do
  let bitmap ← simplifyHelper shape.length axes
  let dims := List.zipWith ReduceDim.mk shape bitmap
  let outShape := outShapeOf keepDims dims
  match dims.dropWhile fun d => d.size == 1 with
  | [] => return ⟨true, [], outShape, []⟩
  | first :: rest =>
    let dataReshape := collapse first.size first.reduced rest
    return ⟨first.reduced, dataReshape, outShape,
      everyOther (dataReshape.drop (if first.reduced then 1 else 0))⟩

namespace ReductionHelper

def ndims (helper : ReductionHelper) : Nat := helper.dataReshape.length

def reduceAxisOffset (helper : ReductionHelper) : Nat :=
  if DmlTensorDesc.kNchwDimensionCount ≤ helper.ndims then 0
  else DmlTensorDesc.kNchwDimensionCount - helper.ndims

def firstReduceAxis (helper : ReductionHelper) : Nat := if helper.reduceFirstAxis then 0 else 1

def reduceAxes (helper : ReductionHelper) : List Nat :=
  (List.range' helper.firstReduceAxis
    ((helper.ndims + 1 - helper.firstReduceAxis) / 2) 2).map (· + helper.reduceAxisOffset)

def outputShape (helper : ReductionHelper) : List Int :=
  helper.dataReshape.zipIdx.map fun entry =>
    if 0 < helper.reduceAxes.count (entry.2 + helper.reduceAxisOffset) then 1 else entry.1

def inputSizes (helper : ReductionHelper) : List Nat :=
  List.replicate helper.reduceAxisOffset 1 ++ helper.dataReshape.map Int.toNat

end ReductionHelper

/-- `DML_OPERATOR_REDUCE` reduces the dimensions that its axes list. -/
def dmlReduceDims (sizes axes : List Nat) : List ReduceDim :=
  sizes.zipIdx.map fun entry => ⟨entry.1, axes.contains entry.2⟩

def alternating (reduced : Bool) : List Nat → List ReduceDim
  | [] => []
  | size :: rest => ⟨size, reduced⟩ :: alternating (!reduced) rest

theorem dimSizes_alternating (reduced : Bool) (sizes : List Nat) :
    dimSizes (alternating reduced sizes) = sizes := by
  induction sizes generalizing reduced with
  | nil => rfl
  | cons size rest ih =>
    rw [alternating, dimSizes, map_cons]
    exact congrArg (size :: ·) (ih (!reduced))

theorem keptSizes_alternating (reduced : Bool) (sizes : List Nat) :
    keptSizes (alternating reduced sizes) = everyOther (sizes.drop (if reduced then 1 else 0)) := by
  induction sizes generalizing reduced with
  | nil => cases reduced <;> rfl
  | cons size rest ih =>
    cases reduced with
    | true => exact ih false
    | false =>
      refine (congrArg (size :: ·) (ih true)).trans ?_
      cases rest <;> rfl

def runs (run : Nat) (previous : Bool) : List ReduceDim → List Nat
  | [] => [run]
  | d :: rest =>
    let reduced := grouped previous d
    if previous ≠ reduced then run :: runs d.size reduced rest
    else runs (run * d.size) reduced rest

theorem sameReduction_grouped (d : ReduceDim) (prev : Bool) (rest : List ReduceDim) :
    SameReduction (⟨d.size, grouped prev d⟩ :: rest) (d :: rest) := by
  rw [grouped]
  split
  case isTrue single =>
    obtain ⟨size, reduced⟩ := d
    obtain rfl : size = 1 := single
    exact (SameReduction.single _ rest).trans (SameReduction.single _ rest).symm
  case isFalse => exact .refl _

theorem sameReduction_runs (run : Nat) (prev : Bool) (dims : List ReduceDim) :
    SameReduction (alternating prev (runs run prev dims)) (⟨run, prev⟩ :: dims) := by
  induction dims generalizing run prev with
  | nil => exact .refl _
  | cons d rest ih =>
    have kind := sameReduction_grouped d prev rest
    rw [runs]
    split
    case isTrue starts =>
      have flipped : (!prev) = grouped prev d := Bool.not_eq.mpr starts
      rw [alternating.eq_2, flipped]
      exact .cons _ ((ih d.size _).trans kind)
    case isFalse continues =>
      have same : prev = grouped prev d := not_not.mp continues
      have merged := SameReduction.merge run d.size prev rest
      rw [← same] at kind ⊢
      exact (ih (run * d.size) prev).trans (merged.symm.trans (.cons _ kind))

end TfDml.Reduce

namespace TfDml.Reduce

open Lib List
open RangeOp (i64 i64_of_bounds)

variable {index : Int}

theorem wrapIndex_eq {dims : Nat} (above : -dims ≤ index) (below : index < dims) :
    wrapIndex dims index = if 0 ≤ index then index else index + dims := by
  rw [wrapIndex]
  split
  case isTrue nat =>
    rw [Int.tmod_eq_emod_of_nonneg (by omega), Int.add_emod_right, Int.emod_eq_of_lt nat below]
  case isFalse neg =>
    rw [Int.tmod_eq_emod_of_nonneg (by omega), Int.emod_eq_of_lt (by omega) (by omega)]

def dimensionOf (dims : Nat) (index : Int) : Nat := (wrapIndex dims index).toNat

theorem dimensionOf_lt {dims : Nat} (above : -dims ≤ index) (below : index < dims) :
    dimensionOf dims index < dims := by
  rw [dimensionOf, wrapIndex_eq above below]
  split <;> omega

theorem dimensionOf_eq_iff {dims d : Nat} (above : -dims ≤ index) (below : index < dims)
    (lt : d < dims) : dimensionOf dims index = d ↔ index = d ∨ index + dims = d := by
  rw [dimensionOf, wrapIndex_eq above below]
  split <;> omega

theorem markAxis_eq {dims : Nat} (bitmap : List Bool) (above : -dims ≤ index)
    (below : index < dims) : markAxis dims bitmap index =
      if bitmap.getD (dimensionOf dims index) false
      then .error (duplicateDimension (wrapIndex dims index))
      else .ok (bitmap.set (dimensionOf dims index) true) := by
  have lt : (!(decide (index < -dims) || decide ((dims : Int) ≤ index))) = true := by
    simp [above, below]
  split
  case isTrue marked =>
    rw [dimensionOf] at marked
    simp only [markAxis, lt, marked]
    rfl
  case isFalse fresh =>
    rw [dimensionOf, Bool.not_eq_true] at fresh
    simp only [markAxis, lt, fresh]
    rfl

theorem markAxis_marksOnce (dims : Nat) :
    MarksOnce (markAxis dims) (fun bitmap => bitmap.length = dims)
      (fun bitmap d => bitmap.getD d false) (dimensionOf dims)
      (fun index => -dims ≤ index ∧ index < dims) (fun index => -dims ≤ index ∧ index < dims)
      (fun status => ∃ index, status = duplicateDimension index) dims where
  inside := fun _ bounds => dimensionOf_lt bounds.1 bounds.2
  marks := by
    intro bitmap index length bounds fresh
    have marked := markAxis_eq bitmap bounds.1 bounds.2
    rw [fresh, if_neg Bool.false_ne_true] at marked
    refine ⟨_, marked, by rw [length_set, length], fun d inside => ?_⟩
    rw [getD_eq_getElem?_getD, getD_eq_getElem?_getD, getElem?_set]
    by_cases same : dimensionOf dims index = d
    · simp [same, length, inside]
    · simp [same, Ne.symm same]
  fails := by
    intro bitmap index _ bounds taken
    have marked := markAxis_eq bitmap bounds.1 bounds.2
    rw [if_pos (Bool.not_eq_false _ |>.mp fun fresh => taken ⟨bounds, fresh⟩)] at marked
    exact ⟨_, ⟨_, rfl⟩, marked⟩

/-- A run of 64 bits is the exact one, if that fits. -/
def Holds (exact : Nat) (run : Int) : Prop := exact < 2 ^ 63 → run = exact

variable {exact : Nat} {run : Int}

theorem holds_mul {size : Nat} (holds : Holds exact run) :
    Holds (exact * size) (i64 (run * size)) := by
  intro lt
  rcases Nat.eq_zero_or_pos size with rfl | pos
  · rw [Nat.cast_zero, Int.mul_zero, mul_zero]
    rfl
  · have below := (Nat.le_mul_of_pos_right exact pos).trans_lt lt
    rw [holds below, ← Nat.cast_mul]
    exact i64_of_bounds (by omega) (by exact_mod_cast lt)

theorem forall₂_collapse (holds : Holds exact run) (prev : Bool) (dims : List ReduceDim) :
    List.Forall₂ Holds (runs exact prev dims) (collapse run prev dims) := by
  induction dims generalizing exact run prev with
  | nil => exact .cons holds .nil
  | cons d rest ih =>
    rw [runs, collapse]
    split
    case isTrue => exact .cons holds (ih (fun _ => rfl) _)
    case isFalse => exact ih (holds_mul holds) _

variable {sizes : List Int}

theorem prod_of_forall₂ {exact : List Nat} (holds : List.Forall₂ Holds exact sizes)
    (lt : exact.prod < 2 ^ 63) : (sizes.map Int.toNat).prod = exact.prod ∧
      (exact.prod ≠ 0 → sizes.map Int.toNat = exact) := by
  by_cases empty : exact.prod = 0
  · refine ⟨?_, fun ne => absurd empty ne⟩
    have zero : (0 : Nat) ∈ exact := prod_eq_zero_iff.mp empty
    have got : (0 : Nat) ∈ sizes.map Int.toNat := by
      clear empty lt
      induction holds with
      | nil => exact zero
      | cons first _ ih =>
        rcases mem_cons.mp zero with rfl | later
        · rw [first (by decide)]
          exact mem_cons_self
        · exact mem_cons_of_mem _ (ih later)
    rw [empty, prod_eq_zero_iff]
    exact got
  · have same : sizes.map Int.toNat = exact := by
      induction holds with
      | nil => rfl
      | @cons size run exact sizes first _ ih =>
        rw [prod_cons] at lt empty
        obtain ⟨own, others⟩ := Nat.mul_ne_zero_iff.mp empty
        have below := (Nat.le_mul_of_pos_right size (Nat.pos_of_ne_zero others)).trans_lt lt
        have below' := (Nat.le_mul_of_pos_left exact.prod
          (Nat.pos_of_ne_zero own)).trans_lt lt
        rw [map_cons, first below, Int.toNat_natCast, ih below' others]
    exact ⟨congrArg List.prod same, fun _ => same⟩

variable {α β : Type*}

theorem forall₂_everyOther {R : α → β → Prop} {l : List α} {l' : List β}
    (related : List.Forall₂ R l l') : List.Forall₂ R (everyOther l) (everyOther l') := by
  induction l using everyOther.induct generalizing l' with
  | case1 a b rest ih =>
    obtain _ | ⟨first, _ | ⟨_, related⟩⟩ := related
    exact .cons first (ih related)
  | case2 l short =>
    obtain _ | ⟨first, _ | ⟨snd, related⟩⟩ := related
    · exact .nil
    · exact .cons first .nil
    · exact absurd rfl (short _ _ _)

theorem map_everyOther (f : α → β) (l : List α) : (everyOther l).map f = everyOther (l.map f) := by
  induction l using everyOther.induct with
  | case1 a b rest ih => exact congrArg (f a :: ·) ih
  | case2 l short =>
    match l, short with
    | [], _ => rfl
    | [_], _ => rfl
    | a :: b :: rest, short => exact absurd rfl (short a b rest)

variable {reduced : Bool}

theorem sameReduction_of_holds {exact : List Nat} (holds : List.Forall₂ Holds exact sizes)
    (lt : exact.prod < 2 ^ 63)
    (smallKept : (keptSizes (alternating reduced exact)).prod < 2 ^ 63) :
    SameReduction (alternating reduced (sizes.map Int.toNat)) (alternating reduced exact) := by
  obtain ⟨total, same⟩ := prod_of_forall₂ holds lt
  have sameTotal : (dimSizes (alternating reduced (sizes.map Int.toNat))).prod =
      (dimSizes (alternating reduced exact)).prod := by
    rw [dimSizes_alternating, dimSizes_alternating, total]
  refine ⟨sameTotal, ?_⟩
  by_cases empty : exact.prod = 0
  · have kept : (keptSizes (alternating reduced (sizes.map Int.toNat))).prod =
        (keptSizes (alternating reduced exact)).prod := by
      rw [keptSizes_alternating] at smallKept ⊢
      rw [keptSizes_alternating, ← map_drop, ← map_everyOther]
      exact (prod_of_forall₂ (forall₂_everyOther (forall₂_drop _ holds)) smallKept).1
    rw [groups_of_empty (by rw [dimSizes_alternating, total, empty]),
      groups_of_empty (by rw [dimSizes_alternating, empty]), kept]
  · rw [same empty]

theorem zipIdx_eq_alternating {sizes axes : List Nat} {start : Nat} (listed : ∀ i < sizes.length,
      axes.contains (start + i) = if i % 2 = 0 then reduced else !reduced) :
    (sizes.zipIdx start).map (fun entry => ReduceDim.mk entry.1 (axes.contains entry.2)) =
      alternating reduced sizes := by
  induction sizes generalizing reduced start with
  | nil => rfl
  | cons size rest ih =>
    have first := listed 0 (Nat.zero_lt_succ _)
    rw [add_zero, if_pos rfl] at first
    rw [zipIdx_cons, map_cons, alternating.eq_2, first]
    refine congrArg (_ :: ·) (ih fun i lt => ?_)
    have next := listed (i + 1) (Nat.succ_lt_succ lt)
    rw [add_assoc, add_comm 1 i, next]
    rcases Nat.mod_two_eq_zero_or_one i with even | odd
    · rw [if_pos even, if_neg (by omega)]
    · rw [if_pos (by omega), if_neg (by omega), Bool.not_not]

namespace ReductionHelper

/-- The collapsed shape, whose dimensions are reduced in turn. -/
def alternatingDims (helper : ReductionHelper) : List ReduceDim :=
  alternating helper.reduceFirstAxis (helper.dataReshape.map Int.toNat)

theorem contains_reduceAxes (helper : ReductionHelper) {i : Nat} (lt : i < helper.ndims) :
    helper.reduceAxes.contains (helper.reduceAxisOffset + i) =
      if i % 2 = 0 then helper.reduceFirstAxis else !helper.reduceFirstAxis := by
  have listed : helper.reduceAxisOffset + i ∈ helper.reduceAxes ↔
      ∃ k < (helper.ndims + 1 - helper.firstReduceAxis) / 2,
        i = helper.firstReduceAxis + 2 * k := by
    rw [reduceAxes, List.mem_map]
    constructor
    · rintro ⟨axis, mem, same⟩
      obtain ⟨k, less, rfl⟩ := mem_range'.mp mem
      exact ⟨k, less, by omega⟩
    · rintro ⟨k, less, same⟩
      exact ⟨i, mem_range'.mpr ⟨k, less, same⟩, add_comm _ _⟩
  have parity : helper.reduceAxisOffset + i ∈ helper.reduceAxes ↔
      i % 2 = helper.firstReduceAxis := by
    have small : helper.firstReduceAxis ≤ 1 := by
      rw [firstReduceAxis]
      split <;> decide
    rw [listed]
    constructor
    · rintro ⟨k, less, same⟩
      omega
    · intro same
      exact ⟨i / 2, by omega, by omega⟩
  rw [Bool.eq_iff_iff, contains_iff_mem, parity, firstReduceAxis]
  cases helper.reduceFirstAxis <;> rcases Nat.mod_two_eq_zero_or_one i with even | odd <;>
    simp_all

theorem dmlReduceDims_eq (helper : ReductionHelper) :
    dmlReduceDims helper.inputSizes helper.reduceAxes =
      List.replicate helper.reduceAxisOffset ⟨1, false⟩ ++ helper.alternatingDims := by
  have leading : ∀ d < helper.reduceAxisOffset, helper.reduceAxes.contains d = false := by
    intro d less
    rw [Bool.eq_false_iff, Ne, contains_iff_mem]
    intro mem
    obtain ⟨axis, -, same⟩ := List.mem_map.mp mem
    omega
  have first : ((List.replicate helper.reduceAxisOffset 1).zipIdx).map
      (fun entry => ReduceDim.mk entry.1 (helper.reduceAxes.contains entry.2)) =
      List.replicate helper.reduceAxisOffset ⟨1, false⟩ := by
    rw [eq_replicate_iff]
    refine ⟨by simp, fun d mem => ?_⟩
    obtain ⟨entry, got, rfl⟩ := List.mem_map.mp mem
    obtain ⟨-, less, at_⟩ := mem_zipIdx got
    rw [zero_add, length_replicate] at less
    rw [leading entry.2 less, at_, getElem_replicate]
  have later : ((helper.dataReshape.map Int.toNat).zipIdx helper.reduceAxisOffset).map
      (fun entry => ReduceDim.mk entry.1 (helper.reduceAxes.contains entry.2)) =
      helper.alternatingDims :=
    zipIdx_eq_alternating fun i lt => helper.contains_reduceAxes (by simpa [ndims] using lt)
  rw [dmlReduceDims, inputSizes, zipIdx_append, map_append, length_replicate,
    zero_add, first, later]

theorem prod_outputShape (helper : ReductionHelper) :
    (helper.outputShape.map Int.toNat).prod = (keptSizes helper.alternatingDims).prod := by
  have sizes : ∀ (reduced : Bool) (shape : List Int) (start : Nat),
      (∀ i < shape.length, helper.reduceAxes.contains (start + i + helper.reduceAxisOffset) =
        if i % 2 = 0 then reduced else !reduced) → (((shape.zipIdx start).map fun entry =>
          if 0 < helper.reduceAxes.count (entry.2 + helper.reduceAxisOffset) then 1
          else entry.1).map Int.toNat).prod =
        (keptSizes (alternating reduced (shape.map Int.toNat))).prod := by
    intro reduced shape
    induction shape generalizing reduced with
    | nil => exact fun _ _ => rfl
    | cons size rest ih =>
      intro start listed
      have first := listed 0 (Nat.zero_lt_succ _)
      have later := ih (!reduced) (start + 1) fun i lt => by
        rw [add_assoc start, add_comm 1 i, listed (i + 1) (Nat.succ_lt_succ lt)]
        rcases Nat.mod_two_eq_zero_or_one i with even | odd
        · rw [if_pos even, if_neg (by omega)]
        · rw [if_pos (by omega), if_neg (by omega), Bool.not_not]
      rw [add_zero, if_pos rfl] at first
      rw [zipIdx_cons, map_cons, map_cons, prod_cons, later, map_cons, alternating.eq_2]
      cases reduced with
      | true =>
        have counted := count_pos_iff.mpr (contains_iff_mem.mp first)
        rw [if_pos counted]
        exact one_mul _
      | false =>
        have uncounted : ¬0 < helper.reduceAxes.count (start + helper.reduceAxisOffset) := by
          rw [count_pos_iff, ← contains_iff_mem, first]
          exact Bool.false_ne_true
        rw [if_neg uncounted]
        rfl
  refine sizes helper.reduceFirstAxis helper.dataReshape 0 fun i lt => ?_
  rw [zero_add, add_comm]
  exact helper.contains_reduceAxes lt

end ReductionHelper

/-- The input's shape, the axes and the attribute of a call. -/
structure Arguments where
  shape : TensorShape
  axes : List Int
  keepDims : Bool

namespace Arguments

def reduces (args : Arguments) (d : Nat) : Bool :=
  args.axes.any fun index => index == d || index + args.shape.length == d

def dims (args : Arguments) : List ReduceDim :=
  args.shape.zipIdx.map fun entry => ⟨entry.1, args.reduces entry.2⟩

/-- A reduced dimension has size one, or none at all. -/
def outShape (args : Arguments) : TensorShape :=
  if args.keepDims then
    args.shape.zipIdx.map fun entry => if args.reduces entry.2 then 1 else entry.1
  else (args.shape.zipIdx.filter fun entry => !args.reduces entry.2).map Prod.fst

end Arguments

/-- The axes are in range, and neither the input nor the output has 2^63 elements. -/
structure Call extends Arguments where
  inRange : ∀ index ∈ axes, -shape.length ≤ index ∧ index < shape.length
  small : shape.numElements < 2 ^ 63
  smallOut : toArguments.outShape.numElements < 2 ^ 63

namespace Call

def Distinct (call : Call) : Prop :=
  (call.axes.map fun index => index % (call.shape.length : Int)).Nodup

theorem distinct_iff (call : Call) :
    call.Distinct ↔ (call.axes.map (dimensionOf call.shape.length)).Nodup := by
  have same : (call.axes.map fun index => index % (call.shape.length : Int)) =
      (call.axes.map (dimensionOf call.shape.length)).map Nat.cast := by
    rw [List.map_map]
    apply map_congr_left
    intro index mem
    obtain ⟨above, below⟩ := call.inRange index mem
    rw [Function.comp_apply, dimensionOf, wrapIndex, Int.tmod_eq_emod_of_nonneg (by omega),
      Int.add_emod_right, Int.toNat_of_nonneg (Int.emod_nonneg _ (by omega))]
  rw [Distinct, same, nodup_map_iff Nat.cast_injective]

theorem contains_dimensionOf (call : Call) {d : Nat} (lt : d < call.shape.length) :
    (call.axes.map (dimensionOf call.shape.length)).contains d = call.reduces d := by
  rw [Bool.eq_iff_iff, contains_iff_mem, List.mem_map, Arguments.reduces, List.any_eq_true]
  constructor
  · rintro ⟨index, mem, named⟩
    obtain ⟨above, below⟩ := call.inRange index mem
    have either := (dimensionOf_eq_iff above below lt).mp named
    exact ⟨index, mem, by simpa using either⟩
  · rintro ⟨index, mem, either⟩
    obtain ⟨above, below⟩ := call.inRange index mem
    exact ⟨index, mem, (dimensionOf_eq_iff above below lt).mpr (by simpa using either)⟩

theorem simplifyHelper_ok (call : Call) (nodup : call.Distinct) :
    ∃ bitmap, simplifyHelper call.shape.length call.axes = .ok bitmap ∧
      List.zipWith ReduceDim.mk call.shape bitmap = call.dims := by
  have fresh (d : Nat) : (List.replicate call.shape.length false).getD d false = false := by
    rw [getD_eq_getElem?_getD, getElem?_replicate]
    split <;> rfl
  obtain ⟨bitmap, folded, length, xs⟩ :=
    (markAxis_marksOnce call.shape.length).foldlM_ok length_replicate call.inRange
      (fun index _ => fresh _) (call.distinct_iff.mp nodup)
  refine ⟨bitmap, folded, ext_getElem (by simp [Arguments.dims, length])
    fun d lt lt' => ?_⟩
  have below : d < call.shape.length := by simpa [Arguments.dims] using lt'
  have marked := xs d below
  rw [fresh, Bool.false_or, call.contains_dimensionOf below,
    getD_eq_getElem _ _ (by omega)] at marked
  simp [Arguments.dims, marked]

theorem simplifyHelper_error (call : Call) (repeated : ¬call.Distinct) :
    ∃ index, simplifyHelper call.shape.length call.axes = .error (duplicateDimension index) := by
  obtain ⟨_, ⟨index, rfl⟩, err⟩ := (markAxis_marksOnce call.shape.length).foldlM_error
    length_replicate call.inRange fun nodup => repeated (call.distinct_iff.mpr nodup.2.2)
  exact ⟨index, err⟩

theorem outShapeOf_dims (call : Call) :
    outShapeOf call.keepDims call.dims = call.outShape.map Nat.cast := by
  rw [outShapeOf, Arguments.outShape, Arguments.dims, filterMap_map]
  cases call.keepDims with
  | true =>
    rw [if_pos rfl, if_pos rfl, List.map_map, ← filterMap_eq_map]
    apply filterMap_congr
    intro entry _
    cases reduced : call.reduces entry.2 <;> simp [reduced]
  | false =>
    rw [if_neg Bool.false_ne_true, if_neg Bool.false_ne_true, List.map_map,
      ← filterMap_eq_map, filterMap_filter]
    apply filterMap_congr
    intro entry _
    cases reduced : call.reduces entry.2 <;> simp [reduced]

theorem keptSizes_dims (call : Call) : keptSizes call.dims =
      (call.shape.zipIdx.filter fun entry => !call.reduces entry.2).map Prod.fst := by
  rw [keptSizes, dimSizes, Arguments.dims, List.filter_map, List.map_map]
  rfl

theorem dimSizes_dims (call : Call) : dimSizes call.dims = call.shape := by
  rw [dimSizes, Arguments.dims, List.map_map]
  exact zipIdx_map_fst 0 call.shape

theorem prod_outShape (call : Call) : call.outShape.prod = (keptSizes call.dims).prod := by
  rw [keptSizes_dims, Arguments.outShape]
  split
  case isFalse => rfl
  case isTrue =>
    induction call.shape.zipIdx with
    | nil => rfl
    | cons entry rest ih =>
      rw [map_cons, prod_cons, ih]
      cases reduced : call.reduces entry.2 <;> simp [reduced]

theorem simplify_ok (call : Call) (nodup : call.Distinct) :
    ∃ helper, simplify call.shape call.axes call.keepDims = .ok helper ∧
      SameReduction helper.alternatingDims call.dims ∧
      helper.outShape = call.outShape.map Nat.cast ∧
      helper.outReshape.map Int.toNat = keptSizes helper.alternatingDims := by
  obtain ⟨bitmap, marked, zipped⟩ := call.simplifyHelper_ok nodup
  have total : (dimSizes call.dims).prod < 2 ^ 63 := by
    rw [dimSizes_dims]
    exact call.small
  have kept : (keptSizes call.dims).prod < 2 ^ 63 := by
    rw [← prod_outShape]
    exact call.smallOut
  -- The leading dimensions of size one are skipped.
  have skipped : SameReduction (call.dims.dropWhile fun d => d.size == 1) call.dims := by
    clear total kept zipped
    induction call.dims with
    | nil => exact .refl _
    | cons d rest ih =>
      obtain ⟨size, reduced⟩ := d
      rw [dropWhile_cons]
      split
      case isFalse => exact .refl _
      case isTrue single =>
        obtain rfl : size = 1 := beq_iff_eq.mp single
        exact ih.trans (SameReduction.single reduced rest).symm
  rw [simplify, marked]
  simp only [bind, Except.bind, zipped]
  rcases remaining : call.dims.dropWhile (fun d => d.size == 1) with _ | ⟨first, rest⟩
  · rw [remaining] at skipped
    exact ⟨⟨true, [], outShapeOf call.keepDims call.dims, []⟩, by rw [remaining]; rfl, skipped, call.outShapeOf_dims,
      rfl⟩
  · rw [remaining] at skipped
    have collapsed := sameReduction_runs first.size first.reduced rest
    have same := collapsed.trans skipped
    have holds : List.Forall₂ Holds (runs first.size first.reduced rest)
        (collapse first.size first.reduced rest) := forall₂_collapse (fun _ => rfl) _ _
    have exact_ := sameReduction_of_holds holds
      (by
        rw [← dimSizes_alternating first.reduced (runs _ _ _), same.sizes]
        exact total)
      (by
        rw [← length_groups, same.groups, length_groups]
        exact kept)
    refine ⟨⟨first.reduced, collapse first.size first.reduced rest,
      outShapeOf call.keepDims call.dims, everyOther ((collapse first.size first.reduced rest).drop
        (if first.reduced then 1 else 0))⟩, by rw [remaining]; rfl, exact_.trans same, call.outShapeOf_dims, ?_⟩
    rw [ReductionHelper.alternatingDims, keptSizes_alternating, map_everyOther, map_drop]

end Call

/-- The collapsed shape reduces as the input's does, by any commutative operation, and the output
    has the shape that TensorFlow defines. A dimension that is named twice is reported. -/
theorem simplify_preserves {M : Type*} [CommMonoid M] (call : Call) (data : List M) :
    (call.Distinct → ∃ helper, simplify call.shape call.axes call.keepDims = .ok helper ∧
      reduceAlong helper.alternatingDims data = reduceAlong call.dims data ∧
      reduceAlong (dmlReduceDims helper.inputSizes helper.reduceAxes) data =
        reduceAlong call.dims data ∧ helper.inputSizes.prod = call.shape.numElements ∧
      helper.outShape = call.outShape.map Nat.cast ∧
      helper.outReshape.map Int.toNat = keptSizes helper.alternatingDims ∧
      (helper.outReshape.map Int.toNat).prod = call.outShape.numElements ∧
      (helper.outputShape.map Int.toNat).prod = call.outShape.numElements) ∧
    (¬call.Distinct → ∃ index,
      simplify call.shape call.axes call.keepDims = .error (duplicateDimension index)) := by
  constructor
  · intro nodup
    obtain ⟨helper, simple, same, outShape, outReshape⟩ := call.simplify_ok nodup
    have collapsed : reduceAlong helper.alternatingDims data = reduceAlong call.dims data := by
      rw [reduceAlong, reduceAlong, same.groups]
    have padded := SameReduction.replicate_single helper.reduceAxisOffset false
      helper.alternatingDims
    have kept : (keptSizes helper.alternatingDims).prod = call.outShape.numElements := by
      rw [← length_groups, same.groups, length_groups, ← call.prod_outShape]
      rfl
    refine ⟨helper, simple, collapsed, ?_, ?_, outShape, outReshape, ?_, ?_⟩
    · rw [helper.dmlReduceDims_eq, ← collapsed, reduceAlong, reduceAlong, padded.groups]
    · have sizes := same.sizes
      rw [ReductionHelper.alternatingDims, dimSizes_alternating, call.dimSizes_dims] at sizes
      rw [ReductionHelper.inputSizes, prod_append, prod_replicate, Nat.one_pow, one_mul, sizes]
      rfl
    · rw [outReshape, kept]
    · rw [helper.prod_outputShape, kept]
  · intro repeated
    obtain ⟨index, err⟩ := call.simplifyHelper_error repeated
    refine ⟨index, ?_⟩
    rw [simplify, err]
    rfl

/-- A dimension that is named twice is reported; and the elements of an output of 2^64 elements
    are not counted in 64 bits. -/
theorem simplify_repeated_or_huge : simplify [2] [0, 0] false = .error (duplicateDimension 0) ∧
      ∃ helper, simplify [0, 2 ^ 62, 4] [0] false = .ok helper ∧
        (reduceAlong helper.alternatingDims ([] : List Nat)).length ≠
          (reduceAlong (Arguments.dims ⟨[0, 2 ^ 62, 4], [0], false⟩) ([] : List Nat)).length := by
  refine ⟨by decide, ⟨true, [0, 0], [2 ^ 62, 4], [0]⟩, by decide +kernel, ?_⟩
  rw [reduceAlong, reduceAlong, length_map, length_map, length_groups, length_groups]
  decide +kernel

end TfDml.Reduce
