import TfDml.Kernels.RollOp
import TfDml.Lib.AxisMap
import Mathlib.Data.Nat.Prime.Basic

/-! # The rotation that Roll computes

Each axis with a sum that is not zero is gathered once, and the gathers together rotate all axes.
-/

namespace TfDml.Roll

open Lib
open List hiding flatten
open SplitOp (i32_bounds)
open StridedSlice (IndexTensor i32 u32)

variable {dims : List Nat}

theorem foldl_uintProduct (pos : ∀ dim ∈ dims, 0 < dim) {n : Nat}
    (lt : n * dims.prod < 2 ^ 32) :
    dims.foldl (fun n dim => n * dim % 2 ^ 32) n = n * dims.prod := by
  induction dims generalizing n with
  | nil => rw [foldl_nil, prod_nil, mul_one]
  | cons dim rest ih =>
    obtain ⟨-, later⟩ := forall_mem_cons.mp pos
    have restPositive : 0 < rest.prod := List.prod_pos_iff_forall_pos_nat.mpr later
    rw [prod_cons, ← mul_assoc] at lt ⊢
    have first : n * dim < 2 ^ 32 := lt_of_le_of_lt (Nat.le_mul_of_pos_right _ restPositive) lt
    rw [foldl_cons, Nat.mod_eq_of_lt first, ih later lt]

theorem uintProduct_eq (pos : ∀ dim ∈ dims, 0 < dim) (lt : dims.prod < 2 ^ 32) :
    uintProduct dims = dims.prod := by
  rw [uintProduct, foldl_uintProduct pos (by rwa [one_mul]), one_mul]

variable {input : TensorShape} {α : Type}

theorem numElements_pos (pos : ∀ dim ∈ input, 0 < dim) : 0 < input.numElements :=
  List.prod_pos_iff_forall_pos_nat.mpr pos

variable {d : Nat}

theorem getElem_le_numElements (pos : ∀ dim ∈ input, 0 < dim) (lt : d < input.length) :
    input[d] ≤ input.numElements :=
  Nat.le_of_dvd (numElements_pos pos) (dvd_prod (getElem_mem lt))

variable {axis : Nat}

theorem rollAxis_eq (pos : ∀ dim ∈ input, 0 < dim) (few : input.numElements < 2 ^ 31)
    (lt : axis < input.length) (shiftModSum : List Int) (values : List (Option α)) :
    rollAxis input shiftModSum values axis = if shiftModSum.getD axis 0 = 0 then values
      else gatherAlong (around input axis) 2
        (gatherIndex input[axis] (shiftModSum.getD axis 0)) values := by
  have whole := congrArg prod (eq_take_append_getElem lt)
  rw [prod_append, prod_cons] at whole
  have pre : (input.take axis).prod ∣ input.numElements := ⟨_, whole⟩
  have after : (input.drop (axis + 1)).prod ∣ input.numElements :=
    ⟨_, by rw [TensorShape.numElements, whole, ← mul_assoc, mul_comm]⟩
  have total := numElements_pos pos
  have beforeSmall := Nat.le_of_dvd total pre
  have axisSmall := getElem_le_numElements pos lt
  have afterSmall := Nat.le_of_dvd total after
  rw [rollAxis, uintProduct_eq (fun dim mem => pos dim (mem_of_mem_take mem))
      (by omega), uintProduct_eq (fun dim mem => pos dim (mem_of_mem_drop mem))
      (by omega), getD_eq_getElem _ _ lt, Nat.mod_eq_of_lt (by omega), around,
    getD_eq_getElem _ _ lt]
  rfl

def source (input : TensorShape) (shiftModSum : List Int) (d i : Nat) : Nat :=
  if shiftModSum.getD d 0 = 0 then i
  else gatherIndex (input.getD d 0) (shiftModSum.getD d 0) i

variable {dim : Nat}

theorem gatherIndex_lt (pos : 0 < dim) (modSum : Int) (i : Nat) :
    gatherIndex dim modSum i < dim := Nat.mod_lt _ pos

variable {i : Nat}

theorem source_lt (pos : ∀ dim ∈ input, 0 < dim) (shiftModSum : List Int)
    (lt : d < input.length) (below : i < input[d]) : source input shiftModSum d i < input[d] := by
  rw [source, getD_eq_getElem _ _ lt]
  split
  · exact below
  · exact gatherIndex_lt (pos _ (getElem_mem lt)) _ _

theorem readAt_rollAxis (pos : ∀ dim ∈ input, 0 < dim) (few : input.numElements < 2 ^ 31)
    (lt : axis < input.length) (shiftModSum : List Int) (values : List (Option α))
    {index : List Nat} (mem : index ∈ indices input) :
    readAt (rollAxis input shiftModSum values axis) (flatten input index) =
      readAt values (flatten input (index.modify axis (source input shiftModSum axis))) := by
  rw [rollAxis_eq pos few lt]
  split
  case isTrue zero =>
    have same : source input shiftModSum axis = id := by
      funext i
      rw [source, if_pos zero, id]
    rw [same, modify_id]
  case isFalse rolled =>
    have same : source input shiftModSum axis =
        gatherIndex input[axis] (shiftModSum.getD axis 0) := by
      funext i
      rw [source, if_neg rolled, getD_eq_getElem _ _ lt]
    rw [same, readAt_gatherAlong_around mem lt]

variable {values : List (Option α)}

theorem length_rollAxis (pos : ∀ dim ∈ input, 0 < dim) (few : input.numElements < 2 ^ 31)
    (lt : axis < input.length) (shiftModSum : List Int)
    (whole : values.length = input.numElements) :
    (rollAxis input shiftModSum values axis).length = input.numElements := by
  rw [rollAxis_eq pos few lt]
  split
  · exact whole
  · rw [length_gatherAlong, around, TensorShape.numElements,
      congrArg prod (eq_take_append_getElem lt)]
    simp [prod_append]

theorem length_foldl_rollAxis (pos : ∀ dim ∈ input, 0 < dim) (few : input.numElements < 2 ^ 31)
    (shiftModSum : List Int) (whole : values.length = input.numElements) {count : Nat}
    (lt : count ≤ input.length) :
    ((range count).foldl (rollAxis input shiftModSum) values).length = input.numElements := by
  induction count with
  | zero => exact whole
  | succ count ih =>
    rw [range_succ, foldl_append, foldl_cons, foldl_nil]
    exact length_rollAxis pos few lt shiftModSum (ih (Nat.le_of_succ_le lt))

theorem eq_map_readAt (whole : values.length = input.numElements) :
    values = (indices input).map fun index => readAt values (flatten input index) := by
  have read := map_getElem?_flatten whole
  have joined := congrArg (List.map Option.join) read
  rw [map_map, map_map] at joined
  have same : (Option.join ∘ some : Option α → Option α) = id := rfl
  rw [same, map_id] at joined
  exact joined.symm

theorem runKernel_eq (pos : ∀ dim ∈ input, 0 < dim) (few : input.numElements < 2 ^ 31)
    {shiftModSum : List Int} (length : shiftModSum.length = input.length) {values : List α}
    (whole : values.length = input.numElements) : runKernel input shiftModSum values =
      some ((indices input).map fun index =>
        values[flatten input (index.mapIdx (source input shiftModSum))]?) := by
  have total := numElements_pos pos
  have new : ∃ desc, DmlTensorDesc.create [input.numElements] [input.numElements] = some desc := by
    refine ⟨_, DmlTensorDesc.create_self_eq_some.mpr ⟨⟨Nat.le_of_ble_eq_true rfl, ?_⟩, rfl⟩⟩
    intro dim mem
    obtain rfl := mem_singleton.mp mem
    omega
  obtain ⟨desc, new⟩ := new
  have mapped : (values.map some).length = input.numElements := by rw [length_map, whole]
  have read (position : Nat) : readAt (values.map some) position = values[position]? := by
    rw [readAt, getElem?_map]
    cases values[position]? with
    | none => rfl
    | some x => rfl
  simp only [runKernel, new, Option.bind_eq_bind, Option.bind_some, length]
  have folded : ((range input.length).foldl (rollAxis input shiftModSum)
      (values.map some)) = (indices input).map fun index =>
        values[flatten input (index.mapIdx (source input shiftModSum))]? := by
    rw [eq_map_readAt (length_foldl_rollAxis pos few shiftModSum mapped le_rfl)]
    refine map_congr_left fun index mem => ?_
    rw [readAt_foldl (fun d lt i => source_lt pos shiftModSum lt)
      (fun d lt values index mem =>
        readAt_rollAxis pos few lt shiftModSum values mem) le_rfl _ mem, read,
      mapFirst_all (length_of_mem_indices mem).le]
  split
  case isTrue zero =>
    rw [all_eq_true] at zero
    rw [eq_map_readAt mapped]
    congr 1
    refine map_congr_left fun index mem => ?_
    have still : index.mapIdx (source input shiftModSum) = index := by
      apply ext_getElem (by simp)
      intro d lt lt'
      have here : d < shiftModSum.length := by
        rw [length, ← length_of_mem_indices mem]
        exact lt'
      have sum := zero _ (getElem_mem here)
      rw [getElem_mapIdx, source, getD_eq_getElem _ _ here, if_pos (beq_iff_eq.mp sum)]
    rw [read, still]
  case isFalse => rw [folded]

theorem gatherIndex_eq (small : dim < 2 ^ 31) {modSum : Int} (above : 0 < modSum)
    (below : modSum < dim) (lt : i < dim) :
    gatherIndex dim modSum i = ((i - modSum) % dim).toNat := by
  have shift : i32 (dim - modSum) = dim - modSum := Int.bmod_eq_of_le (by omega) (by omega)
  have index : u32 (i + (dim - modSum)) = (i + (dim - modSum)).toNat :=
    StridedSlice.u32_of_bounds (by omega) (by omega)
  have periodic : ((i : Int) + (dim - modSum)) % dim = (i - modSum) % dim := by
    have moved : (i : Int) + (dim - modSum) = i - modSum + dim := by ring
    rw [moved, Int.add_emod_right]
  rw [gatherIndex, shift, index, ← periodic, Int.toNat_emod (by omega) (by omega),
    Int.toNat_natCast]

def rotated (input : TensorShape) (entries : List (Int × Int)) (d i : Nat) : Nat :=
  ((i - (shiftsOn input.length entries d).sum) % input.getD d 0).toNat

theorem source_exactModSums (few : input.numElements < 2 ^ 31) (pos : ∀ dim ∈ input, 0 < dim)
    (entries : List (Int × Int)) (lt : d < input.length) (below : i < input[d]) :
    source input (exactModSums input entries) d i = rotated input entries d i := by
  have least := pos _ (getElem_mem lt)
  have most := getElem_le_numElements pos lt
  have size : ((max input[d] 1 : Nat) : Int) = input[d] := by omega
  have sum : exactModSum input entries d = (shiftsOn input.length entries d).sum % input[d] := by
    rw [exactModSum, getD_eq_getElem _ _ lt, size]
  have lower := Int.emod_nonneg (shiftsOn input.length entries d).sum (by omega : (input[d] : Int) ≠ 0)
  have upper := Int.emod_lt_of_pos (shiftsOn input.length entries d).sum
    (by omega : (0 : Int) < input[d])
  have same : ((i : Int) - (shiftsOn input.length entries d).sum % input[d]) % input[d] =
      (i - (shiftsOn input.length entries d).sum) % input[d] := Int.sub_emod_emod ..
  rw [source, getD_exactModSums lt, rotated, getD_eq_getElem _ _ lt, sum, ← same]
  split
  case isTrue zero =>
    rw [zero, Int.sub_zero, Int.emod_eq_of_lt (by omega) (by omega), Int.toNat_natCast]
  case isFalse rolled => exact gatherIndex_eq (by omega) (by omega) upper below

/-- An invocation that has something to roll, with axes in range and sums in 32 bits. -/
structure RollCall (w v : Nat) extends Call w v where
  positive : ∀ dim ∈ input, 0 < dim
  few : input.numElements < 2 ^ 31
  nonempty : shift.numElements ≠ 0
  inside : ∀ entry ∈ toCall.entries, Inside input.length entry.2
  fits : ∀ d < input.length, -2 ^ 31 ≤ (shiftsOn input.length toCall.entries d).sum ∧
    (shiftsOn input.length toCall.entries d).sum < 2 ^ 31

namespace RollCall

variable {w v : Nat} (call : RollCall w v)

/-- The output is the input, rotated along each axis by its shifts, and an axis whose shifts are
    a multiple of its size is left alone. -/
structure Rolls : Prop where
  rotates : ∀ (α : Type) [Zero α] (values : List α), values.length = call.input.numElements →
    compute call.toArguments values = .ok (some ((indices call.input).map fun index =>
      values[flatten call.input (index.mapIdx (rotated call.input call.entries))]?))
  untouched : ∃ shiftModSum, initHelper call.toArguments = .ok shiftModSum ∧
    ∀ d (inside : d < call.input.length),
      (call.input[d] : Int) ∣ (shiftsOn call.input.length call.entries d).sum →
        ∀ (α : Type) (values : List (Option α)), rollAxis call.input shiftModSum values d = values

/-- The loop visits all shifts, and each is added exactly. -/
def Exact : Prop := call.shift.numElements < 2 ^ 31 ∧ KeepsAll call.input call.entries

theorem not_noOp : NoOpKernel.isNoOpKernel
    [call.input, call.shift.shape, call.axis.shape] [call.input] = false := by
  have input := (numElements_pos call.positive).ne'
  have shift : call.shift.shape.numElements ≠ 0 := call.nonempty
  have axis : call.axis.shape.numElements ≠ 0 := by rwa [← call.agree]
  rw [Bool.eq_false_iff, ne_eq, NoOpKernel.isNoOpKernel_iff]
  simp [input, shift, axis]

theorem compute_eq {α : Type} [Zero α] {shiftModSum : List Int}
    (made : initHelper call.toArguments = .ok shiftModSum)
    (length : shiftModSum.length = call.input.length) {values : List α}
    (whole : values.length = call.input.numElements) :
    compute call.toArguments values = .ok (some ((indices call.input).map fun index =>
      values[flatten call.input (index.mapIdx (source call.input shiftModSum))]?)) := by
  simp only [compute, made, bind, Except.bind, call.not_noOp, pure, Except.pure,
    runKernel_eq call.positive call.few length whole, Bool.false_eq_true, if_false]

theorem rolls_of_exact (exact : call.Exact) : call.Rolls := by
  obtain ⟨few, keeps⟩ := exact
  have sums := (visitAll_eq_iff call.ranked call.inside).mpr keeps call.entries []
    (append_nil _).symm
  have made : initHelper call.toArguments = .ok (exactModSums call.input call.entries) := by
    rw [Call.initHelper_eq, call.visited_eq_iff.mpr few, sums]
  have length : (exactModSums call.input call.entries).length = call.input.length := by
    simp [exactModSums]
  constructor
  · intro α _ values whole
    rw [call.compute_eq made length whole]
    congr 2
    refine map_congr_left fun index mem => ?_
    have same : index.mapIdx (source call.input (exactModSums call.input call.entries)) =
        index.mapIdx (rotated call.input call.entries) := by
      apply ext_getElem (by simp)
      intro d lt _
      rw [length_mapIdx] at lt
      have here : d < call.input.length := by rwa [← length_of_mem_indices mem]
      rw [getElem_mapIdx, getElem_mapIdx, source_exactModSums call.few call.positive _
        here (getElem_lt_of_mem_indices mem here lt)]
    rw [same]
  · refine ⟨_, made, fun d lt divides α values => ?_⟩
    have zero : (exactModSums call.input call.entries).getD d 0 = 0 := by
      have least := call.positive _ (getElem_mem lt)
      have size : ((max call.input[d] 1 : Nat) : Int) = call.input[d] := by omega
      rw [getD_exactModSums lt, exactModSum, getD_eq_getElem _ _ lt, size]
      exact Int.emod_eq_zero_of_dvd divides
    rw [rollAxis_eq call.positive call.few lt, if_pos zero]

end RollCall

variable {entries : List (Int × Int)} {modSums final : List Int}

theorem getD_foldlM_visitShift (ranked : input.length < 2 ^ 31)
    (lt : ∀ entry ∈ entries, Inside input.length entry.2)
    (other : ∀ entry ∈ entries, resolve input.length entry.2 ≠ d)
    (seen : entries.foldlM (visitShift input) modSums = .ok final) :
    final.getD d 0 = modSums.getD d 0 := by
  induction entries generalizing modSums with
  | nil =>
    cases seen
    rfl
  | cons entry rest ih =>
    obtain ⟨first, later⟩ := forall_mem_cons.mp lt
    obtain ⟨elsewhere, others⟩ := forall_mem_cons.mp other
    obtain ⟨lower, upper⟩ := resolve_bounds first
    rw [foldlM_cons, visitShift_of_inside ranked modSums first] at seen
    rw [ih later others seen, getD_eq_getElem?_getD, getD_eq_getElem?_getD,
      getElem?_set_ne (by omega), getD_eq_getElem?_getD]

theorem not_dvd_two_pow (above : 2 ^ 30 < dim) (below : dim < 2 ^ 31) : ¬ dim ∣ 2 ^ 32 := by
  intro dvd
  obtain ⟨k, -, rfl⟩ := (Nat.dvd_prime_pow Nat.prime_two).mp dvd
  have lower := (Nat.pow_lt_pow_iff_right Nat.one_lt_two).mp above
  have upper := (Nat.pow_lt_pow_iff_right Nat.one_lt_two).mp below
  omega

theorem addShift_exact_of_source (pos : 0 < dim) (lt : dim < 2 ^ 31) {shift : Int}
    (above : -2 ^ 31 ≤ shift) (below : shift < 2 ^ 31)
    (first : (if addShift dim 0 shift = 0 then 0 else gatherIndex dim (addShift dim 0 shift) 0) =
      ((0 - shift) % dim).toNat) : addShift dim 0 shift = shift % dim := by
  have kept : i32 shift = shift := Int.bmod_eq_of_le (by omega) (by omega)
  have lower : -(dim : Int) < shift.tmod dim := Int.lt_tmod_of_pos shift (by omega)
  have upper : shift.tmod dim < dim := Int.tmod_lt_of_pos shift (by omega)
  have remainder : (dim : Int) ∣ shift - shift.tmod dim := Int.dvd_self_sub_tmod
  rw [addShift, kept, Int.zero_add, kept] at first ⊢
  by_cases fits : shift.tmod dim + dim < 2 ^ 31
  · have whole : i32 (shift.tmod dim + dim) = shift.tmod dim + dim :=
      Int.bmod_eq_of_le (by omega) (by omega)
    rw [whole, Int.tmod_eq_emod_of_nonneg (by omega), Int.add_emod_right]
    exact (emod_eq_of_dvd remainder).symm
  -- The sum has lost 2 ^ 32, which is not a multiple of the size.
  exfalso
  obtain ⟨wrapLower, wrapUpper, k, wrap⟩ := i32_bounds (shift.tmod dim + dim)
  have wrapped : i32 (shift.tmod dim + dim) = shift.tmod dim + dim - 2 ^ 32 := by omega
  rw [wrapped] at first
  generalize modSum : (shift.tmod dim + dim - 2 ^ 32).tmod dim = m at first
  have mLower : -(dim : Int) < m := by
    rw [← modSum]
    exact Int.lt_tmod_of_pos _ (by omega)
  have mUpper : m ≤ 0 := by
    have reverse := Int.tmod_nonneg (dim : Int)
      (by omega : 0 ≤ -(shift.tmod dim + dim - 2 ^ 32))
    rw [Int.neg_tmod, modSum] at reverse
    omega
  have mRemainder : (dim : Int) ∣ shift.tmod dim + dim - 2 ^ 32 - m := by
    rw [← modSum]
    exact Int.dvd_self_sub_tmod
  have congruent : (dim : Int) ∣ shift - m := by
    have firstInt : (((if m = 0 then 0 else gatherIndex dim m 0 : Nat) : Int)) =
        (0 - shift) % dim := by
      rw [first, Int.toNat_of_nonneg (Int.emod_nonneg _ (by omega))]
    have residue : ((if m = 0 then 0 else gatherIndex dim m 0 : Nat) : Int) = (0 - m) % dim := by
      split
      case isTrue zero => simp [zero]
      case isFalse ne =>
        have narrowed : u32 ((0 : Nat) + i32 (dim - m)) = (dim - m).toNat := by
          obtain ⟨-, -, j, cut⟩ := i32_bounds (dim - m)
          have same : ((0 : Nat) : Int) + i32 (dim - m) = dim - m + 2 ^ 32 * -j := by omega
          rw [u32, same, Int.add_mul_emod_self_left, Int.emod_eq_of_lt (by omega) (by omega)]
        rw [gatherIndex, narrowed, Int.natCast_emod, Int.toNat_of_nonneg (by omega),
          Int.sub_emod_left, Int.zero_sub]
    rw [residue] at firstInt
    have difference := Int.dvd_of_emod_eq_zero
      (Int.emod_eq_emod_iff_emod_sub_eq_zero.mp firstInt)
    have same : 0 - m - (0 - shift) = shift - m := by ring
    rwa [same] at difference
  have lost : (2 : Int) ^ 32 = shift - m - (shift - shift.tmod dim) -
      (shift.tmod dim + dim - 2 ^ 32 - m) + dim := by ring
  have dvd : (dim : Int) ∣ 2 ^ 32 := by
    rw [lost]
    exact dvd_add (dvd_sub (dvd_sub congruent remainder) mRemainder) (dvd_refl _)
  exact not_dvd_two_pow (by omega) lt (by exact_mod_cast dvd)

theorem length_foldlM_visitShift (ranked : input.length < 2 ^ 31)
    (lt : ∀ entry ∈ entries, Inside input.length entry.2)
    (seen : entries.foldlM (visitShift input) modSums = .ok final) :
    final.length = modSums.length := by
  induction entries generalizing modSums with
  | nil =>
    cases seen
    rfl
  | cons entry rest ih =>
    obtain ⟨first, later⟩ := forall_mem_cons.mp lt
    rw [foldlM_cons, visitShift_of_inside ranked modSums first] at seen
    rw [ih later seen, length_set]

theorem visitAll_once (ranked : input.length < 2 ^ 31) {pre after : List (Int × Int)}
    {entry : Int × Int} (lt : ∀ other ∈ pre ++ entry :: after, Inside input.length other.2)
    (here : resolve input.length entry.2 = d)
    (once : ∀ other ∈ pre ++ after, resolve input.length other.2 ≠ d)
    (seen : visitAll input (pre ++ entry :: after) = .ok final) :
    final.getD d 0 = addShift (axisSize (input.getD d 0)) 0 entry.1 := by
  obtain ⟨insideBefore, insideRest⟩ := forall_mem_append.mp lt
  obtain ⟨insideEntry, insideAfter⟩ := forall_mem_cons.mp insideRest
  obtain ⟨onceBefore, onceAfter⟩ := forall_mem_append.mp once
  have below : d < input.length := by
    have upper := (resolve_bounds insideEntry).2
    omega
  obtain ⟨middle, first⟩ := foldlM_visitShift_of_narrowed (replicate input.length 0)
    fun other mem => (insideBefore other mem).narrowed ranked
  have zero := getD_foldlM_visitShift ranked insideBefore onceBefore first
  have length := length_foldlM_visitShift ranked insideBefore first
  rw [length_replicate] at length
  rw [getD_replicate 0 below] at zero
  rw [visitAll, foldlM_append, first] at seen
  change (entry :: after).foldlM (visitShift input) middle = _ at seen
  rw [foldlM_cons, visitShift_of_inside ranked middle insideEntry] at seen
  have kept := getD_foldlM_visitShift ranked insideAfter onceAfter seen
  rw [kept, here, Int.toNat_natCast, zero, getD_eq_getElem _ _ (by simpa [length] using below),
    getElem_set_self]

namespace RollCall

variable {w v : Nat} (call : RollCall w v)

def Distinct : Prop := (call.entries.map fun entry => resolve call.input.length entry.2).Nodup

theorem few_of_distinct (nodup : call.Distinct) : call.shift.numElements < 2 ^ 31 := by
  have lt : (call.entries.map fun entry => resolve call.input.length entry.2) ⊆
      (range call.input.length).map (fun (d : Nat) => (d : Int)) := by
    intro axis mem
    obtain ⟨entry, inEntries, rfl⟩ := mem_map.mp mem
    obtain ⟨lower, upper⟩ := resolve_bounds (call.inside entry inEntries)
    exact mem_map.mpr ⟨(resolve call.input.length entry.2).toNat,
      mem_range.mpr (by omega), Int.toNat_of_nonneg lower⟩
  have lens := (subperm_of_subset nodup lt).length_le
  rw [length_map, length_map, length_range, Call.length_entries] at lens
  exact lens.trans_lt call.ranked

theorem source_of_rolls (rolls : call.Rolls) {shiftModSum : List Int}
    (made : initHelper call.toArguments = .ok shiftModSum)
    (length : shiftModSum.length = call.input.length) {d : Nat} (lt : d < call.input.length) :
    source call.input shiftModSum d 0 = rotated call.input call.entries d 0 := by
  have whole : (range call.input.numElements).length = call.input.numElements := length_range
  have outputs := (call.compute_eq made length whole).symm.trans
    (rolls.rotates Nat (range call.input.numElements) whole)
  have start : replicate call.input.length 0 ∈ indices call.input := by
    refine mem_indices_of_getElem length_replicate fun k here _ => ?_
    rw [getElem_replicate]
    exact call.positive _ (getElem_mem here)
  have positions := map_inj_left.mp (Option.some.inj (Except.ok.inj outputs)) _ start
  rw [TensorShape.numElements] at positions
  have moved (g : Nat → Nat → Nat)
      (maps : ∀ k (here : k < call.input.length), ∀ i < call.input[k], g k i < call.input[k]) :
      (replicate call.input.length 0).mapIdx g ∈ indices call.input := by
    rw [← mapFirst_all (by rw [length_replicate]) g]
    exact mapFirst_mem start maps
  have first := moved (source call.input shiftModSum) fun k here i below =>
    source_lt call.positive shiftModSum here below
  have snd := moved (rotated call.input call.entries) fun k here i below => by
    have least := call.positive _ (getElem_mem here)
    rw [rotated, getD_eq_getElem _ _ here]
    have upper := Int.emod_lt_of_pos
      ((i : Int) - (shiftsOn call.input.length call.entries k).sum)
      (by omega : (0 : Int) < call.input[k])
    omega
  rw [getElem?_range (flatten_lt first), getElem?_range (flatten_lt snd),
    Option.some.injEq] at positions
  have same := flatten_inj first snd positions
  have entry := congrArg (·[d]?) same
  simpa [getElem?_mapIdx, lt] using entry

theorem exact_of_rolls (nodup : call.Distinct) (rolls : call.Rolls) : call.Exact := by
  have few := call.few_of_distinct nodup
  refine ⟨few, ?_⟩
  intro pre entry after split
  have mem : entry ∈ call.entries := by
    rw [split]
    exact mem_append_right _ mem_cons_self
  have insideEntry := call.inside entry mem
  obtain ⟨lower, upper⟩ := resolve_bounds insideEntry
  obtain ⟨d, here⟩ : ∃ d : Nat, resolve call.input.length entry.2 = d :=
    ⟨_, (Int.toNat_of_nonneg lower).symm⟩
  have below : d < call.input.length := by omega
  have once : ∀ other ∈ pre ++ after, resolve call.input.length other.2 ≠ d := by
    rw [Distinct, split, map_append, map_cons] at nodup
    obtain ⟨-, ne, apart⟩ := nodup_append'.mp nodup
    obtain ⟨notAfter, -⟩ := nodup_cons.mp ne
    intro other inOthers same
    rw [← here] at same
    rcases mem_append.mp inOthers with inBefore | inAfter
    · exact apart (mem_map.mpr ⟨other, inBefore, same⟩) mem_cons_self
    · exact notAfter (mem_map.mpr ⟨other, inAfter, same⟩)
  obtain ⟨onceBefore, onceAfter⟩ := forall_mem_append.mp once
  have none (others : List (Int × Int))
      (elsewhere : ∀ other ∈ others, resolve call.input.length other.2 ≠ d) :
      others.filter (fun other => resolve call.input.length other.2 == d) = [] :=
    filter_eq_nil_iff.mpr fun other inOthers => by simpa using elsewhere other inOthers
  have shifts : shiftsOn call.input.length call.entries d = [entry.1] := by
    rw [shiftsOn, split, filter_append, filter_cons, none pre onceBefore,
      none after onceAfter, if_pos (beq_iff_eq.mpr here)]
    rfl
  have start : exactModSum call.input pre d = 0 := by
    rw [exactModSum, shiftsOn, none pre onceBefore]
    rfl
  obtain ⟨final, made⟩ := call.initHelper_of_inside call.inside
  have visited := made
  rw [Call.initHelper_eq, call.visited_eq_iff.mpr few] at visited
  have length := length_foldlM_visitShift call.ranked call.inside visited
  rw [length_replicate] at length
  rw [split] at visited
  have sum := visitAll_once call.ranked (by rw [← split]; exact call.inside) here once visited
  have first := call.source_of_rolls rolls made length below
  have small := (getElem_le_numElements call.positive below).trans_lt call.few
  have least := call.positive _ (getElem_mem below)
  have size : axisSize call.input[d] = call.input[d] := by
    rw [axisSize, i32_of_lt small]
    exact max_eq_left (by exact_mod_cast least)
  obtain ⟨above, less⟩ := call.fits d below
  rw [shifts, sum_singleton] at above less
  rw [source, sum, rotated, shifts, sum_singleton, getD_eq_getElem _ _ below, size] at first
  have exact := addShift_exact_of_source least small above less first
  have modulus : ((max call.input[d] 1 : Nat) : Int) = call.input[d] :=
    congrArg Nat.cast (max_eq_left least)
  simp only [here, Int.toNat_natCast]
  rw [start, ← addShift_eq_iff, getD_eq_getElem _ _ below, size, exactSum, modulus, Int.zero_add]
  exact exact

/-- Roll computes the rotation if no shift loses anything, and only then if no axis is given
    twice: on an axis that is, what two shifts lose can add up to a multiple of its size. -/
theorem rolls_iff : (call.Exact → call.Rolls) ∧ (call.Distinct → (call.Rolls ↔ call.Exact)) :=
  ⟨call.rolls_of_exact, fun nodup => ⟨call.exact_of_rolls nodup, call.rolls_of_exact⟩⟩

/-- Shifts by -1 and 2147483647 on an axis of three elements add up to a multiple of three. -/
def overflowing : RollCall 32 32 where
  input := [3]
  shift := ⟨[2], [-1, 2147483647], rfl⟩
  axis := ⟨[2], [0, 0], rfl⟩
  vector := rfl
  ranked := by decide
  flat := le_refl 1
  agree := rfl
  positive := by decide
  few := by decide
  nonempty := by decide
  inside := by
    unfold Inside
    decide
  fits := by decide

/-- The second sum overflows, and the tensor is rolled. -/
theorem overflowing_not_rolls : ¬ overflowing.Rolls := fun rolls =>
  absurd (rolls.rotates Nat [0, 1, 2] rfl) (by decide +kernel)

end RollCall

end TfDml.Roll
