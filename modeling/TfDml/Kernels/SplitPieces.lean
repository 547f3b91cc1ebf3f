import TfDml.Kernels.ConcatOp
import TfDml.Kernels.SplitSizes
import Mathlib.Algebra.Order.BigOperators.Group.List

/-! # What SplitV leaves

The kernel sees the input as a view with three dimensions, and cuts it into parts. The outputs
that it leaves out have no elements.
-/

namespace TfDml.SplitOp

open Lib List
open DmlTensorDesc (view nchwAxis)
open GatherNd (IndexType)
open RangeOp (i64)
open ScatterNd (indexWidth)
open StridedSlice (IndexTensor i32)
open DmlTensorDesc TensorShape

section Shapes

variable {shape : TensorShape} {axis : Nat}

def leftOf (shape : TensorShape) (axis : Nat) : Nat := (shape.take axis).prod

def rightOf (shape : TensorShape) (axis : Nat) : Nat := (shape.drop (axis + 1)).prod

theorem prod_set (lt : axis < shape.length) (n : Nat) :
    (shape.set axis n).prod = leftOf shape axis * n * rightOf shape axis := by
  rw [set_eq_take_append_cons_drop, if_pos lt, prod_append, prod_cons, ← mul_assoc]
  rfl

theorem numElements_eq (lt : axis < shape.length) :
    shape.numElements = leftOf shape axis * shape.getD axis 0 * rightOf shape axis := by
  rw [← prod_set lt, getD_eq_getElem _ _ lt, set_getElem_self]
  rfl

theorem collapse_eq (lt : axis < shape.length) (few : shape.numElements < 2 ^ 31)
    (some_ : shape.numElements ≠ 0) {n : Nat} (small : n < 2 ^ 31) :
    collapse shape axis (i32 n) = some [leftOf shape axis, n, rightOf shape axis] := by
  have xs := numElements_eq lt
  have pos : ∀ dim ∈ shape, 0 < dim := fun dim mem => by
    refine Nat.pos_of_ne_zero fun zero => some_ ?_
    subst zero
    exact prod_eq_zero mem
  have left : leftOf shape axis ∣ shape.numElements := by
    rw [xs, mul_assoc]
    exact Nat.dvd_mul_right _ _
  have right : rightOf shape axis ∣ shape.numElements := by
    rw [xs]
    exact Nat.dvd_mul_left _ _
  have leftSmall := lt_of_le_of_lt (Nat.le_of_dvd (Nat.pos_of_ne_zero some_) left) few
  have rightSmall := lt_of_le_of_lt (Nat.le_of_dvd (Nat.pos_of_ne_zero some_) right) few
  rw [collapse, intProduct_eq (fun dim mem => pos dim (mem_of_mem_take mem))
    leftSmall, intProduct_eq (fun dim mem => pos dim (mem_of_mem_drop mem))
    rightSmall, i32_of_lt small]
  exact if_pos ⟨Int.natCast_nonneg _, Int.natCast_nonneg _, Int.natCast_nonneg _⟩

end Shapes

section Pieces

variable {α : Type} (input : TensorShape) (axis : Nat) (values : List α) (ns : List Nat)

/-- The view of a tensor like the input, with another size of the axis. -/
def viewOf (n : Nat) : DmlTensorDesc := view (leftOf input axis) (rightOf input axis) n

def parts : List (List α) :=
  partsFrom (viewOf input axis (input.getD axis 0)).sizes nchwAxis values 0 ns

/-- The tensors that SplitV leaves, with their buffers. -/
def pieces : List (ConcatOp.Value α) :=
  (ns.zip (parts input axis values ns)).map fun entry => ⟨input.set axis entry.1, entry.2⟩

variable {input axis values ns}

theorem length_parts : (parts input axis values ns).length = ns.length := length_partsFrom 0 ns

theorem map_shape_pieces :
    (pieces input axis values ns).map ConcatOp.Value.shape = ns.map (input.set axis ·) := by
  have composed : (ConcatOp.Value.shape ∘ fun entry : Nat × List α =>
      (⟨input.set axis entry.1, entry.2⟩ : ConcatOp.Value α)) = (input.set axis ·) ∘ Prod.fst := rfl
  rw [pieces, map_map, composed, ← map_map, map_fst_zip length_parts.ge]

theorem map_values_pieces :
    (pieces input axis values ns).map ConcatOp.Value.values = parts input axis values ns := by
  have composed : (ConcatOp.Value.values ∘ fun entry : Nat × List α =>
      (⟨input.set axis entry.1, entry.2⟩ : ConcatOp.Value α)) = Prod.snd := rfl
  rw [pieces, map_map, composed, map_snd_zip length_parts.le]

/-- The pieces that have elements, with the numbers of the outputs. -/
def livePieces (input : TensorShape) (axis : Nat) (values : List α) (ns : List Nat) :
    List ((Nat × List α) × Nat) :=
  (ns.zip (parts input axis values ns)).zipIdx.filter fun entry => entry.1.1 != 0

theorem map_fst_livePieces : (livePieces input axis values ns).map Prod.fst =
    (ns.filter (· != 0)).zip (parts input axis values (ns.filter (· != 0))) := by
  rw [livePieces, map_fst_filter_zipIdx fun entry : Nat × List α => entry.1 != 0, parts,
    filter_zip_partsFrom]
  rfl

theorem map_livePieces {β : Type} (f : Nat → β) :
    ((livePieces input axis values ns).map fun entry => f entry.1.1) =
      (ns.filter (· != 0)).map f := by
  have composed : (fun entry : (Nat × List α) × Nat => f entry.1.1) = f ∘ Prod.fst ∘ Prod.fst := rfl
  rw [composed, ← map_map, ← map_map, map_fst_livePieces, map_fst_zip length_parts.ge]

theorem map_buffer_livePieces {β : Type} (f : List α → β) :
    ((livePieces input axis values ns).map fun entry => f entry.1.2) =
      (parts input axis values (ns.filter (· != 0))).map f := by
  have composed : (fun entry : (Nat × List α) × Nat => f entry.1.2) = f ∘ Prod.snd ∘ Prod.fst := rfl
  rw [composed, ← map_map, ← map_map, map_fst_livePieces, map_snd_zip length_parts.le]

theorem mem_of_mem_livePieces {entry : (Nat × List α) × Nat}
    (mem : entry ∈ livePieces input axis values ns) : entry.1.1 ∈ ns ∧ entry.1.1 ≠ 0 := by
  obtain ⟨inZip, some_⟩ := mem_filter.mp mem
  exact ⟨(of_mem_zip (fst_mem_of_mem_zipIdx inZip)).1, bne_iff_ne.mp some_⟩

theorem bindOutputs_eq : bindOutputs ((livePieces input axis values ns).map fun entry =>
        ⟨entry.2, viewOf input axis entry.1.1⟩)
      ((livePieces input axis values ns).map fun entry => entry.1.2.map some) ns.length =
      (parts input axis values ns).map (List.map some) := by
  have inner : nchwAxis < (viewOf input axis (input.getD axis 0)).sizes.length :=
    Nat.le_of_ble_eq_true rfl
  rw [bindOutputs, zip_map']
  refine ext_getElem (by simp [length_parts]) fun i lt lt' => ?_
  have here : i < (ns.zip (parts input axis values ns)).length := by
    rw [length_zip, length_parts, min_self]
    simpa using lt
  have got := find?_zipIdx (fun entry : Nat × List α => entry.1 != 0)
    (ns.zip (parts input axis values ns)) 0 i
  rw [zero_add, getElem?_eq_getElem here] at got
  have search : ((livePieces input axis values ns).find? fun entry => entry.2 == i) =
      ((some (ns.zip (parts input axis values ns))[i]).filter fun entry : Nat × List α =>
        entry.1 != 0).map fun entry : Nat × List α => (entry, i) := by
    rw [← got, livePieces, find?_filter]
    simp only [Bool.decide_and, Bool.decide_eq_true]
  have composed : ((fun bound : TensorInfo × List (Option α) => bound.1.kernelIndex == i) ∘
      fun entry : (Nat × List α) × Nat =>
        ((⟨entry.2, viewOf input axis entry.1.1⟩ : TensorInfo), entry.1.2.map some)) =
      fun entry => entry.2 == i := rfl
  have mem := getElem_mem here
  have below : i < (parts input axis values ns).length := by simpa using lt'
  have buffer : (ns.zip (parts input axis values ns))[i].2 = (parts input axis values ns)[i] := by
    rw [getElem_zip]
  rw [getElem_map, getElem_range, find?_map, composed, search, getElem_map, ← buffer]
  generalize (ns.zip (parts input axis values ns))[i] = entry at mem
  obtain ⟨n, p⟩ := entry
  cases n with
  | zero =>
    rw [eq_nil_of_mem_partsFrom inner mem]
    rfl
  | succ n => rfl

theorem sum_filter_ne_zero (ns : List Nat) : (ns.filter (· != 0)).sum = ns.sum := by
  induction ns with
  | nil => rfl
  | cons n rest ih =>
    cases n with
    | zero => rw [filter_cons_of_neg (by decide), ih, sum_cons, zero_add]
    | succ n => rw [filter_cons_of_pos rfl, sum_cons, sum_cons, ih]

end Pieces

structure Cut {α : Type} (input : TensorShape) (axis : Nat) (values : List α) (ns : List Nat) :
    Prop where
  inside : axis < input.length
  few : input.numElements < 2 ^ 31
  whole : values.length = input.numElements
  sum : ns.sum = input.getD axis 0
  small : input.getD axis 0 < 2 ^ 31

namespace Cut

variable {α : Type} {input : TensorShape} {axis : Nat} {values : List α} {ns : List Nat}
  (cut : Cut input axis values ns)

include cut

theorem le_axis {n : Nat} (mem : n ∈ ns) : n ≤ input.getD axis 0 :=
  cut.sum ▸ single_le_sum (fun _ _ => Nat.zero_le _) n mem

theorem sizes_prod : (viewOf input axis (input.getD axis 0)).sizes.prod = input.numElements := by
  rw [numElements_eq cut.inside, viewOf, view]
  simp only [prod_cons, prod_nil, one_mul, mul_one, mul_assoc]

theorem whole_view : values.length = (viewOf input axis (input.getD axis 0)).sizes.prod :=
  cut.whole.trans cut.sizes_prod.symm

theorem fits : leftOf input axis * input.getD axis 0 * rightOf input axis < 2 ^ 32 := by
  have few := cut.few
  rw [numElements_eq cut.inside] at few
  omega

theorem create_part (ne : input.numElements ≠ 0) {n : Nat} (mem : n ∈ ns)
    (pos : n ≠ 0) : (do
      let shape ← collapse input axis (i32 n)
      create shape shape) = some (viewOf input axis n) := by
  have le := cut.le_axis mem
  have xs := numElements_eq cut.inside
  rw [xs] at ne
  have outer : leftOf input axis ≠ 0 ∧ rightOf input axis ≠ 0 := by
    constructor
    · intro zero
      rw [zero, zero_mul, zero_mul] at ne
      exact ne rfl
    · intro zero
      rw [zero, mul_zero] at ne
      exact ne rfl
  have fits : leftOf input axis * n * rightOf input axis < 2 ^ 32 :=
    lt_of_le_of_lt (Nat.mul_le_mul_right _ (Nat.mul_le_mul_left _ le)) cut.fits
  have some_ : 0 < leftOf input axis * n * rightOf input axis :=
    mul_pos (mul_pos (Nat.pos_of_ne_zero outer.1) (Nat.pos_of_ne_zero pos))
      (Nat.pos_of_ne_zero outer.2)
  rw [collapse_eq cut.inside cut.few (xs ▸ ne) (lt_of_le_of_lt le cut.small)]
  exact create_view fits some_

theorem numElements_part (some_ : input.numElements ≠ 0) (n : Nat) :
    (numElements (input.set axis n) != 0) = (n != 0) := by
  have xs := numElements_eq cut.inside
  rw [xs] at some_
  rw [numElements, prod_set cut.inside, Bool.eq_iff_iff, bne_iff_ne, bne_iff_ne]
  refine not_congr ⟨fun zero => ?_, fun zero => by rw [zero, mul_zero, zero_mul]⟩
  rw [Nat.mul_eq_zero, Nat.mul_eq_zero] at zero
  rcases zero with (left | size) | right
  · rw [left, zero_mul, zero_mul] at some_
    exact absurd rfl some_
  · exact size
  · rw [right, mul_zero] at some_
    exact absurd rfl some_

theorem kernelOutputs_eq (ne : input.numElements ≠ 0) :
    kernelOutputs input axis (ns.map (input.set axis ·)) =
      some ((livePieces input axis values ns).map fun entry =>
        ⟨entry.2, viewOf input axis entry.1.1⟩) := by
  have shapes : ns.map (input.set axis ·) =
      (ns.zip (parts input axis values ns)).map fun entry => input.set axis entry.1 := by
    rw [← @map_shape_pieces _ input axis values ns, pieces, map_map]
    rfl
  have live : ((fun output : TensorShape × Nat => output.1.numElements != 0) ∘
      Prod.map (fun entry : Nat × List α => input.set axis entry.1) id) =
      fun entry => entry.1.1 != 0 :=
    funext fun entry => cut.numElements_part ne entry.1.1
  rw [kernelOutputs, shapes, zipIdx_map, filter_map, live, mapM_map]
  refine mapM_eq_some fun entry mem => ?_
  obtain ⟨lt, some_⟩ := mem_of_mem_livePieces mem
  have size : (input.set axis entry.1.1).getD axis 0 = entry.1.1 := by
    rw [getD_eq_getElem _ _ (by rw [length_set]; exact cut.inside), getElem_set_self]
  have new := cut.create_part ne lt some_
  simp only [Function.comp_apply, Prod.map_fst, Prod.map_snd, id_eq, size, Option.bind_eq_bind,
    ← Option.bind_assoc] at new ⊢
  rw [new]
  rfl

theorem collapse_input (some_ : input.numElements ≠ 0) : (do
      let shape ← collapse input axis (i32 (input.getD axis 0))
      create shape shape) = some (viewOf input axis (input.getD axis 0)) := by
  rw [collapse_eq cut.inside cut.few some_ cut.small]
  refine create_view cut.fits ?_
  rw [← numElements_eq cut.inside]
  exact Nat.pos_of_ne_zero some_

theorem sum_live : (ns.filter (· != 0)).sum = input.getD axis 0 :=
  (sum_filter_ne_zero ns).trans cut.sum

theorem runKernel_eq (some_ : input.numElements ≠ 0) {init : Init}
    (isAxis : init.splitDim = axis) : runKernel input init (ns.map (input.set axis ·)) values =
      some ((parts input axis values ns).map (List.map some)) := by
  have split : (viewOf input axis (input.getD axis 0)).dmlSplit
      ((ns.filter (· != 0)).map (viewOf input axis)) nchwAxis values =
      some ((parts input axis values (ns.filter (· != 0))).map (List.map some)) :=
    dmlSplit_view cut.fits cut.whole_view cut.sum_live
  have descs : ((livePieces input axis values ns).map fun entry =>
      (⟨entry.2, viewOf input axis entry.1.1⟩ : TensorInfo)).map TensorInfo.desc =
      (ns.filter (· != 0)).map (viewOf input axis) := by
    rw [← @map_livePieces _ input axis values, map_map]
    rfl
  obtain ⟨shape, collapsed, new⟩ := Option.bind_eq_some_iff.mp (cut.collapse_input some_)
  have bound := @bindOutputs_eq _ input axis values ns
  rw [map_buffer_livePieces (List.map some)] at bound
  simp only [runKernel, isAxis, Int.toNat_natCast, collapsed, new, Option.bind_eq_bind,
    Option.bind_some, cut.kernelOutputs_eq some_, descs]
  rw [split, Option.bind_some, length_map]
  exact congrArg some bound

theorem length_of_mem_pieces {p : ConcatOp.Value α} (mem : p ∈ pieces input axis values ns) :
    p.values.length = p.shape.numElements := by
  obtain ⟨entry, inZip, rfl⟩ := mem_map.mp mem
  have inner : nchwAxis < (viewOf input axis (input.getD axis 0)).sizes.length :=
    Nat.le_of_ble_eq_true rfl
  have below : 0 + ns.sum ≤ (viewOf input axis (input.getD axis 0)).sizes[nchwAxis] := by
    rw [zero_add, cut.sum]
    exact le_refl _
  have length := length_of_mem_partsFrom cut.whole_view inner below inZip
  rw [length, numElements, prod_set cut.inside]
  change [1, leftOf input axis, entry.1, rightOf input axis].prod = _
  simp only [prod_cons, prod_nil, one_mul, mul_one, mul_assoc]

theorem numElements_le {p : ConcatOp.Value α} (mem : p ∈ pieces input axis values ns) :
    p.shape.numElements ≤ input.numElements := by
  obtain ⟨entry, inZip, rfl⟩ := mem_map.mp mem
  have le := cut.le_axis (of_mem_zip inZip).1
  rw [numElements_eq cut.inside, numElements, prod_set cut.inside]
  exact Nat.mul_le_mul_right _ (Nat.mul_le_mul_left _ le)

theorem all_empty_iff :
    ((ns.map (input.set axis ·)).all fun shape => numElements shape == 0) = true ↔
      input.numElements = 0 := by
  rw [all_eq_true]
  constructor
  · intro each
    by_contra some_
    refine some_ ?_
    have zeros : ∀ n ∈ ns, n = 0 := fun n mem => by
      have zero := each _ (mem_map_of_mem mem)
      have same := cut.numElements_part some_ n
      by_contra pos
      rw [bne_iff_ne.mpr pos, bne_iff_ne] at same
      exact same (beq_iff_eq.mp zero)
    rw [numElements_eq cut.inside, ← cut.sum, sum_eq_zero zeros, mul_zero, zero_mul]
  · intro empty shape mem
    rw [← @map_shape_pieces _ input axis values ns] at mem
    obtain ⟨p, inPieces, rfl⟩ := mem_map.mp mem
    have le := cut.numElements_le inPieces
    rw [beq_iff_eq]
    omega

theorem split_eq [Zero α] {init : Init} (isAxis : init.splitDim = axis) :
    (if isNoOpKernel (ns.map (input.set axis ·)) then
        some ((ns.map (input.set axis ·)).map NoOpKernel.zeroed)
      else runKernel input init (ns.map (input.set axis ·)) values) =
      some ((pieces input axis values ns).map fun p => p.values.map some) := by
  have buffers : ((pieces input axis values ns).map fun p => p.values.map some) =
      (parts input axis values ns).map (List.map some) := by
    rw [← map_values_pieces, map_map]
    rfl
  split
  case isTrue skip =>
    have empty := cut.all_empty_iff.mp skip
    rw [← @map_shape_pieces _ input axis values ns, map_map, Option.some.injEq]
    refine map_congr_left fun p mem => ?_
    have none : p.shape.numElements = 0 := by
      have le := cut.numElements_le mem
      omega
    have length := cut.length_of_mem_pieces mem
    rw [none] at length
    rw [Function.comp_apply, NoOpKernel.zeroed_of_empty none, length_eq_zero_iff.mp length]
    rfl
  case isFalse runs =>
    rw [buffers]
    exact cut.runKernel_eq (mt cut.all_empty_iff.mpr runs) isAxis

end Cut

end TfDml.SplitOp
