import TfDml.Core.TensorDesc
import TfDml.Kernels.SimplifySlice
import TfDml.Lib.Parts

/-! # Tensors along one axis

All dimensions to the left of an axis are collapsed together, and all dimensions to its right.
The operators that split a tensor along the axis, or join tensors, see four dimensions.
-/

namespace TfDml

open Lib
open List hiding flatten
open StridedSlice (i32)

/-- A tensor of the kernel with the index of the input or output that it is bound to. -/
structure TensorInfo where
  kernelIndex : Nat
  desc : DmlTensorDesc
  deriving DecidableEq

/-- A product of dimensions that is kept in an `int`. -/
def intProduct (dims : List Nat) : Int := dims.foldl (fun (n : Int) (dim : Nat) => i32 (n * dim)) 1

/-- The collapsed shape with another size of the axis. No descriptor has a negative size. -/
def collapse (shape : TensorShape) (axis : Nat) (axisDimSize : Int) : Option TensorShape :=
  let leftDimSize := intProduct (shape.take axis)
  let rightDimSize := intProduct (shape.drop (axis + 1))
  if 0 ≤ leftDimSize ∧ 0 ≤ axisDimSize ∧ 0 ≤ rightDimSize then
    some [leftDimSize.toNat, axisDimSize.toNat, rightDimSize.toNat]
  else none

namespace DmlTensorDesc

/-- The axis is `kNchwDimensionCount - 2`. -/
def nchwAxis : Nat := kNchwDimensionCount - 2

/-- `DML_OPERATOR_SPLIT`, as documented. -/
def split {α : Type} (input : DmlTensorDesc) (axis : Nat) (values : List α) :
    List DmlTensorDesc → Nat → List (List (Option α))
  | [], _ => []
  | output :: rest, offset =>
    ((indices output.sizes).map fun index =>
      values[address input.strides (index.modify axis (offset + ·))]?) ::
      split input axis values rest (offset + output.sizes.getD axis 0)

def joinEntry {α : Type} (axis : Nat) : List (DmlTensorDesc × List α) → List Nat → Option α
  | [], _ => none
  | (input, values) :: rest, index =>
    let size := input.sizes.getD axis 0
    if index.getD axis 0 < size then values[address input.strides index]?
    else joinEntry axis rest (index.modify axis (· - size))

/-- The tensors have the same sizes but on the axis, where their sizes make up the whole. -/
def PartsOf (parts : List DmlTensorDesc) (whole : DmlTensorDesc) (axis : Nat) : Prop :=
  (∀ d ∈ parts, d.sizes = whole.sizes.set axis (d.sizes.getD axis 0)) ∧
    (parts.map fun d => d.sizes.getD axis 0).sum = whole.sizes.getD axis 0

instance (parts : List DmlTensorDesc) (whole : DmlTensorDesc) (axis : Nat) :
    Decidable (PartsOf parts whole axis) :=
  inferInstanceAs (Decidable ((∀ d ∈ parts, d.sizes = whole.sizes.set axis (d.sizes.getD axis 0)) ∧
    (parts.map fun d => d.sizes.getD axis 0).sum = whole.sizes.getD axis 0))

/-- `DML_OPERATOR_SPLIT` with what it requires of its tensors. -/
def dmlSplit {α : Type} (input : DmlTensorDesc) (outputs : List DmlTensorDesc) (axis : Nat)
    (values : List α) : Option (List (List (Option α))) :=
  if PartsOf outputs input axis then some (split input axis values outputs 0) else none

/-- `DML_OPERATOR_JOIN`, as documented. -/
def dmlJoin {α : Type} (inputs : List (DmlTensorDesc × List α)) (output : DmlTensorDesc)
    (axis : Nat) : Option (List (Option α)) :=
  if PartsOf (inputs.map Prod.fst) output axis then
    some ((indices output.sizes).map (joinEntry axis inputs))
  else none

def view (left right n : Nat) : DmlTensorDesc :=
  ⟨[1, left, n, right], 0 :: packedStrides [left, n, right]⟩

theorem sizes_view (left right m n : Nat) :
    (view left right n).sizes = (view left right m).sizes.set nchwAxis n := rfl

variable {left right n : Nat}

theorem create_view (fits : left * n * right < 2 ^ 32) (pos : 0 < left * n * right) :
    create [left, n, right] [left, n, right] = some (view left right n) := by
  have each : ∀ dim ∈ [left, n, right], dim < 2 ^ 32 := by
    intro dim mem
    refine lt_of_le_of_lt (Nat.le_of_dvd pos ?_) fits
    have dvd := dvd_prod mem
    rwa [prod_cons, prod_cons, prod_singleton, ← mul_assoc] at dvd
  exact create_self_eq_some.mpr ⟨⟨Nat.le_of_ble_eq_true rfl, each⟩, rfl⟩

variable {index : List Nat}

theorem address_view (fits : left * n * right < 2 ^ 32)
    (mem : index ∈ indices (view left right n).sizes) :
    address (view left right n).strides index = flatten (view left right n).sizes index := by
  obtain ⟨k, less, inner, inside, rfl⟩ := mem_indices_cons.mp mem
  have lt : [left, n, right].prod < 2 ^ 32 := by
    rwa [prod_cons, prod_cons, prod_singleton, ← mul_assoc]
  obtain rfl : k = 0 := Nat.lt_one_iff.mp less
  rw [view, address_cons, addressed_of_lt lt inner inside, flatten, zero_mul, zero_mul]

variable {α : Type} {values : List α} {total : Nat}

variable {ns : List Nat}

theorem split_view (fits : left * total * right < 2 ^ 32)
    (whole : values.length = (view left right total).sizes.prod) {offset : Nat}
    (lt : offset + ns.sum ≤ total) :
    split (view left right total) nchwAxis values (ns.map (view left right)) offset =
      (partsFrom (view left right total).sizes nchwAxis values offset ns).map
        (List.map some) := by
  induction ns generalizing offset with
  | nil => rfl
  | cons n rest ih =>
    rw [sum_cons] at lt
    have inner : ∀ h : nchwAxis < (view left right total).sizes.length,
        offset + n ≤ (view left right total).sizes[nchwAxis] := fun _ => by
      change offset + n ≤ total
      omega
    have size : (view left right n).sizes.getD nchwAxis 0 = n := rfl
    rw [map_cons, split, partsFrom, map_cons, ← map_part whole inner, size, ih (by omega)]
    congr 1
    refine map_congr_left fun index mem => ?_
    rw [address_view fits (offset_mem_indices mem inner)]

theorem joinEntry_view (fits : left * total * right < 2 ^ 32) {buffers : List (List α)}
    (lt : ns.sum ≤ total) (mem : index ∈ indices (view left right ns.sum).sizes) :
    joinEntry nchwAxis ((ns.zip buffers).map fun entry => (view left right entry.1, entry.2))
        index = joinedEntry (view left right total).sizes nchwAxis (ns.zip buffers) index := by
  induction ns generalizing buffers index with
  | nil => rfl
  | cons n rest ih =>
    cases buffers with
    | nil => rfl
    | cons buffer buffers =>
      rw [sum_cons] at lt mem
      have size : (view left right n).sizes.getD nchwAxis 0 = n := rfl
      have length : index.length = 4 := length_of_mem_indices mem
      rw [zip_cons_cons, map_cons, joinEntry, joinedEntry, size]
      rw [sizes_view left right total] at mem
      have here : nchwAxis < index.length := by
        rw [length]
        decide
      rw [getD_eq_getElem _ _ here]
      have below := getElem_lt_of_mem_indices mem (d := nchwAxis)
        (Nat.le_of_ble_eq_true rfl) here
      have last : ((view left right total).sizes.set nchwAxis (n + rest.sum))[nchwAxis] =
        n + rest.sum := rfl
      rw [last] at below
      split
      case isTrue first =>
        have moved := modify_mem_indices_set (g := id) mem fun _ => first
        rw [modify_id] at moved
        have narrow : left * n * right < 2 ^ 32 := by
          refine lt_of_le_of_lt (Nat.mul_le_mul_right _ (Nat.mul_le_mul_left _ ?_)) fits
          omega
        rw [address_view narrow moved]
        rfl
      case isFalse later =>
        have moved := modify_mem_indices_set (n := rest.sum) (g := (· - n)) mem
          fun _ => by omega
        exact ih (by omega) moved

theorem partsOf_view (left right : Nat) (sum : ns.sum = total) :
    PartsOf (ns.map (view left right)) (view left right total) nchwAxis := by
  refine ⟨fun d mem => ?_, ?_⟩
  · obtain ⟨n, -, rfl⟩ := List.mem_map.mp mem
    rfl
  · rw [List.map_map]
    exact (congrArg List.sum (List.map_id ns)).trans sum

theorem dmlSplit_view (fits : left * total * right < 2 ^ 32)
    (whole : values.length = (view left right total).sizes.prod) (sum : ns.sum = total) :
    dmlSplit (view left right total) (ns.map (view left right)) nchwAxis values =
      some ((partsFrom (view left right total).sizes nchwAxis values 0 ns).map
        (List.map some)) := by
  rw [dmlSplit, if_pos (partsOf_view left right sum), split_view fits whole (by omega)]

theorem dmlJoin_view (fits : left * total * right < 2 ^ 32)
    (whole : values.length = (view left right total).sizes.prod) (sum : ns.sum = total) :
    dmlJoin ((ns.zip (partsFrom (view left right total).sizes nchwAxis values 0 ns)).map
        fun entry => (view left right entry.1, entry.2)) (view left right total) nchwAxis =
      some (values.map some) := by
  have firsts : ((ns.zip (partsFrom (view left right total).sizes nchwAxis values 0 ns)).map
      fun entry => (view left right entry.1, entry.2)).map Prod.fst = ns.map (view left right) := by
    rw [List.map_map]
    have composed : (Prod.fst ∘ fun entry : Nat × List α => (view left right entry.1, entry.2)) =
        view left right ∘ Prod.fst := rfl
    rw [composed, ← List.map_map, map_fst_zip (length_partsFrom 0 ns).ge]
  rw [dmlJoin, firsts, if_pos (partsOf_view left right sum), Option.some.injEq]
  have each : ∀ index ∈ indices (view left right total).sizes,
      joinEntry nchwAxis ((ns.zip (partsFrom (view left right total).sizes nchwAxis values 0 ns)).map
        fun entry => (view left right entry.1, entry.2)) index =
        values[flatten (view left right total).sizes index]? := by
    intro index mem
    have lt : nchwAxis < (view left right total).sizes.length := Nat.le_of_ble_eq_true rfl
    have same : (view left right total).sizes.set nchwAxis ns.sum =
        (view left right total).sizes := by
      rw [sum]
      rfl
    rw [joinEntry_view fits (by omega) (by rwa [sum]),
      joinedEntry_partsFrom whole lt (by rw [zero_add, sum]; rfl) (by rwa [same])]
    have still : index.modify nchwAxis (0 + ·) = index := by
      have identity : (0 + · : Nat → Nat) = id := funext zero_add
      rw [identity, modify_id]
    rw [still]
  rw [map_congr_left each]
  exact map_getElem?_flatten whole

end DmlTensorDesc

theorem i32_of_lt {n : Nat} (lt : n < 2 ^ 31) : i32 n = n := Int.bmod_eq_of_le (by omega) (by omega)

variable {dims : List Nat}

theorem foldl_intProduct (pos : ∀ dim ∈ dims, 0 < dim) {n : Nat}
    (lt : n * dims.prod < 2 ^ 31) :
    dims.foldl (fun (n : Int) (dim : Nat) => i32 (n * dim)) n = (n * dims.prod : Nat) := by
  induction dims generalizing n with
  | nil => rw [foldl_nil, prod_nil, mul_one]
  | cons dim rest ih =>
    obtain ⟨-, later⟩ := forall_mem_cons.mp pos
    have restPositive : 0 < rest.prod := List.prod_pos_iff_forall_pos_nat.mpr later
    rw [prod_cons, ← mul_assoc] at lt ⊢
    have first : n * dim < 2 ^ 31 := lt_of_le_of_lt (Nat.le_mul_of_pos_right _ restPositive) lt
    have step : i32 ((n : Int) * dim) = (n * dim : Nat) := by rw [← Nat.cast_mul, i32_of_lt first]
    rw [foldl_cons, step, ih later lt]

theorem intProduct_eq (pos : ∀ dim ∈ dims, 0 < dim) (lt : dims.prod < 2 ^ 31) :
    intProduct dims = dims.prod := by
  have folded := foldl_intProduct pos (n := 1) (by rwa [one_mul])
  rw [one_mul] at folded
  exact folded

end TfDml
