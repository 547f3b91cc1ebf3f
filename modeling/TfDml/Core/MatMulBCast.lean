import TfDml.Core.BCastRuns

/-! # Batch indices

A mapping from the batches of the output to those of an operand is made by copying what is there
already, once for each further index of a dimension.
-/

namespace TfDml

open Lib List Option
open RangeOp (i64)

namespace MatMulBCast

/-- An element of `out_indices` is copied. Without a result, one of both does not exist. -/
def copyIndex (numOutputElements incr : Int) (out : List Int) (k : Nat) : Option (List Int) := do
  let value ← out[k]?
  let position := i64 (numOutputElements + k)
  if 0 ≤ position ∧ position < out.length then
    some (out.set position.toNat (i64 (value + incr)))
  else none

structure Mapping where
  out : List Int
  numOutputElements : Int
  numInputElements : Int

def Mapping.addDim (reshape bcast : Int) (mapping : Mapping) : Option Mapping := do
  let dim := max reshape bcast
  let incr := if 1 < bcast then 0 else mapping.numInputElements
  let count := i64 (i64 (dim - 1) * mapping.numOutputElements)
  let out ← (List.range count.toNat).foldlM (copyIndex mapping.numOutputElements incr) mapping.out
  return ⟨out, i64 (mapping.numOutputElements * dim), i64 (mapping.numInputElements * reshape)⟩

def addDims (start : Mapping) : List (Int × Int) → Option Mapping
  | [] => some start
  | (reshape, bcast) :: inner => do
    let mapping ← addDims start inner
    mapping.addDim reshape bcast

/-- `ComputeBatchIndices`. Without a result, `resize` fails or an element does not exist. -/
def computeBatchIndices (outputBatchSize : Int) (reshape bcast : List Int) : Option (List Int) :=
  if outputBatchSize < 0 then none
  else
    (addDims ⟨List.replicate outputBatchSize.toNat 0, 1, 1⟩ (reshape.zip bcast)).map Mapping.out

/-- `TensorShape::num_elements` -/
def numElements64 (dims : List Int) : Int := dims.foldl (fun n dim => i64 (n * dim)) 1

end MatMulBCast

structure MatMulBCast where
  broadcastingRequired : Bool := false
  outputBatchShape : TensorShape := []
  outputBatchSize : Int := 1
  xBatchIndices : List Int := []
  yBatchIndices : List Int := []

namespace MatMulBCast

/-- The dimensions before the last two; without a result, there are no two. -/
def resized (shape : TensorShape) : Option TensorShape :=
  if 2 ≤ shape.length then some (shape.take (shape.length - 2)) else none

/-- The constructor. Without a result, it does not end as it should. -/
def create (x y : TensorShape) : Option MatMulBCast :=
  if max x.length y.length = 2 then some {}
  else do
    let xResized ← resized x
    let yResized ← resized y
    match BCast.create xResized yResized true with
    | none => some { broadcastingRequired := true }
    | some batchBcast =>
      let xBatchSize := numElements64 batchBcast.xReshape
      let yBatchSize := numElements64 batchBcast.yReshape
      let outputBatchSize := numElements64 (batchBcast.output.map Nat.cast)
      if min xBatchSize yBatchSize ≠ outputBatchSize then
        let xBatchIndices ←
          computeBatchIndices outputBatchSize batchBcast.xReshape batchBcast.xBcast
        let yBatchIndices ←
          computeBatchIndices outputBatchSize batchBcast.yReshape batchBcast.yBcast
        some ⟨true, batchBcast.output, outputBatchSize, xBatchIndices, yBatchIndices⟩
      else some { outputBatchShape := batchBcast.output, outputBatchSize := outputBatchSize }

/-- Every write is inside, and the indices are those of the batches that are broadcast. -/
def IndexesBatches (x y : TensorShape) : Prop :=
  ∃ bcast, create x y = some bcast ∧
    ∀ xBatches yBatches output, resized x = some xBatches → resized y = some yBatches →
      broadcast xBatches yBatches = some output → bcast.broadcastingRequired = true →
        bcast.xBatchIndices = (broadcastSources xBatches output).map Nat.cast ∧
          bcast.yBatchIndices = (broadcastSources yBatches output).map Nat.cast

theorem foldlM_copyIndex {due : Nat → Int} {rows incr : Nat} {out : List Int} (count : Nat)
    (room : rows + count ≤ out.length) (small : out.length < 2 ^ 63)
    (there : ∀ j < rows, out[j]? = some (due j))
    (later : ∀ j < count, due (rows + j) = due j + incr)
    (bound : ∀ j < rows + count, 0 ≤ due j ∧ due j < 2 ^ 63) (some_ : 0 < rows):
    ∃ out', (List.range count).foldlM (copyIndex rows incr) out = some out' ∧
      out'.length = out.length ∧ ∀ j < rows + count, out'[j]? = some (due j) := by
  induction count with
  | zero => exact ⟨out, rfl, rfl, there⟩
  | succ count ih =>
    obtain ⟨out', copied, length, values⟩ := ih (by omega)
      (fun j less => later j (by omega)) (fun j less => bound j (by omega))
    have value := values count (by omega)
    have position : i64 ((rows : Int) + count) = (rows + count : Nat) := by
      rw [← Nat.cast_add]
      exact RangeOp.i64_of_bounds (by omega) (by omega)
    have next := later count (by omega)
    have lt := bound (rows + count) (by omega)
    have sum : i64 (due count + incr) = due (rows + count) := by
      rw [← next]
      exact RangeOp.i64_of_bounds (by omega) (by omega)
    refine ⟨out'.set (rows + count) (due (rows + count)), ?_, ?_, fun j less => ?_⟩
    · rw [range_succ, foldlM_append, copied]
      simp only [bind_eq_bind, bind_some, foldlM_cons, foldlM_nil,
        copyIndex, value, position, sum, Int.toNat_natCast]
      rw [if_pos (by omega)]
      rfl
    · rw [length_set, length]
    · by_cases last : rows + count = j
      · rw [last, getElem?_set_self (by omega)]
      · rw [getElem?_set_ne last]
        exact values j (by omega)

structure Plain (d : TileDim) : Prop where
  some_ : 0 < d.total
  single : d.size = 1 ∨ d.copies = 1

namespace Plain

variable {d : TileDim} (plain : Plain d)

include plain

theorem size_pos : 0 < d.size := Nat.pos_of_mul_pos_right plain.some_

theorem copies_pos : 0 < d.copies := Nat.pos_of_mul_pos_left plain.some_

theorem max_eq : max d.size d.copies = d.total := by
  have size := plain.size_pos
  have copies := plain.copies_pos
  rw [TileDim.total]
  rcases plain.single with one | one
  · rw [one, one_mul]
    omega
  · rw [one, mul_one]
    omega

theorem source_succ {o : Nat} (less : o + 1 < d.total) :
    d.source (o + 1) = d.source o + if 1 < d.copies then 0 else 1 := by
  have copies := plain.copies_pos
  rw [TileDim.total] at less
  rw [TileDim.source, TileDim.source]
  rcases plain.single with one | one
  · rw [one, one_mul] at less
    rw [if_pos (by omega), one, Nat.mod_one, Nat.mod_one]
  · rw [one, mul_one] at less
    rw [if_neg (by omega), Nat.mod_eq_of_lt less, Nat.mod_eq_of_lt (by omega)]

end Plain

variable {dims : List TileDim}

theorem prod_size_le (plain : ∀ d ∈ dims, Plain d) :
    (dims.map TileDim.size).prod ≤ (dims.map TileDim.total).prod := by
  induction dims with
  | nil => exact le_refl _
  | cons d rest ih =>
    rw [forall_mem_cons] at plain
    rw [map_cons, map_cons, prod_cons, prod_cons]
    exact Nat.mul_le_mul (Nat.le_mul_of_pos_right _ plain.1.copies_pos) (ih plain.2)

theorem addDims_eq {outputBatchSize : Nat} (small : outputBatchSize < 2 ^ 63)
    (plain : ∀ d ∈ dims, Plain d) (room : (dims.map TileDim.total).prod ≤ outputBatchSize) :
    ∃ out, addDims ⟨List.replicate outputBatchSize 0, 1, 1⟩
        (dims.map fun d => ((d.size : Int), (d.copies : Int))) =
        some ⟨out, ((dims.map TileDim.total).prod : Nat), ((dims.map TileDim.size).prod : Nat)⟩ ∧
      out.length = outputBatchSize ∧ ∀ j < (dims.map TileDim.total).prod,
        out[j]? = some (Nat.cast ((tileSources dims).getD j 0)) := by
  induction dims with
  | nil =>
    refine ⟨_, rfl, length_replicate .., fun j less => ?_⟩
    obtain rfl : j = 0 := Nat.lt_one_iff.mp less
    have one : 0 < outputBatchSize := room
    rw [getElem?_replicate, if_pos one]
    rfl
  | cons d rest ih =>
    rw [forall_mem_cons] at plain
    have some_ := plain.1.some_
    rw [map_cons, prod_cons] at room
    have inner : (rest.map TileDim.total).prod ≤ outputBatchSize :=
      le_trans (Nat.le_mul_of_pos_left _ some_) room
    obtain ⟨out, added, length, values⟩ := ih plain.2 inner
    have rows : 0 < (rest.map TileDim.total).prod :=
      List.prod_pos_iff_forall_pos_nat.mpr fun total mem => by
        obtain ⟨e, lt, rfl⟩ := List.mem_map.mp mem
        exact (plain.2 e lt).some_
    have sizes : (rest.map TileDim.size).prod ≤ outputBatchSize :=
      le_trans (prod_size_le plain.2) inner
    have whole : d.size * (rest.map TileDim.size).prod ≤ outputBatchSize := by
      have bound := prod_size_le (forall_mem_cons.mpr plain)
      rw [map_cons, map_cons, prod_cons, prod_cons] at bound
      exact le_trans bound room
    have total : d.total ≤ outputBatchSize := le_trans (Nat.le_mul_of_pos_right _ rows) room
    generalize rowLength : (rest.map TileDim.total).prod = rowSize at *
    generalize xs : (rest.map TileDim.size).prod = inputs at *
    obtain ⟨more, again⟩ : ∃ more, d.total = more + 1 := ⟨d.total - 1, by omega⟩
    have split : d.total * rowSize = rowSize + more * rowSize := by
      rw [again, Nat.succ_mul, add_comm]
    have due {k : Nat} (less : k < d.total * rowSize) : (tileSources (d :: rest)).getD k 0 =
          d.source (k / rowSize) * inputs + (tileSources rest).getD (k % rowSize) 0 := by
      rw [getD_tileSources_cons (rowLength.symm ▸ less), rowLength, xs]
    obtain ⟨out', copied, length', values'⟩ := @foldlM_copyIndex
      (fun j => Nat.cast ((tileSources (d :: rest)).getD j 0)) rowSize
      (if 1 < d.copies then 0 else inputs) out (more * rowSize) (by omega) (by omega)
      (fun j less => by
        rw [values j less, due (by omega), Nat.div_eq_of_lt less, Nat.mod_eq_of_lt less,
          TileDim.source, Nat.zero_mod, zero_mul, zero_add])
      (fun j less => by
        have earlier : j / rowSize < more := (Nat.div_lt_iff_lt_mul rows).mpr less
        rw [due (by omega), due (by omega), Nat.add_div_left _ rows, Nat.add_mod_left,
          plain.1.source_succ (by omega)]
        split <;> push_cast <;> ring)
      (fun j less => by
        have lt : j < (tileSources (d :: rest)).length := by
          rw [length_tileSources, map_cons, prod_cons, rowLength]
          omega
        have below := tileSources_lt (getElem_mem lt)
        rw [map_cons, prod_cons, xs] at below
        rw [getD_eq_getElem _ _ lt]
        omega) rows
    have dim : max (d.size : Int) d.copies = d.total := by
      have sizes := plain.1.max_eq
      omega
    have count : i64 (i64 ((d.total : Int) - 1) * rowSize) = (more * rowSize : Nat) := by
      have first : i64 ((d.total : Int) - 1) = more := by
        rw [again, Nat.cast_succ, Int.add_sub_cancel]
        exact RangeOp.i64_of_bounds (by omega) (by omega)
      rw [first, ← Nat.cast_mul]
      exact RangeOp.i64_of_bounds (by omega) (by omega)
    have incr : (if 1 < (d.copies : Int) then 0 else (inputs : Int)) =
        (if 1 < d.copies then 0 else inputs : Nat) := by
      by_cases many : 1 < d.copies <;> simp [many]
    have outs' : i64 ((rowSize : Int) * d.total) = (d.total * rowSize : Nat) := by
      rw [← Nat.cast_mul, mul_comm]
      exact RangeOp.i64_of_bounds (by omega) (by omega)
    have inputs' : i64 ((inputs : Int) * d.size) = (d.size * inputs : Nat) := by
      rw [← Nat.cast_mul, mul_comm]
      exact RangeOp.i64_of_bounds (by omega) (by omega)
    refine ⟨out', ?_, length'.trans length, fun j less => ?_⟩
    · simp only [map_cons, addDims, added, bind_eq_bind, bind_some,
        Mapping.addDim, dim, count, Int.toNat_natCast, incr, copied, outs', inputs',
        prod_cons, rowLength, xs]
      rfl
    · rw [map_cons, prod_cons, rowLength] at less
      exact values' j (Nat.lt_of_lt_of_eq less split)

theorem computeBatchIndices_eq (plain : ∀ d ∈ dims, Plain d)
    (small : (dims.map TileDim.total).prod < 2 ^ 63) :
    computeBatchIndices ((dims.map TileDim.total).prod : Nat)
        (dims.map fun d => (d.size : Int)) (dims.map fun d => (d.copies : Int)) =
      some ((tileSources dims).map Nat.cast) := by
  obtain ⟨out, added, length, values⟩ := addDims_eq small plain (le_refl _)
  rw [computeBatchIndices, if_neg (by omega), Int.toNat_natCast, zip_map', added, map_some]
  refine congrArg some (ext_getElem? fun j => ?_)
  simp only
  by_cases lt : j < (dims.map TileDim.total).prod
  · have due : j < (tileSources dims).length := by rwa [length_tileSources]
    rw [values j lt, getElem?_map, getElem?_eq_getElem due, getD_eq_getElem _ _ due]
    rfl
  · rw [getElem?_eq_none (by omega), getElem?_eq_none]
    rw [length_map, length_tileSources]
    omega

variable {numOutputElements incr : Int} {out out' : List Int}

theorem length_copyIndex {k : Nat} (copied : copyIndex numOutputElements incr out k = some out') :
    out'.length = out.length := by
  rw [copyIndex] at copied
  obtain ⟨value, -, step⟩ := bind_eq_some_iff.mp copied
  simp only [ite_none_right_eq_some] at step
  rw [← some.inj step.2, length_set]

theorem length_foldlM_copyIndex {positions : List Nat}
    (copied : positions.foldlM (copyIndex numOutputElements incr) out = some out') :
    out'.length = out.length := by
  induction positions generalizing out with
  | nil => rw [some.inj copied]
  | cons k rest ih =>
    rw [foldlM_cons] at copied
    obtain ⟨next, first, later⟩ := bind_eq_some_iff.mp copied
    exact (ih later).trans (length_copyIndex first)

theorem length_addDims {start mapping : Mapping} {dims : List (Int × Int)}
    (added : addDims start dims = some mapping) : mapping.out.length = start.out.length := by
  induction dims generalizing mapping with
  | nil => rw [some.inj added]
  | cons d rest ih =>
    obtain ⟨inner, first, later⟩ := bind_eq_some_iff.mp added
    obtain ⟨out, copied, same⟩ := bind_eq_some_iff.mp later
    rw [← some.inj same]
    exact (length_foldlM_copyIndex copied).trans (ih first)

theorem length_computeBatchIndices {outputBatchSize : Int} {reshape bcast indices_ : List Int}
    (eq : computeBatchIndices outputBatchSize reshape bcast = some indices_) :
    indices_.length = outputBatchSize.toNat := by
  rw [computeBatchIndices] at eq
  split at eq
  · exact nomatch eq
  · obtain ⟨mapping, added, rfl⟩ := map_eq_some_iff.mp eq
    rw [length_addDims added, length_replicate]

end MatMulBCast

end TfDml
