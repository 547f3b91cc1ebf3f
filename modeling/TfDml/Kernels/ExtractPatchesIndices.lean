import TfDml.Kernels.ExtractPatches

/-! # The indices of the patches

The indices of an axis are a row of numbers, whichever way they are built. The rows are added up
in all combinations, so that each element of a patch has its position in the padded input.
-/

namespace TfDml.ExtractPatches

open Lib Option
open List hiding flatten
open DmlGraph (Expression address_append address_zero indices_pair indices_trailing
  lastElement_append lastElement_packed lastElement_zero)
open DmlTensorDesc (Addressed address address_cons lastElement lastElement_cons packedStrides)

structure Row (t : Expression Nat) (values : List Nat) : Prop where
  strides : t.strides = none
  sizes : ∃ m n, t.sizes = [1, 1, m, n] ∧ n * m = values.length
  buffer : t.buffer = values.map some

namespace PatchAxis

variable (axis : PatchAxis)

/-- There is a patch, and it has an element. -/
structure Fits : Prop where
  out : 1 ≤ axis.outSize
  window : 1 ≤ axis.windowSize

def position (o k : Nat) : Nat := o * axis.windowStride + k * axis.windowRate

/-- The indices of an axis whose elements are `step` apart. -/
def values (step : Nat) : List Nat :=
  (List.range axis.outSize).flatMap fun o =>
    (List.range axis.windowSize).map fun k => axis.position o k * step % 2 ^ 32

theorem length_values (step : Nat) :
    (axis.values step).length = axis.outSize * axis.windowSize := by
  simp [values]

end PatchAxis

theorem buffer_sequence (step : Nat) {sizes : List Nat} {n : Nat} (count : sizes.prod = n) :
    (Expression.sequence step sizes).buffer =
      ((List.range n).map fun k => k * step % 2 ^ 32).map some := by
  rw [Expression.sequence, Expression.ofIndices, ← count, ← map_flatten_indices, List.map_map,
    List.map_map]
  rfl

theorem indices_four (m n : Nat) : indices [1, 1, m, n] =
      (List.range m).flatMap fun o => (List.range n).map fun k => [0, 0, o, k] := by
  have leading := indices_leading 2 [m, n]
  rw [indices_pair, map_flatMap] at leading
  refine leading.trans (flatMap_congr fun o _ => ?_)
  rw [List.map_map]
  rfl

theorem mem_indices_four {m n o k : Nat} (outer : o < m) (inner : k < n) :
    [0, 0, o, k] ∈ indices [1, 1, m, n] := by
  rw [indices_four]
  exact mem_flatMap.mpr
    ⟨o, mem_range.mpr outer, List.mem_map.mpr ⟨k, mem_range.mpr inner, rfl⟩⟩

theorem read_tile (step : Nat) {m n o k : Nat} (outer : o < m) (inner : k < n) :
    ((Expression.sequence step [1, 1, m, 1]).tile [1, 1, 1, n]).read [0, 0, o, k] =
      some (o * step % 2 ^ 32) := by
  have mem : [0, 0, o, k] ∈ indices [1, 1, m, n] := mem_indices_four outer inner
  have first : [0, 0, o, 0] ∈ indices [1, 1, m, 1] := mem_indices_four outer one_pos
  have sizes : List.zipWith (· * ·) [1, 1, m, 1] [1, 1, 1, n] = [1, 1, m, n] := by simp
  have src : List.zipWith (· % ·) [0, 0, o, k] [1, 1, m, 1] = [0, 0, o, 0] := by
    simp [Nat.mod_one, Nat.mod_eq_of_lt outer]
  rw [Expression.tile, Expression.sequence]
  simp only [Expression.ofIndices, sizes]
  rw [← Expression.ofIndices, ← Expression.ofIndices, Expression.read_ofIndices mem, src,
    Expression.read_ofIndices first]
  simp [flatten]

theorem read_relative (step : Nat) {m n o k : Nat} (inner : k < n) :
    (⟨[1, 1, m, n], some [0, 0, 0, 1], (Expression.sequence step [1, 1, 1, n]).buffer⟩ :
      Expression Nat).read [0, 0, o, k] = some (k * step % 2 ^ 32) := by
  rw [Expression.read, Expression.place, buffer_sequence step (n := n) (by simp)]
  simp [address, inner]

theorem row_globalIndices {axis : PatchAxis} (fits : axis.Fits) (step : Nat) :
    ∃ t, axis.globalIndices (step % 2 ^ 32) = some t ∧ Row t (axis.values step) := by
  have patchStep (o : Nat) : o * (step % 2 ^ 32 * axis.windowStride % 2 ^ 32) % 2 ^ 32 =
      o * axis.windowStride * step % 2 ^ 32 := by
    rw [Nat.mul_mod_mod, ← mul_assoc, Nat.mul_right_comm, Nat.mul_mod_mod]
  have elementStep (k : Nat) : k * (step % 2 ^ 32 * axis.windowRate % 2 ^ 32) % 2 ^ 32 =
      k * axis.windowRate * step % 2 ^ 32 := by
    rw [Nat.mul_mod_mod, ← mul_assoc, Nat.mul_right_comm, Nat.mul_mod_mod]
  rw [PatchAxis.globalIndices]
  by_cases both : 1 < axis.outSize ∧ 1 < axis.windowSize
  · have view : (Expression.sequence (step % 2 ^ 32 * axis.windowRate % 2 ^ 32)
        [1, 1, 1, axis.windowSize]).reinterpret [1, 1, axis.outSize, axis.windowSize]
        (some [0, 0, 0, 1]) = some ⟨[1, 1, axis.outSize, axis.windowSize], some [0, 0, 0, 1],
          (Expression.sequence (step % 2 ^ 32 * axis.windowRate % 2 ^ 32)
            [1, 1, 1, axis.windowSize]).buffer⟩ := by
      refine Expression.reinterpret_eq_some.mpr ⟨rfl, ?_⟩
      simp only [Expression.extent, Expression.sequence, Expression.ofIndices, lastElement,
        length_map, length_indices]
      simp
      omega
    have sizes : ((Expression.sequence (step % 2 ^ 32 * axis.windowStride % 2 ^ 32)
        [1, 1, axis.outSize, 1]).tile [1, 1, 1, axis.windowSize]).sizes =
        [1, 1, axis.outSize, axis.windowSize] := by
      simp [Expression.tile, Expression.sequence, Expression.ofIndices]
    rw [if_pos both]
    simp only [view, bind_eq_bind, bind_some, Expression.add, sizes, if_true]
    refine ⟨_, rfl, rfl, ⟨_, _, rfl, ?_⟩, ?_⟩
    · rw [axis.length_values, mul_comm]
    · rw [Expression.ofIndices, indices_four, PatchAxis.values, map_flatMap, map_flatMap]
      refine flatMap_congr fun o outer => ?_
      rw [List.map_map, List.map_map]
      refine map_congr_left fun k inner => ?_
      rw [Function.comp_apply, read_tile _ (mem_range.mp outer) (mem_range.mp inner),
        read_relative _ (mem_range.mp inner), patchStep, elementStep]
      simp only [bind_some, Function.comp_apply, PatchAxis.position, Nat.add_mul]
      exact congrArg some (Nat.add_mod _ _ _).symm
  rw [if_neg both]
  by_cases many : 1 < axis.outSize
  · have one : axis.windowSize = 1 := by
      have window := fits.window
      omega
    rw [if_pos many]
    refine ⟨_, rfl, rfl, ⟨_, _, rfl, ?_⟩, ?_⟩
    · rw [axis.length_values, one, one_mul, mul_one]
    · rw [buffer_sequence _ (n := axis.outSize) (by simp), PatchAxis.values, one]
      simp only [range_one, map_singleton, ← map_eq_flatMap]
      refine congrArg _ (map_congr_left fun o _ => ?_)
      rw [patchStep, PatchAxis.position, zero_mul, add_zero]
  · have one : axis.outSize = 1 := by
      have out := fits.out
      omega
    rw [if_neg many, if_pos fits.window]
    refine ⟨_, rfl, rfl, ⟨_, _, rfl, ?_⟩, ?_⟩
    · rw [axis.length_values, one, one_mul, mul_one]
    · rw [buffer_sequence _ (n := axis.windowSize) (by simp), PatchAxis.values, one]
      simp only [range_one, flatMap_singleton]
      refine congrArg _ (map_congr_left fun k _ => ?_)
      rw [elementStep, PatchAxis.position, zero_mul, zero_add]

def allValues : List PatchAxis → List (List Nat)
  | [] => []
  | axis :: inner => axis.values (inner.map PatchAxis.paddedSize).prod :: allValues inner

theorem exists_globalIndices {axes : List PatchAxis} (fits : ∀ axis ∈ axes, axis.Fits) :
    ∃ ts, globalIndices axes = some (ts, (axes.map PatchAxis.paddedSize).prod % 2 ^ 32) ∧
      List.Forall₂ Row ts (allValues axes) := by
  induction axes with
  | nil => exact ⟨[], rfl, .nil⟩
  | cons axis inner ih =>
    rw [forall_mem_cons] at fits
    obtain ⟨ts, got, rows⟩ := ih fits.2
    obtain ⟨t, first, row⟩ := row_globalIndices fits.1 (inner.map PatchAxis.paddedSize).prod
    refine ⟨t :: ts, ?_, .cons row rows⟩
    simp only [globalIndices, got, bind_eq_bind, bind_some, first,
      Nat.mul_mod_mod, map_cons, prod_cons, mul_comm]
    rfl

/-- The sums of an entry of each row, in 32 bits. -/
def sums : List (List Nat) → List Nat
  | [] => [0]
  | values :: inner => values.flatMap fun v => (sums inner).map fun s => (s + v) % 2 ^ 32

theorem length_sums (rows : List (List Nat)) :
    (sums rows).length = (rows.map List.length).prod := by
  induction rows with
  | nil => rfl
  | cons values inner ih => simp [sums, ih]

theorem set_replicate {β : Type} (i : Nat) (a x : β) (rest : List β) :
    (List.replicate (i + 1 + 1) a ++ rest).set (i + 1) x =
      List.replicate (i + 1) a ++ x :: rest := by
  rw [replicate_succ', append_assoc, set_append_right _ _ (by simp), length_replicate, Nat.sub_self]
  rfl

structure Spec (i : Nat) (rows : List (List Nat)) (b : Broadcasted) : Prop where
  sizes : b.sizes = List.replicate (i + 1) 1 ++ (rows.map List.length ++ [1])
  strides : b.strides = List.replicate (i + 1) 0 ++ (packedStrides (rows.map List.length) ++ [0])
  runningStride : b.runningStride = (rows.map List.length).prod
  first : rows = [] → b.indices = none
  indices : rows ≠ [] → ∃ t, b.indices = some t ∧ t.buffer = (sums rows).map some

theorem indices_between (i : Nat) (sizes : List Nat) :
    indices (List.replicate i 1 ++ (sizes ++ [1])) =
      (indices sizes).map fun index => List.replicate i 0 ++ (index ++ [0]) := by
  rw [indices_leading, indices_trailing, List.map_map]
  rfl

section Visit

variable {t : Expression Nat} {values : List Nat} {rows : List (List Nat)}

theorem lengths_pos (pos : ∀ values ∈ rows, values ≠ []) :
    ∀ size ∈ rows.map List.length, 0 < size := by
  intro size mem
  obtain ⟨values, lt, rfl⟩ := List.mem_map.mp mem
  exact length_pos_iff.mpr (pos values lt)

theorem length_lt (some_ : values ≠ []) (pos : ∀ values ∈ rows, values ≠ [])
    (lt : ((values :: rows).map List.length).prod < 2 ^ 32) :
    values.length < 2 ^ 32 ∧ (rows.map List.length).prod < 2 ^ 32 := by
  have inner := List.prod_pos_iff_forall_pos_nat.mpr (lengths_pos pos)
  have outer := length_pos_iff.mpr some_
  rw [map_cons, prod_cons] at lt
  exact ⟨lt_of_le_of_lt (Nat.le_mul_of_pos_right _ inner) lt,
    lt_of_le_of_lt (Nat.le_mul_of_pos_left _ outer) lt⟩

theorem reinterpret_row (row : Row t values) (some_ : values ≠ []) (i : Nat) (sizes : List Nat) :
    t.reinterpret (List.replicate (i + 1) 1 ++ values.length :: sizes)
        (some (List.replicate (i + 1) 0 ++ 1 :: List.replicate sizes.length 0)) =
      some ⟨List.replicate (i + 1) 1 ++ values.length :: sizes,
        some (List.replicate (i + 1) 0 ++ 1 :: List.replicate sizes.length 0),
        values.map some⟩ := by
  have count := length_pos_iff.mpr some_
  refine Expression.reinterpret_eq_some.mpr ⟨by rw [row.buffer], ?_⟩
  rw [row.buffer, length_map, Expression.extent]
  simp only
  rw [lastElement_append (by simp), lastElement_zero, lastElement_cons, lastElement_zero]
  omega

theorem reinterpret_inner {inner : Expression Nat} (buffer : inner.buffer = (sums rows).map some)
    (pos : ∀ values ∈ rows, values ≠ []) (lt : (rows.map List.length).prod < 2 ^ 32)
    (i n : Nat) : inner.reinterpret (List.replicate (i + 1) 1 ++ n :: (rows.map List.length ++ [1]))
        (some (List.replicate (i + 1) 0 ++ 0 :: (packedStrides (rows.map List.length) ++ [0]))) =
      some ⟨List.replicate (i + 1) 1 ++ n :: (rows.map List.length ++ [1]),
        some (List.replicate (i + 1) 0 ++ 0 :: (packedStrides (rows.map List.length) ++ [0])),
        (sums rows).map some⟩ := by
  have packed := lastElement_packed (lengths_pos pos) lt
  refine Expression.reinterpret_eq_some.mpr ⟨by rw [buffer], ?_⟩
  rw [buffer, length_map, length_sums, Expression.extent]
  simp only
  rw [lastElement_append (by simp), lastElement_zero, lastElement_cons, mul_zero,
    lastElement_append (DmlTensorDesc.length_packedStrides _).symm, ← packed]
  simp [lastElement]

theorem add_rows (i : Nat) (lt : (rows.map List.length).prod < 2 ^ 32) {sizes : List Nat}
    (shape : sizes = List.replicate (i + 1) 1 ++ values.length :: (rows.map List.length ++ [1])) :
    ∃ sum, (⟨sizes, some (List.replicate (i + 1) 0 ++
          0 :: (packedStrides (rows.map List.length) ++ [0])), (sums rows).map some⟩ :
        Expression Nat).add ⟨sizes, some (List.replicate (i + 1) 0 ++
          1 :: List.replicate (rows.map List.length ++ [1]).length 0), values.map some⟩ = some sum ∧
      sum.buffer = (sums (values :: rows)).map some := by
  refine ⟨_, if_pos rfl, ?_⟩
  have mid := indices_between (i + 1) (values.length :: rows.map List.length)
  rw [cons_append] at mid
  simp only [Expression.ofIndices, shape, mid, List.map_map]
  have addr := DmlTensorDesc.addressed_of_lt lt
  have flat := map_getD_range values 0
  have read : (indices (rows.map List.length)).map (fun index =>
      (sums rows).getD (flatten (rows.map List.length) index) 0) = sums rows := by
    have positions := map_getD_range (sums rows) 0
    rw [length_sums, ← map_flatten_indices, List.map_map] at positions
    exact positions
  rw [indices, map_flatMap, sums, map_flatMap]
  conv_rhs => rw [← flat, flatMap_map]
  refine flatMap_congr fun q inside => ?_
  rw [List.map_map, List.map_map]
  conv_rhs => rw [← read, List.map_map]
  refine map_congr_left fun index mem => ?_
  have place : flatten (rows.map List.length) index < (sums rows).length := by
    rw [length_sums]
    exact flatten_lt mem
  have first : address (List.replicate (i + 1) 0 ++
      0 :: (packedStrides (rows.map List.length) ++ [0]))
      (List.replicate (i + 1) 0 ++ (q :: index ++ [0])) = flatten (rows.map List.length) index := by
    rw [DmlTensorDesc.address_leading, cons_append, address_cons, address_append,
      addr index mem, mul_zero, zero_add]
    · simp [address]
    · rw [DmlTensorDesc.length_packedStrides, length_of_mem_indices mem]
  have second : address (List.replicate (i + 1) 0 ++
      1 :: List.replicate (rows.map List.length ++ [1]).length 0)
      (List.replicate (i + 1) 0 ++ (q :: index ++ [0])) = q := by
    rw [DmlTensorDesc.address_leading, cons_append, address_cons, address_zero, mul_one, add_zero]
  have outer := mem_range.mp inside
  simp only [Function.comp_apply, Expression.read, Expression.place, first, second, getElem?_map,
    getElem?_eq_getElem place, getElem?_eq_getElem outer, map_some, join_some, bind_eq_bind,
    bind_some, getD_eq_getElem _ _ place, getD_eq_getElem _ _ outer]
  rfl

theorem visit_spec {i dimCount : Nat} {b : Broadcasted} (row : Row t values)
    (spec : Spec (i + 1) rows b) (dims : dimCount = i + 1 + 1 + (rows.length + 1))
    (some_ : values ≠ []) (pos : ∀ values ∈ rows, values ≠ [])
    (below : ∀ v ∈ values, v < 2 ^ 32)
    (lt : ((values :: rows).map List.length).prod < 2 ^ 32) :
    ∃ b', b.visit dimCount i t = some b' ∧ Spec i (values :: rows) b' := by
  obtain ⟨length, inner⟩ := length_lt some_ pos lt
  obtain ⟨m, n, sizes, count⟩ := row.sizes
  have lens : t.sizes.getD 3 0 * t.sizes.getD 2 0 % 2 ^ 32 = values.length := by
    rw [sizes]
    exact (congrArg (· % 2 ^ 32) count).trans (Nat.mod_eq_of_lt length)
  have shape : b.sizes.set (i + 1) values.length =
      List.replicate (i + 1) 1 ++ values.length :: (rows.map List.length ++ [1]) := by
    rw [spec.sizes, set_replicate]
  have strides : b.strides.set (i + 1) b.runningStride = List.replicate (i + 1) 0 ++
      (packedStrides ((values :: rows).map List.length) ++ [0]) := by
    rw [spec.strides, set_replicate, spec.runningStride, map_cons, packedStrides,
      Nat.mod_eq_of_lt inner]
    rfl
  have single : (List.replicate dimCount 0).set (i + 1) 1 = List.replicate (i + 1) 0 ++
      1 :: List.replicate (rows.map List.length ++ [1]).length 0 := by
    rw [dims, ← replicate_append_replicate, set_replicate, length_append, length_map]
    rfl
  have running : b.runningStride * values.length % 2 ^ 32 =
      ((values :: rows).map List.length).prod := by
    rw [spec.runningStride, mul_comm, ← prod_cons, ← map_cons (f := List.length)]
    exact Nat.mod_eq_of_lt lt
  have view := reinterpret_row row some_ i (rows.map List.length ++ [1])
  simp only [Broadcasted.visit, lens, shape, strides, single, view, running,
    bind_eq_bind, bind_some]
  by_cases first : rows = []
  · rw [spec.first first]
    refine ⟨_, rfl, ?_, rfl, rfl, (fun none_ => absurd none_ (cons_ne_nil _ _)), fun _ => ⟨_, rfl, ?_⟩⟩
    · rw [map_cons]
      rfl
    · rw [first, sums, sums]
      simp only [map_singleton, zero_add, ← map_eq_flatMap]
      refine congrArg _ ((map_congr_left fun v mem => ?_).trans (List.map_id _)).symm
      exact Nat.mod_eq_of_lt (below v mem)
  · obtain ⟨x, isInner, buffer⟩ := spec.indices first
    have strides' : b.strides = List.replicate (i + 1) 0 ++
        0 :: (packedStrides (rows.map List.length) ++ [0]) := by
      rw [spec.strides, replicate_succ', append_assoc]
      rfl
    obtain ⟨sum, added, buffer'⟩ := @add_rows values rows i inner _ rfl
    rw [isInner]
    simp only [strides', reinterpret_inner buffer pos inner, bind_some, added]
    refine ⟨_, rfl, ?_, rfl, rfl, (fun none_ => absurd none_ (cons_ne_nil _ _)), fun _ => ⟨_, rfl, buffer'⟩⟩
    rw [map_cons]
    rfl

end Visit

theorem broadcastIndices_spec {ts : List (Expression Nat)} {rows : List (List Nat)}
    (related : List.Forall₂ Row ts rows) (some_ : ∀ values ∈ rows, values ≠ [])
    (below : ∀ values ∈ rows, ∀ v ∈ values, v < 2 ^ 32)
    (lt : (rows.map List.length).prod < 2 ^ 32) {i dimCount : Nat}
    (dims : dimCount = i + 1 + (rows.length + 1)) :
    ∃ b, broadcastIndices dimCount i ts = some b ∧ Spec i rows b := by
  induction related generalizing i with
  | nil =>
    refine ⟨_, rfl, ?_, ?_, rfl, fun _ => rfl, fun absurd_ => absurd rfl absurd_⟩
    · rw [dims]
      exact replicate_succ' (n := i + 1)
    · rw [dims]
      exact replicate_succ' (n := i + 1)
  | @cons t values ts rows row related ih =>
    rw [forall_mem_cons] at some_ below
    obtain ⟨-, inner⟩ := length_lt some_.1 some_.2 lt
    rw [length_cons] at dims
    obtain ⟨b, got, spec⟩ := ih some_.2 below.2 inner (i := i + 1) (by omega)
    obtain ⟨b', seen, spec'⟩ :=
      @visit_spec t values rows i dimCount b row spec (by omega) some_.1 some_.2 below.1 lt
    exact ⟨b', by rw [broadcastIndices, got]; exact seen, spec'⟩

/-- The patches and the elements of a patch, of each axis. -/
def groups (axes : List PatchAxis) : List (List Nat) :=
  axes.map fun axis => [axis.outSize, axis.windowSize]

/-- The position on each axis, from the patch and the element on each. -/
def positions : List PatchAxis → List Nat → List Nat
  | axis :: axes, o :: k :: index => axis.position o k :: positions axes index
  | _, _ => []

def spatialPosition (axes : List PatchAxis) (index : List Nat) : Nat :=
  flatten (axes.map PatchAxis.paddedSize) (positions axes index)

theorem lengths_allValues (axes : List PatchAxis) :
    (allValues axes).map List.length = (groups axes).map List.prod := by
  induction axes with
  | nil => rfl
  | cons axis inner ih =>
    have shape : groups (axis :: inner) = [axis.outSize, axis.windowSize] :: groups inner := rfl
    rw [allValues, map_cons, ih, axis.length_values, shape, map_cons, prod_cons, prod_singleton]

theorem allValues_ne_nil {axes : List PatchAxis} (fits : ∀ axis ∈ axes, axis.Fits) :
    ∀ values ∈ allValues axes, values ≠ [] := by
  induction axes with
  | nil => exact fun values mem => nomatch mem
  | cons axis inner ih =>
    rw [forall_mem_cons] at fits
    refine forall_mem_cons.mpr ⟨fun empty => ?_, ih fits.2⟩
    have length := axis.length_values (inner.map PatchAxis.paddedSize).prod
    rw [empty, length_nil] at length
    have both := Nat.mul_pos fits.1.out fits.1.window
    omega

theorem allValues_lt (axes : List PatchAxis) :
    ∀ values ∈ allValues axes, ∀ v ∈ values, v < 2 ^ 32 := by
  induction axes with
  | nil => exact fun values mem => nomatch mem
  | cons axis inner ih =>
    refine forall_mem_cons.mpr ⟨fun v mem => ?_, ih⟩
    obtain ⟨o, -, lt⟩ := mem_flatMap.mp mem
    obtain ⟨k, -, rfl⟩ := List.mem_map.mp lt
    exact Nat.mod_lt _ (by decide)

theorem sums_allValues (axes : List PatchAxis) :
    sums (allValues axes) = (indices (groups axes).flatten).map fun index =>
      spatialPosition axes index % 2 ^ 32 := by
  induction axes with
  | nil => rfl
  | cons axis inner ih =>
    have shape : (groups (axis :: inner)).flatten =
        axis.outSize :: axis.windowSize :: (groups inner).flatten := rfl
    rw [allValues, sums, ih, PatchAxis.values, shape, indices, flatMap_assoc, map_flatMap]
    refine flatMap_congr fun o _ => ?_
    rw [indices, map_flatMap, map_flatMap, flatMap_map]
    refine flatMap_congr fun k _ => ?_
    rw [List.map_map, List.map_map, List.map_map]
    refine map_congr_left fun index _ => ?_
    simp only [Function.comp_apply, spatialPosition, positions, map_cons, flatten]
    rw [← Nat.add_mod, add_comm]

theorem gatherIndices_eq {axes : List PatchAxis} (fits : ∀ axis ∈ axes, axis.Fits)
    (some_ : axes ≠ []) (lt : (groups axes).flatten.prod < 2 ^ 32) : gatherIndices axes = some
      (⟨[1, 1, 1, (groups axes).flatten.prod], none,
        ((indices (groups axes).flatten).map fun index =>
          spatialPosition axes index % 2 ^ 32).map some⟩, (groups axes).flatten.prod) := by
  obtain ⟨ts, got, rows⟩ := exists_globalIndices fits
  have lens := lengths_allValues axes
  have count := congrArg List.prod lens
  rw [← prod_flatten] at count
  have dims : axes.length + 2 = 0 + 1 + ((allValues axes).length + 1) := by
    have same := congrArg List.length lens
    rw [length_map, length_map, groups, length_map] at same
    omega
  obtain ⟨b, broadcasted, spec⟩ := broadcastIndices_spec rows (allValues_ne_nil fits)
    (allValues_lt axes) (count ▸ lt) dims
  have rows_ : allValues axes ≠ [] := by
    cases axes with
    | nil => exact absurd rfl some_
    | cons axis inner => exact fun empty => nomatch empty
  obtain ⟨t, isSum, buffer⟩ := spec.indices rows_
  have running := spec.runningStride.trans count
  have row : t.reinterpret [1, 1, 1, b.runningStride] none =
      some ⟨[1, 1, 1, b.runningStride], none, t.buffer⟩ := by
    refine Expression.reinterpret_eq_some.mpr ⟨rfl, ?_⟩
    rw [buffer, length_map, length_sums, ← spec.runningStride]
    simp [Expression.extent]
  simp only [gatherIndices, got, broadcasted, isSum, row, bind_eq_bind, bind_some]
  rw [buffer, sums_allValues, running]
  rfl

end TfDml.ExtractPatches
