import TfDml.Kernels.ExtractPatchesIndices
import TfDml.Lib.Grouping

/-! # The gathered patches

The gathered elements are permuted by their strides, so that those of a patch are together.
-/

namespace TfDml.ExtractPatches

open Lib Option
open List hiding flatten
open DmlGraph (Expression lastElement_packed)
open DmlTensorDesc (address lastElement packedStrides)

theorem everySecond_cons_tail (x : Nat) (l : List Nat) :
    everySecond (x :: l) = x :: everySecond l.tail := by
  cases l with
  | nil => rfl
  | cons y rest => rfl

variable {l l' : List Nat}

theorem sum_everySecond (f : Nat → Nat → Nat) (length : l.length = l'.length) :
    (List.zipWith f l l').sum = (List.zipWith f (everySecond l) (everySecond l')).sum +
        (List.zipWith f (everySecond l.tail) (everySecond l'.tail)).sum := by
  induction l generalizing l' with
  | nil => rfl
  | cons x rest ih =>
    cases l' with
    | nil => simp at length
    | cons y rest' =>
      have inner := ih (Nat.succ_injective length)
      rw [everySecond_cons_tail, everySecond_cons_tail, tail_cons, tail_cons,
        zipWith_cons_cons, zipWith_cons_cons, sum_cons, sum_cons, inner]
      omega

theorem length_everySecond (length : l.length = l'.length) :
    (everySecond l).length = (everySecond l').length ∧
      (everySecond l.tail).length = (everySecond l'.tail).length := by
  induction l generalizing l' with
  | nil =>
    obtain rfl := length_eq_zero_iff.mp length.symm
    exact ⟨rfl, rfl⟩
  | cons x rest ih =>
    cases l' with
    | nil => simp at length
    | cons y rest' =>
      obtain ⟨first, snd⟩ := ih (Nat.succ_injective length)
      rw [everySecond_cons_tail, everySecond_cons_tail, length_cons, length_cons, snd]
      exact ⟨rfl, first⟩

theorem middle_between {β : Type} (x y : β) (l : List β) : middle ([x] ++ l ++ [y]) = l := by
  rw [middle, append_assoc, singleton_append, tail_cons, dropLast_concat]

theorem permute_eq (x y : Nat) (l : List Nat) :
    permute ([x] ++ l ++ [y]) = [x] ++ everySecond l ++ everySecond l.tail ++ [y] := by
  have last : ([x] ++ l ++ [y]).drop (([x] ++ l ++ [y]).length - 1) = [y] := by
    rw [length_append, length_singleton, Nat.add_sub_cancel, drop_left]
  rw [permute, middle_between, last]
  rfl

theorem sum_permute (f : Nat → Nat → Nat) (x y x' y' : Nat) (length : l.length = l'.length) :
    (List.zipWith f (permute ([x] ++ l ++ [y])) (permute ([x'] ++ l' ++ [y']))).sum =
      (List.zipWith f ([x] ++ l ++ [y]) ([x'] ++ l' ++ [y'])).sum := by
  obtain ⟨first, snd⟩ := length_everySecond length
  have one : ([x] : List Nat).length = [x'].length := rfl
  rw [permute_eq, permute_eq, zipWith_append (by simp [first, snd]),
    zipWith_append (by simp [first]), zipWith_append one,
    zipWith_append (by simp [length]), zipWith_append one, sum_append,
    sum_append, sum_append, sum_append, sum_append, sum_everySecond f length]
  omega

variable {n : Nat}

theorem exists_between (length : l.length = n + 2) :
    ∃ x inner y, l = [x] ++ inner ++ [y] ∧ inner.length = n := by
  cases l with
  | nil => simp at length
  | cons x rest =>
    have some_ : rest ≠ [] := by
      rintro rfl
      simp at length
    refine ⟨x, rest.dropLast, rest.getLast some_, ?_, ?_⟩
    · rw [append_assoc, dropLast_append_getLast]
      rfl
    · rw [length_dropLast]
      simp at length
      omega

theorem sum_permute_of_length (f : Nat → Nat → Nat) (first : l.length = n + 2)
    (snd : l'.length = n + 2) :
    (List.zipWith f (permute l) (permute l')).sum = (List.zipWith f l l').sum := by
  obtain ⟨x, inner, y, rfl, length⟩ := exists_between first
  obtain ⟨x', inner', y', rfl, length'⟩ := exists_between snd
  exact sum_permute f x y x' y' (length.trans length'.symm)

def interleave : List Nat → List Nat → List Nat
  | o :: os, k :: ks => o :: k :: interleave os ks
  | _, _ => []

theorem everySecond_interleave {os ks : List Nat} (length : os.length = ks.length) :
    everySecond (interleave os ks) = os ∧ everySecond (interleave os ks).tail = ks := by
  induction os generalizing ks with
  | nil =>
    obtain rfl := length_eq_zero_iff.mp length.symm
    exact ⟨rfl, rfl⟩
  | cons o os ih =>
    cases ks with
    | nil => simp at length
    | cons k ks =>
      obtain ⟨first, snd⟩ := ih (Nat.succ_injective length)
      refine ⟨?_, ?_⟩
      · rw [interleave, everySecond, first]
      · rw [interleave, tail_cons, everySecond_cons_tail, snd]

variable {outs windows : List Nat}

theorem interleave_mem {os ks : List Nat} (first : os ∈ indices outs)
    (snd : ks ∈ indices windows) : interleave os ks ∈ indices (interleave outs windows) := by
  rw [mem_indices] at first snd ⊢
  induction first generalizing ks windows with
  | nil => exact .nil
  | cons less _ ih =>
    cases snd with
    | nil => exact .nil
    | cons less' lt => exact .cons less (.cons less' (ih lt))

variable {index : List Nat}

theorem exists_of_mem_interleave (length : outs.length = windows.length)
    (mem : index ∈ indices (interleave outs windows)) :
    ∃ os ∈ indices outs, ∃ ks ∈ indices windows, index = interleave os ks := by
  induction outs generalizing windows index with
  | nil =>
    obtain rfl := length_eq_zero_iff.mp length.symm
    obtain rfl := mem_singleton.mp mem
    exact ⟨[], mem, [], mem, rfl⟩
  | cons out outs ih =>
    cases windows with
    | nil => simp at length
    | cons window windows =>
      obtain ⟨o, less, _, later, rfl⟩ := mem_indices_cons.mp mem
      obtain ⟨k, less', _, inner, rfl⟩ := mem_indices_cons.mp later
      obtain ⟨os, outer, ks, xs, rfl⟩ := ih (Nat.succ_injective length) inner
      exact ⟨o :: os, mem_indices_cons.mpr ⟨o, less, os, outer, rfl⟩, k :: ks,
        mem_indices_cons.mpr ⟨k, less', ks, xs, rfl⟩, rfl⟩

theorem groups_flatten (axes : List PatchAxis) : (groups axes).flatten =
      interleave (axes.map PatchAxis.outSize) (axes.map PatchAxis.windowSize) := by
  induction axes with
  | nil => rfl
  | cons axis inner ih =>
    have shape : (groups (axis :: inner)).flatten =
        axis.outSize :: axis.windowSize :: (groups inner).flatten := rfl
    rw [shape, ih]
    rfl

theorem foldl_mod (sizes : List Nat) :
    sizes.foldl (fun n size => n * size % 2 ^ 32) 1 = sizes.prod % 2 ^ 32 := by
  have fold (n : Nat) :
      sizes.foldl (fun n size => n * size % 2 ^ 32) (n % 2 ^ 32) = n * sizes.prod % 2 ^ 32 := by
    induction sizes generalizing n with
    | nil => rw [foldl_nil, prod_nil, mul_one]
    | cons size rest ih => rw [foldl_cons, Nat.mod_mul_mod, ih, prod_cons, mul_assoc]
  have whole := fold 1
  rwa [one_mul] at whole

def patchSizes (front back : Nat) (axes : List PatchAxis) : List Nat :=
  [front] ++ axes.map PatchAxis.outSize ++ axes.map PatchAxis.windowSize ++ [back]

/-- The sizes of what is gathered, with the axes of a patch next to those of the output. -/
def gatheredSizes (front back : Nat) (axes : List PatchAxis) : List Nat :=
  [front] ++ (groups axes).flatten ++ [back]

theorem permute_gatheredSizes (front back : Nat) (axes : List PatchAxis) :
    permute (gatheredSizes front back axes) = patchSizes front back axes := by
  obtain ⟨outs, windows⟩ := @everySecond_interleave (axes.map PatchAxis.outSize)
    (axes.map PatchAxis.windowSize) (by simp)
  rw [gatheredSizes, permute_eq, groups_flatten, outs, windows, patchSizes]

theorem exists_index {front back : Nat} {axes : List PatchAxis} {index : List Nat}
    (mem : index ∈ indices (patchSizes front back axes)) :
    ∃ b < front, ∃ os ∈ indices (axes.map PatchAxis.outSize),
      ∃ ks ∈ indices (axes.map PatchAxis.windowSize), ∃ c < back, index = [b] ++ os ++ ks ++ [c] ∧
          permute ([b] ++ interleave os ks ++ [c]) = index ∧
          interleave os ks ∈ indices (groups axes).flatten := by
  obtain ⟨_, pre, last, inner, rfl⟩ := mem_indices_append.mp mem
  obtain ⟨_, pre', ks, windows, rfl⟩ := mem_indices_append.mp pre
  obtain ⟨outer, first, os, outs, rfl⟩ := mem_indices_append.mp pre'
  obtain ⟨b, less, _, nil, rfl⟩ := mem_indices_cons.mp first
  obtain rfl := mem_singleton.mp nil
  obtain ⟨c, less', _, nil', rfl⟩ := mem_indices_cons.mp inner
  obtain rfl := mem_singleton.mp nil'
  have length : os.length = ks.length := by
    rw [length_of_mem_indices outs, length_of_mem_indices windows, length_map, length_map]
  obtain ⟨evens, odds⟩ := everySecond_interleave length
  refine ⟨b, less, os, outs, ks, windows, c, less', rfl, ?_, ?_⟩
  · rw [permute_eq, evens, odds]
  · rw [groups_flatten]
    exact interleave_mem outs windows

theorem read_position {axes : List PatchAxis} {front back b c : Nat}
    (mem : index ∈ indices (groups axes).flatten) :
    (⟨[1, front, (groups axes).flatten.prod, back], some [0, 0, 1, 0],
        ((indices (groups axes).flatten).map fun index =>
          spatialPosition axes index % 2 ^ 32).map some⟩ : Expression Nat).read
        [0, b, flatten (groups axes).flatten index, c] =
      some (spatialPosition axes index % 2 ^ 32) := by
  have place : address [0, 0, 1, 0] [0, b, flatten (groups axes).flatten index, c] =
      flatten (groups axes).flatten index := by simp [address]
  rw [Expression.read, Expression.place]
  simp only [place]
  rw [getElem?_map, getElem?_map, getElem?_flatten mem, map_some, map_some, join_some]

section Gather

variable {α : Type} {input : Expression α} {axes : List PatchAxis} {front back : Nat}

theorem read_gathered (lt : ∀ index ∈ indices (groups axes).flatten,
      spatialPosition axes index < (axes.map PatchAxis.paddedSize).prod)
    (small : (axes.map PatchAxis.paddedSize).prod < 2 ^ 32) {b c : Nat} {index : List Nat}
    (batch : b < front) (mem : index ∈ indices (groups axes).flatten) (channel : c < back) :
    ((⟨[1, front, (axes.map PatchAxis.paddedSize).prod, back], none, input.buffer⟩ :
        Expression α).gatherElements
      ⟨[1, front, (groups axes).flatten.prod, back], some [0, 0, 1, 0],
        ((indices (groups axes).flatten).map fun index =>
          spatialPosition axes index % 2 ^ 32).map some⟩ 2).buffer[
        flatten (gatheredSizes front back axes) ([b] ++ index ++ [c])]?.join =
      input.buffer[(b * (axes.map PatchAxis.paddedSize).prod + spatialPosition axes index) * back +
        c]?.join := by
  have here : [0, b, flatten (groups axes).flatten index, c] ∈
      indices [1, front, (groups axes).flatten.prod, back] :=
    mem_indices.mpr
      (.cons one_pos (.cons batch (.cons (flatten_lt mem) (.cons channel .nil))))
  have same : flatten (gatheredSizes front back axes) ([b] ++ index ++ [c]) =
      flatten [1, front, (groups axes).flatten.prod, back]
        [0, b, flatten (groups axes).flatten index, c] := by
    rw [gatheredSizes, append_assoc, append_assoc, singleton_append,
      singleton_append, flatten, flatten_append (length_of_mem_indices mem)]
    simp [flatten]
  have position := lt index mem
  have src : flatten [1, front, (axes.map PatchAxis.paddedSize).prod, back]
      [0, b, spatialPosition axes index, c] =
      (b * (axes.map PatchAxis.paddedSize).prod + spatialPosition axes index) * back + c := by
    simp [flatten, Nat.add_mul, mul_assoc, add_assoc]
  rw [same, Expression.gatherElements, Expression.getElem?_ofIndices here, join_some,
    read_position mem, bind_eq_bind, bind_some, Nat.mod_eq_of_lt (lt_trans position small)]
  simp only [getD_cons_succ, getD_cons_zero, if_pos position, set_cons_succ, set_cons_zero]
  rw [Expression.read, Expression.place]
  simp only [src]

structure Gathers (input : Expression α) (axes : List PatchAxis) (front back : Nat) : Prop where
  sizes : input.sizes = [front] ++ axes.map PatchAxis.paddedSize ++ [back]
  fits : ∀ axis ∈ axes, axis.Fits
  some_ : axes ≠ []
  batches : 0 < front
  channels : 0 < back
  length : input.buffer.length = front * ((axes.map PatchAxis.paddedSize).prod * back)
  small : (gatheredSizes front back axes).prod < 2 ^ 32

variable (known : Gathers input axes front back)

include known

namespace Gathers

theorem row_pos : 0 < (groups axes).flatten.prod := by
  refine List.prod_pos_iff_forall_pos_nat.mpr fun size mem => ?_
  obtain ⟨group, lt, got⟩ := mem_flatten.mp mem
  obtain ⟨axis, within, rfl⟩ := List.mem_map.mp lt
  have fits := known.fits axis within
  rcases mem_pair.mp got with rfl | rfl
  · exact fits.out
  · exact fits.window

theorem row_lt : (groups axes).flatten.prod < 2 ^ 32 := by
  have lt := known.small
  rw [gatheredSizes, prod_append, prod_append, prod_singleton, prod_singleton] at lt
  exact lt_of_le_of_lt ((Nat.le_mul_of_pos_left _ known.batches).trans
    (Nat.le_mul_of_pos_right _ known.channels)) lt

theorem front_eq : input.sizes.headD 0 = front := by
  rw [known.sizes]
  rfl

theorem back_eq : input.sizes.getLastD 0 = back := by rw [known.sizes, getLastD_concat]

theorem middle_eq : middle input.sizes = axes.map PatchAxis.paddedSize := by
  rw [known.sizes, middle_between]

theorem reinterpret_input :
    input.reinterpret [1, front, (axes.map PatchAxis.paddedSize).prod % 2 ^ 32, back] none =
      if (axes.map PatchAxis.paddedSize).prod < 2 ^ 32 then
        some ⟨[1, front, (axes.map PatchAxis.paddedSize).prod, back], none, input.buffer⟩
      else none := by
  rw [Expression.reinterpret, known.length]
  simp only [Expression.extent, prod_cons, prod_nil, mul_one, one_mul]
  by_cases lt : (axes.map PatchAxis.paddedSize).prod < 2 ^ 32
  · rw [Nat.mod_eq_of_lt lt, if_pos rfl, if_pos lt]
  · rw [if_neg lt, if_neg]
    · intro same
      have wrapped := Nat.eq_of_mul_eq_mul_right known.channels
        (Nat.eq_of_mul_eq_mul_left known.batches same)
      have below := Nat.mod_lt (axes.map PatchAxis.paddedSize).prod (by decide : 0 < 2 ^ 32)
      omega

theorem gatherPatches_eq_none [Zero α]
    (large : ¬(axes.map PatchAxis.paddedSize).prod < 2 ^ 32) : gatherPatches input axes = none := by
  have view := reinterpret_input known
  rw [if_neg large] at view
  simp only [gatherPatches, known.front_eq, known.back_eq, known.middle_eq, foldl_mod,
    gatherIndices_eq known.fits known.some_ known.row_lt, view, bind_eq_bind, bind_some, bind_none]

theorem reinterpret_row_indices {row : Expression Nat}
    (length : row.buffer.length = (groups axes).flatten.prod) :
    row.reinterpret [1, front, (groups axes).flatten.prod, back] (some [0, 0, 1, 0]) =
      some ⟨[1, front, (groups axes).flatten.prod, back], some [0, 0, 1, 0], row.buffer⟩ := by
  refine Expression.reinterpret_eq_some.mpr ⟨rfl, ?_⟩
  have pos := known.row_pos
  have last : lastElement [1, front, (groups axes).flatten.prod, back] [0, 0, 1, 0] =
      (groups axes).flatten.prod - 1 := by simp [lastElement]
  rw [length, Expression.extent]
  simp only [last]
  omega

theorem gatherPatches_eq [Zero α] (inside : ∀ index ∈ indices (groups axes).flatten,
      spatialPosition axes index < (axes.map PatchAxis.paddedSize).prod)
    (small : (axes.map PatchAxis.paddedSize).prod < 2 ^ 32) {f : List Nat → Option α}
    (due : ∀ b < front, ∀ os ∈ indices (axes.map PatchAxis.outSize),
      ∀ ks ∈ indices (axes.map PatchAxis.windowSize), ∀ c < back, f ([b] ++ os ++ ks ++ [c]) =
          input.buffer[(b * (axes.map PatchAxis.paddedSize).prod +
            spatialPosition axes (interleave os ks)) * back + c]?.join) : gatherPatches input axes =
      some (Expression.ofIndices (patchSizes front back axes) f) := by
  have view := reinterpret_input known
  rw [if_pos small] at view
  have row := @reinterpret_row_indices _ _ _ _ _ known
    ⟨[1, 1, 1, (groups axes).flatten.prod], none, ((indices (groups axes).flatten).map fun index =>
        spatialPosition axes index % 2 ^ 32).map some⟩
    (by rw [length_map, length_map, length_indices])
  have length : (gatheredSizes front back axes).length = (groups axes).flatten.length + 2 := by
    rw [gatheredSizes]
    simp
  have strides := (DmlTensorDesc.length_packedStrides _).trans length
  have prod : (gatheredSizes front back axes).prod =
      front * ((groups axes).flatten.prod * back) := by
    rw [gatheredSizes, prod_append, prod_append, prod_singleton, prod_singleton, mul_assoc]
  have positive : ∀ size ∈ gatheredSizes front back axes, 0 < size := by
    refine List.prod_pos_iff_forall_pos_nat.mp ?_
    rw [prod]
    exact mul_pos known.batches (mul_pos known.row_pos known.channels)
  have sizes : [front] ++ axes.flatMap (fun axis => [axis.outSize, axis.windowSize]) ++ [back] =
      gatheredSizes front back axes := by
    rw [flatMap_def]
    rfl
  simp only [gatherPatches, known.front_eq, known.back_eq, known.middle_eq, foldl_mod,
    gatherIndices_eq known.fits known.some_ known.row_lt, view, row, bind_eq_bind,
    bind_some, sizes, permute_gatheredSizes]
  generalize gathered : Expression.gatherElements _ _ 2 = patches
  have permuted : patches.reinterpret (patchSizes front back axes)
      (some (permute (packedStrides (gatheredSizes front back axes)))) =
      some ⟨patchSizes front back axes,
        some (permute (packedStrides (gatheredSizes front back axes))), patches.buffer⟩ := by
    refine Expression.reinterpret_eq_some.mpr ⟨rfl, ?_⟩
    have buffer : patches.buffer.length = front * ((groups axes).flatten.prod * back) := by
      rw [← gathered, Expression.gatherElements, Expression.ofIndices, length_map, length_indices]
      simp
    have last : lastElement (patchSizes front back axes)
        (permute (packedStrides (gatheredSizes front back axes))) =
        lastElement (gatheredSizes front back axes)
          (packedStrides (gatheredSizes front back axes)) := by
      rw [← permute_gatheredSizes]
      exact sum_permute_of_length _ length strides
    rw [buffer, ← prod, ← lastElement_packed positive known.small, ← last]
    rfl
  rw [permuted, bind_some]
  refine congrArg some
    (congrArg (Expression.mk _ none) (map_congr_left fun index mem => ?_))
  obtain ⟨b, batch, os, outs, ks, windows, c, channel, isIndex, isPermuted, inner⟩ :=
    exists_index mem
  have place : address (permute (packedStrides (gatheredSizes front back axes))) index =
      flatten (gatheredSizes front back axes) ([b] ++ interleave os ks ++ [c]) := by
    have lt : [b] ++ interleave os ks ++ [c] ∈ indices (gatheredSizes front back axes) :=
      append_mem_indices (append_mem_indices
        (mem_indices.mpr (.cons batch .nil)) inner) (mem_indices.mpr (.cons channel .nil))
    rw [← DmlTensorDesc.addressed_of_lt known.small _ lt, ← isPermuted]
    exact sum_permute_of_length _ ((length_of_mem_indices lt).trans length) strides
  rw [isIndex, due b batch os outs ks windows c channel,
    ← read_gathered inside small batch inner channel, gathered, ← isIndex, ← place]
  rfl

theorem exists_gatherPatches [Zero α] (lt : ∀ index ∈ indices (groups axes).flatten,
      spatialPosition axes index < (axes.map PatchAxis.paddedSize).prod)
    (small : (axes.map PatchAxis.paddedSize).prod < 2 ^ 32) :
    ∃ f, gatherPatches input axes = some (Expression.ofIndices (patchSizes front back axes) f) ∧
      ∀ b < front, ∀ os ∈ indices (axes.map PatchAxis.outSize),
        ∀ ks ∈ indices (axes.map PatchAxis.windowSize), ∀ c < back, f ([b] ++ os ++ ks ++ [c]) =
            input.buffer[(b * (axes.map PatchAxis.paddedSize).prod +
              spatialPosition axes (interleave os ks)) * back + c]?.join := by
  let f (index : List Nat) : Option α :=
    input.buffer[(index.headD 0 * (axes.map PatchAxis.paddedSize).prod +
      spatialPosition axes (interleave ((index.drop 1).take axes.length)
        (((index.drop 1).drop axes.length).take axes.length))) * back + index.getLastD 0]?.join
  have x : ∀ b < front, ∀ os ∈ indices (axes.map PatchAxis.outSize),
      ∀ ks ∈ indices (axes.map PatchAxis.windowSize), ∀ c < back,
        f ([b] ++ os ++ ks ++ [c]) = input.buffer[(b * (axes.map PatchAxis.paddedSize).prod +
          spatialPosition axes (interleave os ks)) * back + c]?.join := by
    intro b _ os outs ks windows c _
    have first := length_of_mem_indices outs
    have snd := length_of_mem_indices windows
    rw [length_map] at first snd
    have rest : ([b] ++ os ++ ks ++ [c]).drop 1 = os ++ (ks ++ [c]) := by simp
    simp only [f, rest, take_left' first, drop_left' first, take_left' snd, getLastD_concat]
    rfl
  exact ⟨f, known.gatherPatches_eq lt small x, x⟩

end Gathers

end Gather

end TfDml.ExtractPatches
