import TfDml.Lib.Pushforward
import Mathlib.Data.List.Indexes

/-! # Moving the elements of an array along its axes

An operator that gathers along one axis sees the dimensions before and after it as one each.
Gathering along one axis after another moves the elements along all of them.
-/

namespace TfDml.Lib

open List

variable {α : Type*} {sizes index : List Nat} {axis : Nat}

/-- The sizes with all dimensions before the axis as one, and all dimensions after it. -/
def around (sizes : List Nat) (axis : Nat) : List Nat :=
  [1, (sizes.take axis).prod, sizes.getD axis 0, (sizes.drop (axis + 1)).prod]

def aroundIndex (sizes : List Nat) (axis : Nat) (index : List Nat) : List Nat :=
  [0, flatten (sizes.take axis) (index.take axis), index.getD axis 0,
    flatten (sizes.drop (axis + 1)) (index.drop (axis + 1))]

theorem eq_take_append_getElem {l : List Nat} {i : Nat} (lt : i < l.length) :
    l = l.take i ++ l.getD i 0 :: l.drop (i + 1) := by
  rw [getD_eq_getElem _ _ lt, getElem_cons_drop, take_append_drop]

theorem flatten_aroundIndex (length : index.length = sizes.length) (lt : axis < sizes.length) :
    flatten (around sizes axis) (aroundIndex sizes axis index) = flatten sizes index := by
  have lt' : axis < index.length := by omega
  have whole : flatten sizes index =
      flatten (sizes.take axis ++ sizes.getD axis 0 :: sizes.drop (axis + 1))
        (index.take axis ++ index.getD axis 0 :: index.drop (axis + 1)) := by
    rw [← eq_take_append_getElem lt, ← eq_take_append_getElem lt']
  rw [whole, flatten_append (by rw [length_take, length_take, length])]
  simp only [around, aroundIndex, flatten, prod_cons, prod_nil]
  ring

theorem aroundIndex_mem (mem : index ∈ indices sizes) (lt : axis < sizes.length) :
    aroundIndex sizes axis index ∈ indices (around sizes axis) := by
  have length := length_of_mem_indices mem
  have forall₂ := mem_indices.mp mem
  have below := getElem_lt_of_mem_indices mem lt (by omega)
  rw [mem_indices]
  refine .cons one_pos (.cons ?_ (.cons ?_ (.cons ?_ .nil)))
  · exact flatten_lt (mem_indices.mpr (forall₂_take axis forall₂))
  · rwa [getD_eq_getElem _ _ lt, getD_eq_getElem _ _ (by omega)]
  · exact flatten_lt (mem_indices.mpr (forall₂_drop (axis + 1) forall₂))

theorem aroundIndex_modify (lt : axis < index.length) (g : Nat → Nat) :
    (aroundIndex sizes axis index).modify 2 g = aroundIndex sizes axis (index.modify axis g) := by
  have here : (index.modify axis g).getD axis 0 = g (index.getD axis 0) := by
    rw [getD_eq_getElem _ _ (by rwa [length_modify]), getD_eq_getElem _ _ lt, getElem_modify_eq]
  have pre : (index.modify axis g).take axis = index.take axis := by
    rw [take_modify, modify_eq_self (by rw [length_take]; omega)]
  have after : (index.modify axis g).drop (axis + 1) = index.drop (axis + 1) :=
    drop_modify_of_lt g axis (axis + 1) index (Nat.lt_succ_self axis)
  rw [aroundIndex, aroundIndex, here, pre, after]
  rfl

/-- The element at a position, if the buffer has one there. -/
def readAt (values : List (Option α)) (position : Nat) : Option α := values[position]?.join

def gatherAlong (sizes : List Nat) (axis : Nat) (g : Nat → Nat) (values : List (Option α)) :
    List (Option α) :=
  (indices sizes).map fun index => readAt values (flatten sizes (index.modify axis g))

theorem length_gatherAlong (g : Nat → Nat) (values : List (Option α)) :
    (gatherAlong sizes axis g values).length = sizes.prod := by
  rw [gatherAlong, length_map, length_indices]

theorem readAt_gatherAlong (mem : index ∈ indices sizes) (g : Nat → Nat)
    (values : List (Option α)) : readAt (gatherAlong sizes axis g values) (flatten sizes index) =
      readAt values (flatten sizes (index.modify axis g)) := by
  rw [readAt, gatherAlong, getElem?_map, getElem?_flatten mem, Option.map_some, Option.join_some]

theorem readAt_gatherAlong_around (mem : index ∈ indices sizes) (lt : axis < sizes.length)
    (g : Nat → Nat) (values : List (Option α)) :
    readAt (gatherAlong (around sizes axis) 2 g values) (flatten sizes index) =
      readAt values (flatten sizes (index.modify axis g)) := by
  have length := length_of_mem_indices mem
  rw [← flatten_aroundIndex length lt, readAt_gatherAlong (aroundIndex_mem mem lt),
    aroundIndex_modify (by omega), flatten_aroundIndex (by rw [length_modify, length]) lt]

def mapFirst (count : Nat) (g : Nat → Nat → Nat) (index : List Nat) : List Nat :=
  index.mapIdx fun d i => if d < count then g d i else i

theorem mapFirst_zero (g : Nat → Nat → Nat) (index : List Nat) : mapFirst 0 g index = index := by
  apply ext_getElem (by simp [mapFirst])
  intro d _ _
  simp [mapFirst]

theorem mapFirst_modify (count : Nat) (g : Nat → Nat → Nat) (index : List Nat) :
    mapFirst count g (index.modify count (g count)) = mapFirst (count + 1) g index := by
  apply ext_getElem (by simp [mapFirst])
  intro d _ _
  simp only [mapFirst, getElem_mapIdx, getElem_modify]
  by_cases here : count = d
  · subst here
    simp
  · rw [if_neg here]
    by_cases less : d < count
    · rw [if_pos less, if_pos (by omega)]
    · rw [if_neg less, if_neg (by omega)]

theorem mapFirst_all {count : Nat} (all : index.length ≤ count) (g : Nat → Nat → Nat) :
    mapFirst count g index = index.mapIdx g := by
  apply ext_getElem (by simp [mapFirst])
  intro d lt _
  simp only [mapFirst, length_mapIdx] at lt
  simp only [mapFirst, getElem_mapIdx]
  rw [if_pos (by omega)]

theorem mapFirst_mem {count : Nat} {g : Nat → Nat → Nat} (mem : index ∈ indices sizes)
    (maps : ∀ d (lt : d < sizes.length), ∀ i < sizes[d], g d i < sizes[d]) :
    mapFirst count g index ∈ indices sizes := by
  have length := length_of_mem_indices mem
  refine mem_indices_of_getElem (by rw [mapFirst, length_mapIdx, length]) fun d lt _ => ?_
  have below := getElem_lt_of_mem_indices mem lt (by omega)
  simp only [mapFirst, getElem_mapIdx]
  split
  · exact maps d lt _ below
  · exact below

theorem readAt_foldl {step : List (Option α) → Nat → List (Option α)} {g : Nat → Nat → Nat}
    (maps : ∀ d (lt : d < sizes.length), ∀ i < sizes[d], g d i < sizes[d])
    (moves : ∀ d < sizes.length, ∀ values, ∀ index ∈ indices sizes,
      readAt (step values d) (flatten sizes index) =
        readAt values (flatten sizes (index.modify d (g d))))
    {count : Nat} (few : count ≤ sizes.length) (values : List (Option α))
    (mem : index ∈ indices sizes) :
    readAt ((List.range count).foldl step values) (flatten sizes index) =
      readAt values (flatten sizes (mapFirst count g index)) := by
  induction count generalizing index with
  | zero => rw [mapFirst_zero, range_zero, foldl_nil]
  | succ count ih =>
    have moved := modify_mem_indices (i := count) (n := sizes[count]) (g := g count) mem
      fun h k less => maps count h k less
    rw [set_getElem_self] at moved
    rw [range_succ, foldl_append, foldl_cons, foldl_nil,
      moves count few _ index mem, ih (Nat.le_of_succ_le few) moved, mapFirst_modify]

end TfDml.Lib
