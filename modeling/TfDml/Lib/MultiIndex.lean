import TfDml.Lib.StridedView
import Mathlib.Algebra.BigOperators.Group.List.Lemmas

/-! # Indices of a row-major array

An array of several dimensions lies in a flat buffer, the last index varying fastest.
-/

namespace TfDml.Lib

open List

variable {α : Type*}

theorem map_getD_range (l : List α) (default : α) :
    (range l.length).map (fun d => l.getD d default) = l := by
  apply ext_getElem
  · simp
  · intro d lt lt'
    simp [getD_eq_getElem?_getD, getElem?_eq_getElem lt']

/-- The indices of an array, in the order of its buffer. -/
def indices : List Nat → List (List Nat)
  | [] => [[]]
  | size :: rest => (range size).flatMap fun k => (indices rest).map (k :: ·)

def flatten : List Nat → List Nat → Nat
  | _ :: rest, k :: index => k * rest.prod + flatten rest index
  | _, _ => 0

theorem map_flatten_indices (sizes : List Nat) :
    (indices sizes).map (flatten sizes) = range sizes.prod := by
  induction sizes with
  | nil => rfl
  | cons size rest ih =>
    have merged := flatMap_range_mul size rest.prod (fun k l => [k * rest.prod + l])
      (fun i => [i]) fun _ _ _ _ => rfl
    rw [prod_cons]
    refine Eq.trans ?_ (merged.trans (by simp))
    rw [indices, map_flatMap]
    apply flatMap_congr
    intro k _
    rw [map_map, ← map_eq_flatMap, ← ih, map_map]
    rfl

theorem length_indices (sizes : List Nat) : (indices sizes).length = sizes.prod := by
  have lens := congrArg List.length (map_flatten_indices sizes)
  rwa [length_map, length_range] at lens

variable {sizes : List Nat}

theorem flatten_getElem_indices {k : Nat} (lt : k < (indices sizes).length) :
    flatten sizes (indices sizes)[k] = k := by
  have mapped : k < ((indices sizes).map (flatten sizes)).length := by
    rw [length_map]
    exact lt
  have at_ : ((indices sizes).map (flatten sizes))[k] = k := by
    simp only [map_flatten_indices, getElem_range]
  rwa [getElem_map] at at_

variable {index index' : List Nat}

theorem flatten_inj (mem : index ∈ indices sizes) (member' : index' ∈ indices sizes)
    (same : flatten sizes index = flatten sizes index') : index = index' := by
  obtain ⟨k, lt, rfl⟩ := getElem_of_mem mem
  obtain ⟨k', lt', rfl⟩ := getElem_of_mem member'
  rw [flatten_getElem_indices lt, flatten_getElem_indices lt'] at same
  subst same
  rfl

theorem flatten_lt (mem : index ∈ indices sizes) : flatten sizes index < sizes.prod := by
  rw [← mem_range, ← map_flatten_indices]
  exact mem_map_of_mem mem

theorem getElem?_flatten (mem : index ∈ indices sizes) :
    (indices sizes)[flatten sizes index]? = some index := by
  have lt : flatten sizes index < (indices sizes).length := by
    rw [length_indices]
    exact flatten_lt mem
  rw [getElem?_eq_getElem lt, Option.some.injEq]
  exact flatten_inj (getElem_mem lt) mem (flatten_getElem_indices lt)

theorem mem_indices : index ∈ indices sizes ↔ List.Forall₂ (· < ·) index sizes := by
  induction sizes generalizing index with
  | nil => simp [indices]
  | cons size rest ih =>
    rw [indices, mem_flatMap]
    constructor
    · rintro ⟨k, mem, inner⟩
      obtain ⟨index, lt, rfl⟩ := mem_map.mp inner
      exact .cons (mem_range.mp mem) (ih.mp lt)
    · rintro (_ | ⟨less, lt⟩)
      exact ⟨_, mem_range.mpr less, mem_map_of_mem (ih.mpr lt)⟩

theorem mem_indices_cons {size : Nat} {rest : List Nat} :
    index ∈ indices (size :: rest) ↔ ∃ k < size, ∃ inner ∈ indices rest, index = k :: inner := by
  simp [indices, eq_comm]

theorem length_of_mem_indices (mem : index ∈ indices sizes) :
    index.length = sizes.length := (mem_indices.mp mem).length_eq

variable {outer inner : List Nat}

theorem append_mem_indices (mem : index ∈ indices outer) (member' : index' ∈ indices inner) :
    index ++ index' ∈ indices (outer ++ inner) :=
  mem_indices.mpr (rel_append (mem_indices.mp mem) (mem_indices.mp member'))

theorem flatten_append {outer inner index index' : List Nat}
    (length : index.length = outer.length) : flatten (outer ++ inner) (index ++ index') =
      flatten outer index * inner.prod + flatten inner index' := by
  induction outer generalizing index with
  | nil =>
    obtain rfl := length_eq_zero_iff.mp length
    simp [flatten]
  | cons size rest ih =>
    cases index with
    | nil => simp at length
    | cons k index =>
      rw [cons_append, cons_append, flatten, flatten, ih (by simpa using length), prod_append]
      ring

theorem indices_append (outer inner : List Nat) : indices (outer ++ inner) =
      (indices outer ×ˢ indices inner).map fun index => index.1 ++ index.2 := by
  have product : ∀ l : List (List Nat), (l ×ˢ indices inner).map (fun index => index.1 ++ index.2) =
      l.flatMap fun index => (indices inner).map (index ++ ·) := by
    intro l
    have unfolded : l ×ˢ indices inner =
        l.flatMap fun index => (indices inner).map (Prod.mk index) := rfl
    rw [unfolded, map_flatMap]
    apply flatMap_congr
    intro index _
    rw [map_map]
    rfl
  rw [product]
  induction outer with
  | nil => simp [indices]
  | cons size rest ih =>
    rw [cons_append, indices, indices, flatMap_assoc]
    apply flatMap_congr
    intro k _
    rw [ih, map_flatMap, flatMap_map]
    apply flatMap_congr
    intro index _
    rw [map_map]
    rfl

theorem getElem?_product_flatten (mem : index ∈ indices outer)
    (member' : index' ∈ indices inner) :
    (indices outer ×ˢ indices inner)[flatten outer index * inner.prod + flatten inner index']? =
      some (index, index') := by
  have appended := getElem?_flatten (append_mem_indices mem member')
  rw [flatten_append (length_of_mem_indices mem), indices_append, getElem?_map,
    Option.map_eq_some_iff] at appended
  obtain ⟨pair, got, same⟩ := appended
  have inProduct := mem_product.mp (mem_of_getElem? got : (pair.1, pair.2) ∈ _)
  have lens : pair.1.length = index.length := by
    rw [length_of_mem_indices inProduct.1, length_of_mem_indices mem]
  obtain ⟨first, snd⟩ := append_inj same lens
  rw [got, ← first, ← snd]

theorem map_getElem?_flatten {values : List α} (whole : values.length = sizes.prod) :
    ((indices sizes).map fun index => values[flatten sizes index]?) = values.map some := by
  have ordered : ((indices sizes).map fun index => values[flatten sizes index]?) =
      (range values.length).map fun i => values[i]? := by
    rw [whole, ← map_flatten_indices, map_map]
    rfl
  rw [ordered]
  refine ext_getElem (by simp) fun i _ lt => ?_
  simp only [getElem_map, getElem_range]
  exact getElem?_eq_getElem (by simpa using lt)

theorem nodup_indices (sizes : List Nat) : (indices sizes).Nodup := by
  apply List.Nodup.of_map (flatten sizes)
  rw [map_flatten_indices]
  exact nodup_range

theorem indices_leading (count : Nat) (sizes : List Nat) : indices (replicate count 1 ++ sizes) =
      (indices sizes).map (replicate count 0 ++ ·) := by
  induction count with
  | zero => exact (map_id _).symm
  | succ count ih =>
    rw [replicate_succ, cons_append, indices, range_one, flatMap_singleton,
      ih, map_map, replicate_succ]
    rfl

def offset : List Int → List Nat → Int
  | step :: steps, k :: index => k * step + offset steps index
  | _, _ => 0

theorem offset_map (step : α → Int) (index : α → Nat) (dims : List α) :
    offset (dims.map step) (dims.map index) = (dims.map fun d => index d * step d).sum := by
  induction dims with
  | nil => rfl
  | cons d rest ih => rw [map_cons, map_cons, offset, ih, map_cons, sum_cons]

theorem positions_eq_offset {steps : List Int} (length : steps.length = sizes.length) :
    positions (zipWith (fun size step => ⟨size, 0, step⟩) sizes steps) =
      (indices sizes).map (offset steps) := by
  induction sizes generalizing steps with
  | nil =>
    obtain rfl := length_eq_zero_iff.mp length
    rfl
  | cons size rest ih =>
    cases steps with
    | nil => simp at length
    | cons step steps =>
      rw [zipWith_cons_cons, positions, ih (by simpa using length), indices, map_flatMap]
      apply flatMap_congr
      intro k _
      rw [map_map, map_map]
      apply map_congr_left
      intro index _
      simp [offset]

end TfDml.Lib
