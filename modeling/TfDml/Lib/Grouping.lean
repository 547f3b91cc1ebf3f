import TfDml.Lib.Gather

/-! # Neighbouring dimensions as one

The dimensions of an array fall into groups, each of which is a single dimension of the same array.
The buffer stays as it is, so what is gathered along one kind of indices is gathered along the
other one.
-/

namespace TfDml.Lib

open List

def collapse : List (List Nat) → List Nat → List Nat
  | [], _ => []
  | group :: groups, index =>
    flatten group (index.take group.length) :: collapse groups (index.drop group.length)

theorem collapse_append {group outer : List Nat} (length : outer.length = group.length)
    (groups : List (List Nat)) (inner : List Nat) :
    collapse (group :: groups) (outer ++ inner) = flatten group outer :: collapse groups inner := by
  rw [collapse, ← length, take_left, drop_left]

theorem collapse_single (size k : Nat) (groups : List (List Nat)) (inner : List Nat) :
    collapse ([size] :: groups) (k :: inner) = k :: collapse groups inner := by
  simp [collapse, flatten]

theorem mem_indices_append {outer inner index : List Nat} : index ∈ indices (outer ++ inner) ↔
      ∃ first ∈ indices outer, ∃ second ∈ indices inner, index = first ++ second := by
  rw [indices_append, mem_map]
  constructor
  · rintro ⟨pair, mem, rfl⟩
    obtain ⟨first, second⟩ := mem_product.mp mem
    exact ⟨_, first, _, second, rfl⟩
  · rintro ⟨first, mem, second, member', rfl⟩
    exact ⟨(first, second), mem_product.mpr ⟨mem, member'⟩, rfl⟩

theorem getD_of_flatten {outer inner index : List Nat} {size : Nat}
    (mem : index ∈ indices (outer ++ size :: inner)) :
    index.getD outer.length 0 = flatten (outer ++ size :: inner) index / inner.prod % size := by
  obtain ⟨first, firstMember, _, snd, rfl⟩ := mem_indices_append.mp mem
  obtain ⟨k, lt, last, lastMember, rfl⟩ := mem_indices_cons.mp snd
  have length := length_of_mem_indices firstMember
  have below := flatten_lt lastMember
  have some_ : 0 < inner.prod := Nat.zero_lt_of_lt below
  have position : flatten (outer ++ size :: inner) (first ++ k :: last) =
      inner.prod * (size * flatten outer first + k) + flatten inner last := by
    rw [flatten_append length, flatten, prod_cons]
    ring
  rw [position, Nat.mul_add_div some_, Nat.div_eq_of_lt below, add_zero, Nat.mul_add_mod,
    Nat.mod_eq_of_lt lt, ← length]
  simp

theorem map_collapse_indices (groups : List (List Nat)) :
    (indices groups.flatten).map (collapse groups) = indices (groups.map prod) := by
  induction groups with
  | nil => rfl
  | cons group groups ih =>
    have pairs : ((indices group ×ˢ indices groups.flatten).map fun index =>
        index.1 ++ index.2).map (collapse (group :: groups)) =
        (indices group ×ˢ indices groups.flatten).map fun index =>
          flatten group index.1 :: collapse groups index.2 := by
      rw [map_map]
      refine map_congr_left fun index mem => ?_
      exact collapse_append (length_of_mem_indices (mem_product.mp mem).1) _ _
    have unfolded : indices group ×ˢ indices groups.flatten =
        (indices group).flatMap fun index => (indices groups.flatten).map (Prod.mk index) := rfl
    rw [flatten_cons, indices_append, pairs, unfolded, map_flatMap, map_cons,
      indices, ← map_flatten_indices, flatMap_map, ← ih]
    apply flatMap_congr
    intro index _
    rw [map_map, map_map]
    rfl

theorem collapse_mem {groups : List (List Nat)} {index : List Nat}
    (mem : index ∈ indices groups.flatten) : collapse groups index ∈ indices (groups.map prod) := by
  rw [← map_collapse_indices]
  exact mem_map_of_mem mem

theorem flatten_collapse {groups : List (List Nat)} {index : List Nat}
    (mem : index ∈ indices groups.flatten) :
    flatten (groups.map prod) (collapse groups index) = flatten groups.flatten index := by
  induction groups generalizing index with
  | nil => simp [collapse, flatten]
  | cons group groups ih =>
    obtain ⟨outer, first, inner, snd, rfl⟩ := mem_indices_append.mp mem
    have length := length_of_mem_indices first
    rw [collapse_append length, map_cons, flatten_cons, flatten_append length, flatten,
      ih snd, prod_flatten]

theorem gather_collapse {α : Type*} {groups : List (List Nat)} {f g : List Nat → List Nat}
    (lt : ∀ index ∈ indices groups.flatten, f index ∈ indices groups.flatten)
    (same : ∀ index ∈ indices groups.flatten, collapse groups (f index) = g (collapse groups index))
    (values : List α) : gather groups.flatten f values = gather (groups.map prod) g values := by
  rw [gather, gather, ← map_collapse_indices, map_map]
  refine map_congr_left fun index mem => ?_
  rw [Function.comp_apply, ← same index mem, flatten_collapse (lt index mem)]

end TfDml.Lib
