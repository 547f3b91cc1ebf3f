import TfDml.Lib.MultiIndex

/-! # Reduction of row-major arrays

An array is reduced along some of its dimensions: an element of the result combines the elements
whose index agrees with its own in the other dimensions. What matters is which positions of the
buffer each element combines, so that dimensions merge if the merged ones combine the same.
-/

namespace TfDml.Lib

open List

structure ReduceDim where
  size : Nat
  reduced : Bool
  deriving DecidableEq

def dimSizes (dims : List ReduceDim) : List Nat := dims.map ReduceDim.size

def keptSizes (dims : List ReduceDim) : List Nat := dimSizes (dims.filter fun d => !d.reduced)

def keptIndex : List ReduceDim → List Nat → List Nat
  | d :: rest, k :: index => if d.reduced then keptIndex rest index else k :: keptIndex rest index
  | _, _ => []

def groupOf (dims : List ReduceDim) (out : List Nat) : List Nat :=
  ((indices (dimSizes dims)).filter fun index => keptIndex dims index = out).map
    (flatten (dimSizes dims))

/-- The positions that each element of the result combines, in the order of its buffer. -/
def groups (dims : List ReduceDim) : List (List Nat) :=
  (indices (keptSizes dims)).map (groupOf dims)

def reduceAlong {M : Type*} [CommMonoid M] (dims : List ReduceDim) (data : List M) : List M :=
  (groups dims).map fun group => (group.filterMap fun p => data[p]?).prod

theorem length_groups (dims : List ReduceDim) : (groups dims).length = (keptSizes dims).prod := by
  rw [groups, length_map, length_indices]

theorem lt_of_mem_groupOf {dims : List ReduceDim} {out : List Nat} {p : Nat}
    (mem : p ∈ groupOf dims out) : p < (dimSizes dims).prod := by
  obtain ⟨index, lt, rfl⟩ := mem_map.mp mem
  exact flatten_lt (mem_of_mem_filter lt)

theorem groups_nil : groups [] = [[0]] := rfl

theorem groups_reduced (size : Nat) (rest : List ReduceDim) : groups (⟨size, true⟩ :: rest) =
      (groups rest).map fun group =>
        (range size).flatMap fun k => group.map (k * (dimSizes rest).prod + ·) := by
  have sizes : keptSizes (⟨size, true⟩ :: rest) = keptSizes rest := rfl
  rw [groups, groups, sizes, map_map]
  apply map_congr_left
  intro out _
  rw [groupOf, dimSizes, map_cons, indices, filter_flatMap, map_flatMap]
  apply flatMap_congr
  intro k _
  rw [filter_map, map_map, groupOf, map_map]
  rfl

theorem flatMap_range_single {α : Type*} {size k : Nat} (less : k < size) (f : Nat → List α) :
    ((range size).flatMap fun l => if l = k then f l else []) = f k := by
  induction size with
  | zero => exact absurd less (Nat.not_lt_zero k)
  | succ size ih =>
    rw [range_succ, flatMap_append, flatMap_singleton]
    rcases Nat.lt_succ_iff_lt_or_eq.mp less with lt | rfl
    · rw [ih lt, if_neg (Nat.ne_of_gt lt), append_nil]
    · have pre : ((range k).flatMap fun l => if l = k then f l else []) = [] := by
        rw [flatMap_eq_nil_iff]
        intro l mem
        exact if_neg (Nat.ne_of_lt (mem_range.mp mem))
      rw [pre, if_pos rfl, nil_append]

theorem groups_kept (size : Nat) (rest : List ReduceDim) : groups (⟨size, false⟩ :: rest) =
      (range size).flatMap fun k =>
        (groups rest).map fun group => group.map (k * (dimSizes rest).prod + ·) := by
  have sizes : keptSizes (⟨size, false⟩ :: rest) = size :: keptSizes rest := rfl
  rw [groups, groups, sizes, indices, map_flatMap]
  apply flatMap_congr
  intro k mem
  rw [map_map, map_map]
  apply map_congr_left
  intro out _
  have own : ((range size).flatMap fun l =>
      ((indices (dimSizes rest)).map (l :: ·)).filter fun index =>
        keptIndex (⟨size, false⟩ :: rest) index = k :: out) =
      ((indices (dimSizes rest)).filter fun index => keptIndex rest index = out).map (k :: ·) := by
    rw [← flatMap_range_single (mem_range.mp mem) fun l =>
      ((indices (dimSizes rest)).filter fun index => keptIndex rest index = out).map (l :: ·)]
    apply flatMap_congr
    intro l _
    rw [filter_map]
    by_cases same : l = k
    · subst same
      rw [if_pos rfl]
      congr 1
      apply filter_congr
      intro index _
      simp [keptIndex]
    · rw [if_neg same, map_eq_nil_iff, filter_eq_nil_iff]
      intro index _
      simp [keptIndex, same]
  rw [Function.comp_apply, Function.comp_apply, groupOf, dimSizes, map_cons, indices,
    filter_flatMap]
  refine (congrArg _ own).trans ?_
  rw [map_map, groupOf, map_map]
  rfl

/-- Dimensions that combine the same positions of buffers of the same size. -/
structure SameReduction (dims dims' : List ReduceDim) : Prop where
  sizes : (dimSizes dims).prod = (dimSizes dims').prod
  groups : groups dims = groups dims'

namespace SameReduction

theorem refl (dims : List ReduceDim) : SameReduction dims dims := ⟨rfl, rfl⟩

theorem symm {dims dims' : List ReduceDim} (same : SameReduction dims dims') :
    SameReduction dims' dims :=
  ⟨same.sizes.symm, same.groups.symm⟩

theorem trans {dims dims' dims'' : List ReduceDim} (first : SameReduction dims dims')
    (snd : SameReduction dims' dims'') : SameReduction dims dims'' :=
  ⟨first.sizes.trans snd.sizes, first.groups.trans snd.groups⟩

theorem cons (d : ReduceDim) {dims dims' : List ReduceDim} (same : SameReduction dims dims') :
    SameReduction (d :: dims) (d :: dims') where
  sizes := by
    simp only [dimSizes, map_cons, prod_cons]
    exact congrArg (d.size * ·) same.sizes
  groups := by
    obtain ⟨size, _ | _⟩ := d
    · rw [groups_kept, groups_kept, same.sizes, same.groups]
    · rw [groups_reduced, groups_reduced, same.sizes, same.groups]

theorem single (reduced : Bool) (rest : List ReduceDim) :
    SameReduction (⟨1, reduced⟩ :: rest) rest where
  sizes := by simp [dimSizes]
  groups := by
    cases reduced
    · simp [groups_kept]
    · simp [groups_reduced]

theorem replicate_single (count : Nat) (reduced : Bool) (dims : List ReduceDim) :
    SameReduction (replicate count ⟨1, reduced⟩ ++ dims) dims := by
  induction count with
  | zero => exact refl dims
  | succ count ih => exact (single reduced _).trans ih

theorem merge (outer inner : Nat) (reduced : Bool) (rest : List ReduceDim) :
    SameReduction (⟨outer, reduced⟩ :: ⟨inner, reduced⟩ :: rest)
      (⟨outer * inner, reduced⟩ :: rest) where
  sizes := by
    simp only [dimSizes, map_cons, prod_cons]
    exact (mul_assoc _ _ _).symm
  groups := by
    have product : (dimSizes (⟨inner, reduced⟩ :: rest)).prod = inner * (dimSizes rest).prod := by
      simp [dimSizes]
    have place (k l p : Nat) : k * (inner * (dimSizes rest).prod) +
        (l * (dimSizes rest).prod + p) = (k * inner + l) * (dimSizes rest).prod + p := by ring
    cases reduced
    · rw [groups_kept, groups_kept, groups_kept, product,
        ← flatMap_range_mul outer inner _ _ fun _ _ _ _ => rfl]
      apply flatMap_congr
      intro k _
      rw [map_flatMap]
      apply flatMap_congr
      intro l _
      rw [map_map]
      apply map_congr_left
      intro group _
      rw [Function.comp_apply, map_map]
      apply map_congr_left
      intro p _
      exact place k l p
    · rw [groups_reduced, groups_reduced, groups_reduced, product, map_map]
      apply map_congr_left
      intro group _
      rw [Function.comp_apply, ← flatMap_range_mul outer inner _ _ fun _ _ _ _ => rfl]
      apply flatMap_congr
      intro k _
      rw [map_flatMap]
      apply flatMap_congr
      intro l _
      rw [map_map]
      apply map_congr_left
      intro p _
      exact place k l p

end SameReduction

theorem groups_of_empty {dims : List ReduceDim} (empty : (dimSizes dims).prod = 0) :
    groups dims = replicate (keptSizes dims).prod [] := by
  rw [eq_replicate_iff]
  refine ⟨length_groups dims, fun group mem => ?_⟩
  obtain ⟨out, -, rfl⟩ := mem_map.mp mem
  refine eq_nil_iff_forall_not_mem.mpr fun p lt => ?_
  have less := lt_of_mem_groupOf lt
  omega

end TfDml.Lib
