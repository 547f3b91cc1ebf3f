import TfDml.Lib.Broadcast

/-! # Reading arrays that are broadcast

A dimension of one element is read at its only index, wherever the stretched array is read. What
an array reads then tiles it, so that its dimensions merge as tiled ones do.
-/

namespace TfDml.Lib

open List

/-- Each dimension has the other array's size, or a single element. -/
def Stretches (x shape : List Nat) : Prop := List.Forall₂ (fun n d => n = d ∨ n = 1) x shape

def stretchIndex (x index : List Nat) : List Nat :=
  zipWith (fun n k => if n = 1 then 0 else k) x index

/-- The index that is read, aligned at the last dimension. -/
def broadcastIndex (x index : List Nat) : List Nat :=
  stretchIndex x (index.drop (index.length - x.length))

theorem stretches_refl (x : List Nat) : Stretches x x := by
  induction x with
  | nil => exact .nil
  | cons n rest ih => exact .cons (Or.inl rfl) ih

theorem stretches_ones (shape : List Nat) : Stretches (replicate shape.length 1) shape := by
  induction shape with
  | nil => exact .nil
  | cons d rest ih => exact .cons (Or.inr rfl) ih

variable {x x' shape : List Nat}

theorem Stretches.append {shape' : List Nat} (outer : Stretches x shape)
    (inner : Stretches x' shape') : Stretches (x ++ x') (shape ++ shape') :=
  rel_append outer inner

theorem Stretches.forall_lt {bound : Nat} (stretches : Stretches x shape) (one : 1 < bound)
    (lt : ∀ d ∈ shape, d < bound) : ∀ n ∈ x, n < bound := by
  induction stretches with
  | nil => exact fun n mem => nomatch mem
  | cons fits _ ih =>
    rw [forall_mem_cons] at lt ⊢
    refine ⟨?_, ih lt.2⟩
    rcases fits with rfl | rfl
    · exact lt.1
    · exact one

theorem prod_le_of_stretches (stretches : Stretches x shape) (pos : ∀ d ∈ shape, 0 < d) :
    x.prod ≤ shape.prod := by
  induction stretches with
  | nil => exact le_refl _
  | cons fits _ ih =>
    rw [forall_mem_cons] at pos
    rw [prod_cons, prod_cons]
    refine Nat.mul_le_mul ?_ (ih pos.2)
    rcases fits with rfl | rfl
    · exact le_refl _
    · exact pos.1

variable {index : List Nat}

theorem stretchIndex_mem (stretches : Stretches x shape) (mem : index ∈ indices shape) :
    stretchIndex x index ∈ indices x := by
  induction stretches generalizing index with
  | nil => exact mem_singleton.mpr rfl
  | @cons n d x shape fits _ ih =>
    obtain ⟨k, less, inner, lt, rfl⟩ := mem_indices_cons.mp mem
    refine mem_indices_cons.mpr ⟨if n = 1 then 0 else k, ?_, _, ih lt, rfl⟩
    split
    case isTrue single => exact single ▸ one_pos
    case isFalse many => exact (fits.resolve_right many).symm ▸ less

theorem stretchIndex_append {index' : List Nat} (length : index.length = x.length) :
    stretchIndex (x ++ x') (index ++ index') = stretchIndex x index ++ stretchIndex x' index' :=
  zipWith_append length.symm

theorem stretchIndex_of_mem (mem : index ∈ indices x) : stretchIndex x index = index := by
  rw [mem_indices] at mem
  induction mem with
  | nil => rfl
  | @cons k n index x less _ ih =>
    have unfolded : stretchIndex (n :: x) (k :: index) =
        (if n = 1 then 0 else k) :: stretchIndex x index := rfl
    rw [unfolded, ih]
    split
    case isTrue single => rw [show k = 0 by omega]
    case isFalse => rfl

theorem broadcastIndex_of_mem (mem : index ∈ indices x) : broadcastIndex x index = index := by
  rw [broadcastIndex, length_of_mem_indices mem, Nat.sub_self, drop_zero, stretchIndex_of_mem mem]

theorem stretchIndex_self (stretches : Stretches x shape) (pos : ∀ d ∈ shape, 0 < d)
    (mem : index ∈ indices x) : index ∈ indices shape ∧ stretchIndex x index = index := by
  induction stretches generalizing index with
  | nil =>
    obtain rfl := mem_singleton.mp mem
    exact ⟨mem, rfl⟩
  | @cons n d x shape fits _ ih =>
    obtain ⟨k, less, inner, lt, rfl⟩ := mem_indices_cons.mp mem
    rw [forall_mem_cons] at pos
    obtain ⟨lt', itself⟩ := ih pos.2 lt
    constructor
    · refine mem_indices_cons.mpr ⟨k, ?_, inner, lt', rfl⟩
      have first := pos.1
      rcases fits with rfl | rfl <;> omega
    · have unfolded : stretchIndex (n :: x) (k :: inner) =
          (if n = 1 then 0 else k) :: stretchIndex x inner := rfl
      rw [unfolded, itself]
      split
      case isTrue single => rw [show k = 0 by omega]
      case isFalse => rfl

variable {y result : List Nat}

theorem stretches_of_same_rank (length : x.length = y.length)
    (shape : broadcast x y = some result) : Stretches x result := by
  induction x generalizing y result with
  | nil =>
    obtain rfl := length_eq_zero_iff.mp length.symm
    obtain rfl := Option.some.inj ((broadcast_nil []).symm.trans shape)
    exact .nil
  | cons n x ih =>
    cases y with
    | nil => simp at length
    | cons m y =>
      have length : x.length = y.length := by simpa using length
      rw [broadcast_cons length, Option.bind_eq_some_iff] at shape
      obtain ⟨rest, inner, first⟩ := shape
      obtain ⟨d, single, rfl⟩ := Option.map_eq_some_iff.mp first
      refine .cons ?_ (ih length inner)
      rw [broadcastDim] at single
      split_ifs at single <;> simp_all

theorem stretches_of_broadcast (shape : broadcast x y = some result) :
    Stretches (aligned result.length x) result := by
  rw [length_of_broadcast shape]
  rw [← broadcast_aligned] at shape
  refine stretches_of_same_rank ?_ shape
  rw [length_aligned (le_max_left _ _), length_aligned (le_max_right _ _)]

theorem broadcast_of_stretches (stretches : Stretches x shape) :
    broadcast x shape = some shape := by
  induction stretches with
  | nil => rfl
  | @cons n d x shape fits inner ih =>
    have single : broadcastDim n d = some d := by
      rcases fits with rfl | rfl
      · exact if_pos rfl
      · exact broadcastDim_one d
    rw [broadcast_cons inner.length_eq, ih, Option.bind_some, single]
    rfl

theorem broadcast_eq_right_iff : broadcast x shape = some shape ↔
      x.length ≤ shape.length ∧ Stretches (aligned shape.length x) shape := by
  constructor
  · intro same
    have rank := length_of_broadcast same
    exact ⟨by omega, stretches_of_broadcast same⟩
  · rintro ⟨-, stretches⟩
    rw [← broadcast_aligned_left (le_refl _)]
    exact broadcast_of_stretches stretches

theorem stretches_of_broadcastAll {shapes : List (List Nat)}
    (shape : broadcastAll shapes = some result) (mem : x ∈ shapes) :
    x.length ≤ result.length ∧ Stretches (aligned result.length x) result := by
  have last : shapes.Perm (shapes.erase x ++ [x]) :=
    (perm_cons_erase mem).trans (perm_append_singleton x _).symm
  rw [broadcastAll_perm last, broadcastAll, foldlM_append] at shape
  obtain ⟨others, -, step⟩ := Option.bind_eq_some_iff.mp shape
  rw [foldlM_cons] at step
  obtain ⟨both, joined, rest⟩ := Option.bind_eq_some_iff.mp step
  obtain rfl : both = result := Option.some.inj rest
  rw [broadcast_comm] at joined
  have rank := length_of_broadcast joined
  exact ⟨by omega, stretches_of_broadcast joined⟩

theorem flatten_replicate_zero (count : Nat) (x index : List Nat) :
    flatten (replicate count 1 ++ x) (replicate count 0 ++ index) = flatten x index := by
  induction count with
  | zero => rfl
  | succ count ih =>
    rw [replicate_succ, replicate_succ, cons_append, cons_append, flatten, ih, zero_mul, zero_add]

theorem flatten_aligned (fits : x.length ≤ index.length) :
    flatten (aligned index.length x) (stretchIndex (aligned index.length x) index) =
      flatten x (broadcastIndex x index) := by
  have split : index = index.take (index.length - x.length) ++
      index.drop (index.length - x.length) := (take_append_drop _ _).symm
  have leading : stretchIndex (replicate (index.length - x.length) 1)
      (index.take (index.length - x.length)) = replicate (index.length - x.length) 0 := by
    rw [stretchIndex]
    refine eq_replicate_iff.mpr ⟨by simp, fun k mem => ?_⟩
    obtain ⟨d, lt, rfl⟩ := getElem_of_mem mem
    simp
  have parts : stretchIndex (aligned index.length x) index =
      replicate (index.length - x.length) 0 ++ broadcastIndex x index := by
    conv_lhs => rw [aligned, split]
    rw [stretchIndex, length_append, length_take, length_drop]
    have count : min (index.length - x.length) index.length +
        (index.length - (index.length - x.length)) - x.length = index.length - x.length := by omega
    rw [count, zipWith_append (by simp)]
    exact congrArg (· ++ _) leading
  rw [parts, aligned, flatten_replicate_zero]

theorem broadcastIndex_mem (stretches : Stretches (aligned shape.length x) shape)
    (mem : index ∈ indices shape) : broadcastIndex x index ∈ indices x := by
  have length := length_of_mem_indices mem
  have split : shape = shape.take (shape.length - x.length) ++
      shape.drop (shape.length - x.length) := (take_append_drop _ _).symm
  have inner : Stretches x (shape.drop (shape.length - x.length)) := by
    have dropped := forall₂_drop (shape.length - x.length) stretches
    rwa [aligned, drop_left' (length_replicate ..)] at dropped
  rw [broadcastIndex, length]
  refine stretchIndex_mem inner ?_
  rw [mem_indices] at mem ⊢
  exact forall₂_drop _ mem

def stretchTile (n d : Nat) : TileDim := ⟨n, if n = d then 1 else d⟩

variable {n d : Nat}

theorem total_stretchTile (fits : n = d ∨ n = 1) : (stretchTile n d).total = d := by
  rw [TileDim.total, stretchTile]
  split
  case isTrue same => rw [same, mul_one]
  case isFalse ne => rw [fits.resolve_left ne, one_mul]

theorem source_stretchTile {k : Nat} (fits : n = d ∨ n = 1) (less : k < d) :
    (stretchTile n d).source k = if n = 1 then 0 else k := by
  have src : (stretchTile n d).source k = k % n := rfl
  rw [src]
  split
  case isTrue single => rw [single, Nat.mod_one]
  case isFalse many =>
    obtain rfl := fits.resolve_right many
    exact Nat.mod_eq_of_lt less

theorem map_size_stretchTile (length : x.length = shape.length) :
    (zipWith stretchTile x shape).map TileDim.size = x := by
  rw [map_zipWith]
  refine ext_getElem (by simp [length]) fun i first snd => ?_
  rw [getElem_zipWith]
  rfl

theorem map_stretchIndex_indices (stretches : Stretches x shape) :
    ((indices shape).map fun index => flatten x (stretchIndex x index)) =
      tileSources (zipWith stretchTile x shape) := by
  induction stretches with
  | nil => rfl
  | @cons n d x shape fits inner ih =>
    have sizes := map_size_stretchTile inner.length_eq
    rw [zipWith_cons_cons, tileSources, total_stretchTile fits, sizes, ← ih, indices, map_flatMap]
    apply flatMap_congr
    intro k less
    rw [map_map, map_map, source_stretchTile fits (mem_range.mp less)]
    rfl

def broadcastSources (x shape : List Nat) : List Nat :=
  (indices shape).map fun index => flatten x (broadcastIndex x index)

theorem broadcastSources_eq (fits : x.length ≤ shape.length)
    (stretches : Stretches (aligned shape.length x) shape) : broadcastSources x shape =
      tileSources (zipWith stretchTile (aligned shape.length x) shape) := by
  rw [← map_stretchIndex_indices stretches, broadcastSources]
  refine map_congr_left fun index mem => ?_
  have length := length_of_mem_indices mem
  rw [← flatten_aligned (length ▸ fits), length]

end TfDml.Lib
