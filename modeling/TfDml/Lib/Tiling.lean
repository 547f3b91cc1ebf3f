import Mathlib.Data.List.GetD
import TfDml.Lib.MultiIndex

/-! # Tiling of row-major arrays

Each dimension is repeated a number of times. What matters is where each element of the tiled
buffer comes from, so that dimensions merge if the merged ones read the same positions.
-/

namespace TfDml.Lib

open List

structure TileDim where
  size : Nat
  copies : Nat
  deriving DecidableEq

namespace TileDim

def total (d : TileDim) : Nat := d.size * d.copies

def source (d : TileDim) (o : Nat) : Nat := o % d.size

end TileDim

def tileSources : List TileDim → List Nat
  | [] => [0]
  | d :: rest =>
    (range d.total).flatMap fun o =>
      (tileSources rest).map fun p => d.source o * (rest.map TileDim.size).prod + p

def tileIndex (dims : List TileDim) (index : List Nat) : List Nat :=
  zipWith TileDim.source dims index

theorem map_tileIndex_indices (dims : List TileDim) :
    ((indices (dims.map TileDim.total)).map fun index =>
      flatten (dims.map TileDim.size) (tileIndex dims index)) = tileSources dims := by
  induction dims with
  | nil => rfl
  | cons d rest ih =>
    rw [tileSources, ← ih, map_cons, map_cons, indices, map_flatMap]
    apply flatMap_congr
    intro o _
    rw [map_map, map_map]
    rfl

variable {dims : List TileDim}

theorem tileIndex_mem {index : List Nat} (mem : index ∈ indices (dims.map TileDim.total)) :
    tileIndex dims index ∈ indices (dims.map TileDim.size) := by
  induction dims generalizing index with
  | nil => exact mem_singleton.mpr rfl
  | cons d rest ih =>
    obtain ⟨o, less, inner, lt, rfl⟩ := mem_indices_cons.mp mem
    have pos : 0 < d.size := by
      rw [TileDim.total] at less
      exact Nat.pos_of_mul_pos_right (Nat.zero_lt_of_lt less)
    exact mem_indices_cons.mpr ⟨d.source o, Nat.mod_lt _ pos, _, ih lt, rfl⟩

theorem tileSources_merge_single (s r m : Nat) (rest : List TileDim) :
    tileSources (⟨1, m⟩ :: ⟨s, r⟩ :: rest) = tileSources (⟨s, r * m⟩ :: rest) := by
  let read (k : Nat) : List Nat := (tileSources rest).map fun p =>
    k % s * (rest.map TileDim.size).prod + p
  have merged := flatMap_range_mul m (s * r) (fun _ k => read k) read fun o _ k _ => by
    have same : (o * (s * r) + k) % s = k % s := by
      rw [show o * (s * r) = s * (o * r) by ring, Nat.mul_add_mod]
    simp only [read, same]
  have total : TileDim.total ⟨s, r * m⟩ = m * (s * r) := by
    rw [TileDim.total]
    ring
  have outer : TileDim.total ⟨1, m⟩ = m := one_mul m
  rw [tileSources, tileSources, tileSources, total, outer]
  refine Eq.trans ?_ merged
  apply flatMap_congr
  intro o _
  rw [map_flatMap]
  apply flatMap_congr
  intro k _
  rw [map_map]
  apply map_congr_left
  intro p _
  have first : TileDim.source ⟨1, m⟩ o = 0 := Nat.mod_one o
  rw [Function.comp_apply, first, zero_mul, zero_add]
  rfl

theorem tileSources_merge_whole (n m s : Nat) (rest : List TileDim) :
    tileSources (⟨n, m⟩ :: ⟨s, 1⟩ :: rest) = tileSources (⟨s * n, m⟩ :: rest) := by
  let read (place : Nat) : List Nat := (tileSources rest).map fun p =>
    place * (rest.map TileDim.size).prod + p
  have merged := flatMap_range_mul (n * m) s (fun o k => read (o % n * s + k))
    (fun i => read (i % (s * n))) fun o outside k lt => by
      have pos : 0 < n := Nat.pos_of_mul_pos_right (Nat.zero_lt_of_lt outside)
      have below : o % n * s + k < s * n := by
        have row : (o % n + 1) * s ≤ n * s := Nat.mul_le_mul_right s (Nat.mod_lt o pos)
        rw [Nat.succ_mul, mul_comm n] at row
        omega
      have place : o * s + k = s * n * (o / n) + (o % n * s + k) := by
        have whole : (n * (o / n) + o % n) * s = o * s := by rw [Nat.div_add_mod]
        rw [← whole]
        ring
      rw [place, Nat.mul_add_mod, Nat.mod_eq_of_lt below]
  have total : TileDim.total ⟨s * n, m⟩ = n * m * s := by
    rw [TileDim.total]
    ring
  have inner : TileDim.total ⟨s, 1⟩ = s := mul_one s
  have outer : TileDim.total ⟨n, m⟩ = n * m := rfl
  rw [tileSources, tileSources, tileSources, total, inner, outer]
  refine Eq.trans ?_ merged
  apply flatMap_congr
  intro o _
  rw [map_flatMap]
  apply flatMap_congr
  intro k lt
  rw [map_map]
  apply map_congr_left
  intro p _
  have own : TileDim.source ⟨s, 1⟩ k = k := Nat.mod_eq_of_lt (mem_range.mp lt)
  rw [Function.comp_apply, own, map_cons, prod_cons, TileDim.source]
  ring

theorem tileSources_append_congr (outer : List TileDim) {dims' : List TileDim}
    (same : tileSources dims = tileSources dims')
    (sizes : (dims.map TileDim.size).prod = (dims'.map TileDim.size).prod) :
    tileSources (outer ++ dims) = tileSources (outer ++ dims') := by
  induction outer with
  | nil => exact same
  | cons d outer ih =>
    rw [cons_append, cons_append, tileSources, tileSources, ih]
    simp only [map_append, prod_append, sizes]

theorem tileSources_replicate_trivial (n : Nat) (dims : List TileDim) :
    tileSources (replicate n ⟨1, 1⟩ ++ dims) = tileSources dims := by
  induction n with
  | zero => rfl
  | succ n ih =>
    have once : TileDim.total ⟨1, 1⟩ = 1 := rfl
    rw [replicate_succ, cons_append, tileSources, once, range_one, flatMap_singleton, ih]
    simp [TileDim.source]

theorem length_tileSources (dims : List TileDim) :
    (tileSources dims).length = (dims.map TileDim.total).prod := by
  rw [← map_tileIndex_indices, length_map, length_indices]

theorem tileSources_of_once (once : ∀ d ∈ dims, d.copies = 1) :
    tileSources dims = range (dims.map TileDim.size).prod := by
  rw [← map_flatten_indices, ← map_tileIndex_indices]
  have totals : dims.map TileDim.total = dims.map TileDim.size :=
    map_congr_left fun d mem => by rw [TileDim.total, once d mem, mul_one]
  rw [totals]
  refine map_congr_left fun index mem => ?_
  congr 1
  induction dims generalizing index with
  | nil =>
    obtain rfl := mem_singleton.mp mem
    rfl
  | cons d rest ih =>
    obtain ⟨o, less, inner, lt, rfl⟩ := mem_indices_cons.mp mem
    have own : d.source o = o := Nat.mod_eq_of_lt less
    have later := ih (fun e inRest => once e (mem_cons_of_mem _ inRest))
      (List.cons.inj totals).2 inner lt
    rw [tileIndex, zipWith_cons_cons, own, ← tileIndex, later]

theorem tileSources_of_single (single : ∀ d ∈ dims, d.size = 1) :
    tileSources dims = replicate (dims.map TileDim.total).prod 0 := by
  refine eq_replicate_iff.mpr ⟨length_tileSources dims, fun p mem => ?_⟩
  rw [← map_tileIndex_indices] at mem
  obtain ⟨index, lt, rfl⟩ := mem_map.mp mem
  have below := flatten_lt (tileIndex_mem lt)
  have one : (dims.map TileDim.size).prod = 1 := by
    refine prod_eq_one fun size got => ?_
    obtain ⟨d, inDims, rfl⟩ := mem_map.mp got
    exact single d inDims
  omega

theorem tileSources_cons_eq (d : TileDim) (rest : List TileDim) : tileSources (d :: rest) =
      (range (d.total * (rest.map TileDim.total).prod)).map fun k =>
        d.source (k / (rest.map TileDim.total).prod) * (rest.map TileDim.size).prod +
          (tileSources rest).getD (k % (rest.map TileDim.total).prod) 0 := by
  have inner := map_getD_range (tileSources rest) 0
  rw [length_tileSources] at inner
  have rows := flatMap_range_mul d.total (rest.map TileDim.total).prod
    (fun o j => [d.source o * (rest.map TileDim.size).prod + (tileSources rest).getD j 0])
    (fun k => [d.source (k / (rest.map TileDim.total).prod) * (rest.map TileDim.size).prod +
      (tileSources rest).getD (k % (rest.map TileDim.total).prod) 0]) fun o _ j less => by
        rw [add_comm (o * _), Nat.add_mul_div_right _ _ (Nat.zero_lt_of_lt less),
          Nat.div_eq_of_lt less, zero_add, Nat.add_mul_mod_self_right, Nat.mod_eq_of_lt less]
  rw [map_eq_flatMap, ← rows, tileSources]
  refine flatMap_congr fun o _ => ?_
  conv_lhs => rw [← inner]
  rw [map_map, ← map_eq_flatMap]
  rfl

theorem tileSources_lt {p : Nat} (mem : p ∈ tileSources dims) :
    p < (dims.map TileDim.size).prod := by
  rw [← map_tileIndex_indices] at mem
  obtain ⟨index, lt, rfl⟩ := mem_map.mp mem
  exact flatten_lt (tileIndex_mem lt)

theorem getD_tileSources_cons {d : TileDim} {rest : List TileDim} {k : Nat}
    (lt : k < d.total * (rest.map TileDim.total).prod) : (tileSources (d :: rest)).getD k 0 =
      d.source (k / (rest.map TileDim.total).prod) * (rest.map TileDim.size).prod +
        (tileSources rest).getD (k % (rest.map TileDim.total).prod) 0 := by
  rw [tileSources_cons_eq, getD_eq_getElem _ _ (by simpa using lt), getElem_map, getElem_range]

end TfDml.Lib
