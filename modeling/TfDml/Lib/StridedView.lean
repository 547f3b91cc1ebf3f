import Mathlib.Algebra.BigOperators.Group.List.Basic
import Mathlib.Tactic.Ring

/-! # Positions of a strided view

A view of a flat buffer has one axis for each dimension: how many elements it
takes there, the position of the first and the step to the next. Its elements
are read in row-major order. Two views read the same if their lists of positions
are equal.
-/

namespace TfDml.Lib

open List

structure Axis where
  count : Nat
  start : Int
  step : Int
  deriving DecidableEq

/-- The positions of the elements, the last axis varying fastest. -/
def positions : List Axis → List Int
  | [] => [0]
  | axis :: rest =>
    (range axis.count).flatMap fun k : Nat =>
      (positions rest).map fun p => axis.start + (k : Int) * axis.step + p

theorem positions_cons_congr (axis : Axis) {rest rest' : List Axis}
    (same : positions rest = positions rest') :
    positions (axis :: rest) = positions (axis :: rest') := by
  simp only [positions, same]

theorem positions_one (start step : Int) (rest : List Axis) :
    positions (⟨1, start, step⟩ :: rest) = (positions rest).map fun p => start + p := by
  simp [positions, range_succ]

theorem positions_trivial (step : Int) (rest : List Axis) :
    positions (⟨1, 0, step⟩ :: rest) = positions rest := by
  simp [positions_one]

theorem positions_replicate_trivial (n : Nat) (step : Int) (rest : List Axis) :
    positions (replicate n ⟨1, 0, step⟩ ++ rest) = positions rest := by
  induction n with
  | zero => rfl
  | succ n ih => rw [replicate_succ, cons_append, positions_trivial, ih]

variable {α : Type*}

theorem flatMap_range_mul (m n : Nat) (f : Nat → Nat → List α) (g : Nat → List α)
    (same : ∀ k < m, ∀ l < n, f k l = g (k * n + l)) :
    (range m).flatMap (fun k => (range n).flatMap (f k)) = (range (m * n)).flatMap g := by
  induction m with
  | zero => simp
  | succ m ih =>
    have last : (range n).flatMap (f m) = ((range n).map (m * n + ·)).flatMap g := by
      rw [flatMap_map]
      apply flatMap_congr
      intro l mem
      exact same m (Nat.lt_succ_self m) l (mem_range.mp mem)
    have pre := ih fun k less => same k (Nat.lt_succ_of_lt less)
    rw [range_succ, flatMap_append, pre, Nat.succ_mul, range_add,
      flatMap_append, flatMap_singleton, last]

theorem positions_merge (m n : Nat) (start step : Int) (rest : List Axis) :
    positions (⟨m, start, n * step⟩ :: ⟨n, 0, step⟩ :: rest) =
      positions (⟨m * n, start, step⟩ :: rest) := by
  simp only [positions]
  rw [← flatMap_range_mul m n
    (fun k l => (positions rest).map fun p => start + (k * n + l : Nat) * step + p) _
    (fun k _ l _ => rfl)]
  apply flatMap_congr
  intro k _
  rw [map_flatMap]
  apply flatMap_congr
  intro l _
  rw [map_map]
  apply map_congr_left
  intro p _
  simp only [Function.comp_apply, Nat.cast_add, Nat.cast_mul]
  ring

/-- The axes of a block: each steps over all that is inside of it, and the last over `stride`. -/
def blockAxes (stride : Nat) : List Nat → List Axis
  | [] => []
  | size :: rest => ⟨size, 0, (rest.prod * stride : Nat)⟩ :: blockAxes stride rest

theorem positions_blockAxes (stride : Nat) (sizes : List Nat) (rest : List Axis) :
    positions (blockAxes stride sizes ++ rest) = positions (⟨sizes.prod, 0, stride⟩ :: rest) := by
  induction sizes with
  | nil => exact (positions_trivial stride rest).symm
  | cons size inner ih =>
    have merged := positions_merge size inner.prod 0 stride rest
    rw [blockAxes, cons_append, positions_cons_congr _ ih, prod_cons, Nat.cast_mul, merged]

def packedAxes : List Nat → List Axis
  | [] => []
  | size :: rest => ⟨size, 0, rest.prod⟩ :: packedAxes rest

theorem positions_packedAxes (sizes : List Nat) :
    positions (packedAxes sizes) = (range sizes.prod).map Int.ofNat := by
  suffices whole : positions (packedAxes sizes) = positions [⟨sizes.prod, 0, 1⟩] by
    rw [whole]
    simp [positions, ← map_eq_flatMap]
  induction sizes with
  | nil => rfl
  | cons size rest ih =>
    have merged := positions_merge size rest.prod 0 1 []
    rw [Int.mul_one] at merged
    rw [packedAxes, positions_cons_congr _ ih, merged, prod_cons]

def put {α : Type*} (buffer : List (Option α)) (write : Int × α) : List (Option α) :=
  buffer.set write.1.toNat (some write.2)

/-- A buffer into which values are written, each at its position. -/
def written {α : Type*} (positions : List Int) (values : List α) : List (Option α) :=
  (positions.zip values).foldl put (replicate values.length none)

theorem length_foldl_put (writes : List (Int × α)) (buffer : List (Option α)) :
    (writes.foldl put buffer).length = buffer.length := by
  induction writes generalizing buffer with
  | nil => rfl
  | cons write rest ih => rw [foldl_cons, ih, put, length_set]

theorem length_written (positions : List Int) (values : List α) :
    (written positions values).length = values.length := by
  rw [written, length_foldl_put, length_replicate]

variable {writes : List (Int × α)} {buffer : List (Option α)} {k : Nat}

theorem foldl_put_other (other : ∀ write ∈ writes, write.1.toNat ≠ k) :
    (writes.foldl put buffer)[k]? = buffer[k]? := by
  induction writes generalizing buffer with
  | nil => rfl
  | cons write rest ih =>
    obtain ⟨first, later⟩ := forall_mem_cons.mp other
    rw [foldl_cons, ih later, put, getElem?_set_ne first]

theorem foldl_put_self {write : Int × α} (differ : (writes.map fun write => write.1.toNat).Nodup)
    (mem : write ∈ writes) (lt : write.1.toNat < buffer.length) :
    (writes.foldl put buffer)[write.1.toNat]? = some (some write.2) := by
  induction writes generalizing buffer with
  | nil => simp at mem
  | cons first rest ih =>
    rw [map_cons, nodup_cons, mem_map] at differ
    obtain ⟨fresh, differ⟩ := differ
    rw [foldl_cons]
    cases mem_cons.mp mem with
    | inl same =>
      subst same
      have others : ∀ other ∈ rest, other.1.toNat ≠ write.1.toNat :=
        fun other inRest eq => fresh ⟨other, inRest, eq⟩
      rw [foldl_put_other others, put, getElem?_set_self lt]
    | inr later =>
      apply ih differ later
      rwa [put, length_set]

theorem getElem?_written {positions : List Int} {values : List α} {i : Nat} {x : α}
    (differ : (positions.map Int.toNat).Nodup) (length : positions.length = values.length)
    (position : positions[i]? = some (k : Int)) (value : values[i]? = some x)
    (inside : k < values.length) : (written positions values)[k]? = some (some x) := by
  have keys : ((positions.zip values).map fun write => write.1.toNat) =
      positions.map Int.toNat := by
    conv_rhs => rw [← map_fst_zip (le_of_eq length), map_map]
    rfl
  have mem : ((k : Int), x) ∈ positions.zip values := by
    apply mem_of_getElem? (i := i)
    rw [getElem?_zip_eq_some]
    exact ⟨position, value⟩
  exact foldl_put_self (keys ▸ differ) mem (by rwa [length_replicate])

end TfDml.Lib
