import TfDml.Core.TensorDesc
import TfDml.Kernels.ScatterNdArithmetic
import TfDml.Lib.Tiling

/-! # Simplified tiles

`SimplifyTile` coalesces a dimension with the outer ones that have one element, and with any
outer ones as long as it is not repeated. A tile that repeats nothing, or a single element,
becomes an identity whose input is broadcast.
-/

namespace TfDml.Tile

open Lib List
open GatherNd (IndexType)
open ScatterNd (indexWidth)
open StridedSlice (IndexTensor u32 u32_mul u32_natCast)
open DmlTensorDesc TileDim

structure SimpleTile where
  isIdentityOp : Bool
  inputShape : List Nat
  outputShape : List Nat
  repeats : List Nat
  deriving DecidableEq

/-- The loops from the dimension inside of `outer` on, which lists the others from the inside.
    The dimensions that are finished are `simple`. -/
def coalesceFrom (current : TileDim) (simple : List TileDim) : List TileDim → List TileDim
  | [] => current :: simple
  | next :: outer =>
    if next.size = 1 ∨ current.copies = 1 then
      coalesceFrom
        ⟨u32 (current.size * next.size : Nat), u32 (current.copies * next.copies : Nat)⟩
        simple outer
    else coalesceFrom next (current :: simple) outer

def coalesce (dims : List TileDim) : List TileDim :=
  match dims.reverse with
  | [] => []
  | current :: outer => coalesceFrom current [] outer

def product (factors : List Nat) : Nat := factors.foldl (fun n factor => u32 (n * factor : Nat)) 1

def simplifyTile (dims : List TileDim) (outputSize : Nat) : Option SimpleTile :=
  let simple := coalesce dims
  if outputSize < simple.length then none
  else
    let ones := replicate (outputSize - simple.length) 1
    some {
      isIdentityOp := product (simple.reverse.map TileDim.copies) = 1 ∨
        product (simple.reverse.map size) = 1
      inputShape := ones ++ simple.map size
      outputShape := ones ++ simple.map fun d => u32 (d.size * d.copies : Nat)
      repeats := ones ++ simple.map TileDim.copies }

variable {w : Nat}

/-- The dimensions of the input and their multiples, in 32 bits. -/
def narrowDims (input : TensorShape) (multiples : IndexTensor w) : List TileDim :=
  (range input.length).map fun i => ⟨u32 (input.getD i 0), u32 (multiples.flat i)⟩

/-- `GetOutputShapes`, which requires multiples that are not negative. -/
def getOutputShape (input : TensorShape) (multiples : IndexTensor w) : Option TensorShape :=
  (range input.length).mapM fun i =>
    if 0 ≤ multiples.flat i then some (input.getD i 0 * (multiples.flat i).toNat) else none

/-- The constructor of `TileInitializationHelper`. -/
def initHelper (input : TensorShape) (multiples : IndexTensor w) : Except Status SimpleTile :=
  match simplifyTile (narrowDims input multiples) 8 with
  | none => .error (.invalidArgument ("DML doesn't support more than 8 dimensions for Tile after " ++
      "collapsing non-repeatable dimensions together, but could not simplify the given shape to " ++
      "8D."))
  | some tile => .ok tile

def isNoOpKernel (input : TensorShape) (multiples : IndexTensor w) : Bool :=
  input.numElements == 0 || (range input.length).any fun i => multiples.flat i == 0

section Kernel

variable {α : Type}

def identity (tile : SimpleTile) (values : List α) : Option (List (Option α)) := do
  let input ← create tile.outputShape tile.inputShape
  let output ← create tile.outputShape tile.outputShape
  some ((indices output.sizes).map fun index =>
    values[address input.strides index]?)

/-- `dml::Tile`, whose output must have the sizes that are bound. -/
def tile (tile : SimpleTile) (values : List α) : Option (List (Option α)) := do
  let input ← create tile.inputShape tile.inputShape
  let output ← create tile.outputShape tile.outputShape
  if output.sizes = zipWith (· * ·) input.sizes tile.repeats then
    some ((indices output.sizes).map fun index =>
      values[address input.strides (zipWith (· % ·) index input.sizes)]?)
  else none

/-- The output of the op. Without a result, a `CHECK` ends the process. A skipped kernel leaves
    zeros. -/
def compute [Zero α] (input : TensorShape) (multiples : IndexTensor w) (values : List α) :
    Except Status (Option (List (Option α))) := do
  let simpleTile ← initHelper input multiples
  .ok do
    let outputShape ← getOutputShape input multiples
    if isNoOpKernel input multiples then some (NoOpKernel.zeroed outputShape)
    else if simpleTile.isIdentityOp then identity simpleTile values
    else tile simpleTile values

end Kernel

def Separate (outer inner : TileDim) : Prop := outer.size ≠ 1 ∧ inner.copies ≠ 1

structure SameTiling (dims dims' : List TileDim) : Prop where
  sources : tileSources dims = tileSources dims'
  sizes : (dims.map size).prod = (dims'.map size).prod
  copies : (dims.map TileDim.copies).prod = (dims'.map TileDim.copies).prod

variable {dims dims' : List TileDim}

theorem SameTiling.append (outer : List TileDim) (same : SameTiling dims dims') :
    SameTiling (outer ++ dims) (outer ++ dims') where
  sources := tileSources_append_congr outer same.sources same.sizes
  sizes := by rw [map_append, map_append, prod_append, prod_append, same.sizes]
  copies := by rw [map_append, map_append, prod_append, prod_append, same.copies]

theorem prod_total (dims : List TileDim) : (dims.map total).prod =
    (dims.map size).prod * (dims.map TileDim.copies).prod := by
  induction dims with
  | nil => rfl
  | cons d rest ih =>
    rw [map_cons, map_cons, map_cons, prod_cons, prod_cons, prod_cons, ih, total]
    ring

variable {current : TileDim}

theorem SameTiling.merge {next : TileDim} (merges : next.size = 1 ∨ current.copies = 1)
    (simple : List TileDim) :
    SameTiling (⟨current.size * next.size, current.copies * next.copies⟩ :: simple)
      (next :: current :: simple) := by
  obtain ⟨n, m⟩ := next
  obtain ⟨s, r⟩ := current
  refine ⟨?_, ?_, ?_⟩
  · cases merges with
    | inl single =>
      obtain rfl : n = 1 := single
      rw [tileSources_merge_single, mul_one]
    | inr once =>
      obtain rfl : r = 1 := once
      rw [tileSources_merge_whole, one_mul]
  · simp only [map_cons, prod_cons]
    ring
  · simp only [map_cons, prod_cons]
    ring

def narrow (d : TileDim) : TileDim := ⟨u32 d.size, u32 d.copies⟩

/-- What is left of dimensions once no two of them can be coalesced. -/
structure Coalesced (dims exact : List TileDim) : Prop where
  separate : exact.IsChain Separate
  sizes : (exact.map size).prod = (dims.map size).prod
  copies : (exact.map TileDim.copies).prod = (dims.map TileDim.copies).prod
  sources : 0 < (dims.map total).prod → (dims.map total).prod < 2 ^ 32 →
    tileSources exact = tileSources dims

theorem Coalesced.of_same {exact : List TileDim} (same : SameTiling dims dims')
    (coalesced : Coalesced dims exact) : Coalesced dims' exact where
  separate := coalesced.separate
  sizes := coalesced.sizes.trans same.sizes
  copies := coalesced.copies.trans same.copies
  sources pos small := by
    rw [prod_total, ← same.sizes, ← same.copies, ← prod_total] at pos small
    rw [coalesced.sources pos small, same.sources]

variable {d : TileDim}

theorem dvd_total (mem : d ∈ dims) : d.total ∣ (dims.map total).prod :=
  dvd_prod (mem_map_of_mem mem)

theorem narrow_of_small (mem : d ∈ dims) (pos : 0 < (dims.map total).prod)
    (small : (dims.map total).prod < 2 ^ 32) : narrow d = d := by
  have divides := dvd_total mem
  have below : d.total ≤ _ := Nat.le_of_dvd pos divides
  have sizeLe : d.size ≤ (dims.map total).prod :=
    Nat.le_of_dvd pos ((Nat.dvd_mul_right d.size d.copies).trans divides)
  have copiesLe : d.copies ≤ (dims.map total).prod :=
    Nat.le_of_dvd pos ((Nat.dvd_mul_left d.copies d.size).trans divides)
  rw [narrow, u32_natCast (lt_of_le_of_lt sizeLe small),
    u32_natCast (lt_of_le_of_lt copiesLe small)]

theorem ne_one_of_u32 {n : Nat} (other : u32 n ≠ 1) : n ≠ 1 := by
  rintro rfl
  exact other (by decide)

variable {simple : List TileDim}

theorem separate_merge (next : TileDim) (separate : (current :: simple).IsChain Separate) :
    (⟨current.size * next.size, current.copies * next.copies⟩ :: simple).IsChain Separate := by
  cases simple with
  | nil => exact isChain_singleton _
  | cons inner simple =>
    obtain ⟨apart, lt⟩ := isChain_cons_cons.mp separate
    refine isChain_cons_cons.mpr ⟨⟨fun single => ?_, apart.2⟩, lt⟩
    exact apart.1 (Nat.eq_one_of_mul_eq_one_right single)

theorem coalesceFrom_narrow (outer : List TileDim)
    (separate : (current :: simple).IsChain Separate) :
    ∃ exact, coalesceFrom (narrow current) (simple.map narrow) (outer.map narrow) =
        exact.map narrow ∧ Coalesced (outer.reverse ++ current :: simple) exact := by
  induction outer generalizing current simple with
  | nil => exact ⟨current :: simple, rfl, separate, rfl, rfl, fun _ _ => rfl⟩
  | cons next outer ih =>
    rw [map_cons, coalesceFrom, reverse_cons, append_assoc, singleton_append]
    split
    case isTrue merges =>
      have merged : (⟨u32 ((narrow current).size * (narrow next).size : Nat),
          u32 ((narrow current).copies * (narrow next).copies : Nat)⟩ : TileDim) =
          narrow ⟨current.size * next.size, current.copies * next.copies⟩ := by
        simp only [narrow, u32_mul]
      rw [merged]
      obtain ⟨exact, eq, coalesced⟩ := ih (separate_merge next separate)
      refine ⟨exact, eq, coalesced.separate, ?_, ?_, fun pos small => ?_⟩
      · rw [coalesced.sizes]
        simp only [map_append, map_cons, prod_append, prod_cons]
        ring
      · rw [coalesced.copies]
        simp only [map_append, map_cons, prod_append, prod_cons]
        ring
      · rw [narrow_of_small (d := next) (by simp) pos small,
          narrow_of_small (d := current) (by simp) pos small] at merges
        have whole := (SameTiling.merge merges simple).append outer.reverse
        exact (coalesced.of_same whole).sources pos small
    case isFalse apart =>
      rw [not_or] at apart
      exact ih (isChain_cons_cons.mpr
        ⟨⟨ne_one_of_u32 apart.1, ne_one_of_u32 apart.2⟩, separate⟩)

theorem coalesce_narrow (dims : List TileDim) :
    ∃ exact, coalesce (dims.map narrow) = exact.map narrow ∧ Coalesced dims exact := by
  rw [coalesce, ← map_reverse]
  cases reversed : dims.reverse with
  | nil =>
    obtain rfl := reverse_eq_nil_iff.mp reversed
    exact ⟨[], rfl, isChain_nil, rfl, rfl, fun _ _ => rfl⟩
  | cons current outer =>
    have lt : dims = outer.reverse ++ [current] := by
      rw [← reverse_cons, ← reversed, reverse_reverse]
    rw [lt]
    exact coalesceFrom_narrow outer (isChain_singleton current)

end TfDml.Tile
