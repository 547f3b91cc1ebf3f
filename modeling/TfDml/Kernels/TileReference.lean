import TfDml.Kernels.SimplifyTile

/-! # What a tile computes

The simplified tile reads the input at the same positions as the tile that is not simplified,
unless the number of elements in the output does not fit in 32 bits. An identity is only used
where no element is repeated or where a single one is.
-/

namespace TfDml.Tile

open Lib Option
open List hiding flatten
open GatherNd (IndexType)
open ScatterNd (indexWidth)
open StridedSlice (IndexTensor u32 u32_eq_mod u32_mul u32_natCast)
open DmlTensorDesc Function TileDim

/-- The simplified tile of dimensions that do not wrap around. -/
def simpleTileOf (dims : List TileDim) : SimpleTile where
  isIdentityOp := (dims.map TileDim.copies).prod = 1 ∨ (dims.map TileDim.size).prod = 1
  inputShape := dims.map TileDim.size
  outputShape := dims.map total
  repeats := dims.map TileDim.copies

structure Simple (dims : List TileDim) : Prop where
  rank : dims.length = 8
  positive : 0 < (dims.map total).prod
  small : (dims.map total).prod < 2 ^ 32

namespace Simple

variable {dims : List TileDim}

theorem total_lt (simple : Simple dims) {d : TileDim} (mem : d ∈ dims) : d.total < 2 ^ 32 :=
  lt_of_le_of_lt (Nat.le_of_dvd simple.positive (dvd_total mem)) simple.small

theorem sizes_le (simple : Simple dims) : (dims.map TileDim.size).prod ≤ (dims.map total).prod := by
  refine Nat.le_of_dvd simple.positive ?_
  rw [prod_total]
  exact Nat.dvd_mul_right _ _

theorem size_le_total (simple : Simple dims) {d : TileDim} (mem : d ∈ dims) : d.size ≤ d.total :=
  Nat.le_of_dvd (Nat.pos_of_dvd_of_pos (dvd_total mem) simple.positive)
    (Nat.dvd_mul_right _ _)

theorem create_packed (simple : Simple dims) {dim : TileDim → Nat}
    (small : ∀ d ∈ dims, dim d < 2 ^ 32) : create (dims.map dim) (dims.map dim) =
      some ⟨dims.map dim, packedStrides (dims.map dim)⟩ := by
  refine create_self_eq_some.mpr ⟨⟨?_, fun n mem => ?_⟩, ?_⟩
  · rw [length_map, simple.rank]
    decide
  · obtain ⟨d, lt, rfl⟩ := List.mem_map.mp mem
    exact small d lt
  · rw [length_map, simple.rank]
    rfl

theorem create_output (simple : Simple dims) : create (dims.map total) (dims.map total) =
      some ⟨dims.map total, packedStrides (dims.map total)⟩ :=
  simple.create_packed fun _ => simple.total_lt

theorem create_input (simple : Simple dims) :
    create (dims.map TileDim.size) (dims.map TileDim.size) =
      some ⟨dims.map TileDim.size, packedStrides (dims.map TileDim.size)⟩ :=
  simple.create_packed fun _ mem =>
    lt_of_le_of_lt (simple.size_le_total mem) (simple.total_lt mem)

theorem addressed_input (simple : Simple dims) : DmlTensorDesc.Addressed (dims.map TileDim.size) :=
  addressed_of_lt (lt_of_le_of_lt simple.sizes_le simple.small)

variable {α : Type} (values : List α)

theorem tile_eq (simple : Simple dims) : tile (simpleTileOf dims) values =
      some ((tileSources dims).map fun src => values[src]?) := by
  have sizes : dims.map total =
      zipWith (· * ·) (dims.map TileDim.size) (dims.map TileDim.copies) := by
    rw [zipWith_map, zipWith_self]
    rfl
  rw [tile, simpleTileOf, simple.create_input, simple.create_output, bind_eq_bind, bind_some,
    bind_some, if_pos sizes, Option.some.injEq, ← map_tileIndex_indices, List.map_map]
  refine map_congr_left fun index mem => ?_
  have lt := tileIndex_mem mem
  have src : zipWith (· % ·) index (dims.map TileDim.size) = tileIndex dims index := by
    rw [tileIndex, zipWith_map_right, zipWith_comm]
    rfl
  rw [src, simple.addressed_input _ lt, comp_apply]

theorem copies_eq_one (once : (dims.map TileDim.copies).prod = 1) {d : TileDim}
    (mem : d ∈ dims) : d.copies = 1 :=
  Nat.eq_one_of_dvd_one (once ▸ dvd_prod (List.mem_map_of_mem mem))

theorem size_eq_one (single : (dims.map TileDim.size).prod = 1) {d : TileDim}
    (mem : d ∈ dims) : d.size = 1 :=
  Nat.eq_one_of_dvd_one (single ▸ dvd_prod (List.mem_map_of_mem mem))

theorem identity_once (simple : Simple dims) (once : (dims.map TileDim.copies).prod = 1) :
    identity (simpleTileOf dims) values =
      some ((tileSources dims).map fun src => values[src]?) := by
  have totals : dims.map total = dims.map TileDim.size :=
    map_congr_left fun d mem => by rw [total, copies_eq_one once mem, mul_one]
  rw [identity, simpleTileOf, totals, simple.create_input, bind_eq_bind, bind_some,
    bind_some, Option.some.injEq,
    tileSources_of_once fun d => copies_eq_one once, ← map_flatten_indices, List.map_map]
  refine map_congr_left fun index mem => ?_
  rw [simple.addressed_input _ mem, comp_apply]

theorem identity_single (simple : Simple dims) (single : (dims.map TileDim.size).prod = 1) :
    identity (simpleTileOf dims) values =
      some ((tileSources dims).map fun src => values[src]?) := by
  have ones : dims.map TileDim.size = replicate (dims.map total).length 1 := by
    rw [length_map]
    refine eq_replicate_iff.mpr ⟨length_map _, fun size mem => ?_⟩
    obtain ⟨d, lt, rfl⟩ := List.mem_map.mp mem
    exact size_eq_one single lt
  have desc := create_self_eq_some.mp simple.create_output
  have broadcast := create_ones_eq_some.mpr ⟨desc.1, rfl⟩
  have nothing : kNchwDimensionCount - (dims.map total).length = 0 := by
    rw [length_map, simple.rank]
    rfl
  rw [identity, simpleTileOf, ones, broadcast, simple.create_output, bind_eq_bind,
    bind_some, bind_some, Option.some.injEq,
    tileSources_of_single fun d => size_eq_one single, nothing]
  refine ext_getElem (by simp [length_indices]) fun k lt _ => ?_
  simp only [getElem_map, getElem_replicate, replicate_zero, nil_append]
  rw [address_broadcastStrides (getElem_mem _)]

end Simple

theorem foldl_product (n : Nat) (factors : List Nat) :
    factors.foldl (fun n factor => u32 (n * factor : Nat)) (u32 n) =
      u32 (n * factors.prod : Nat) := by
  induction factors generalizing n with
  | nil => rw [foldl_nil, prod_nil, mul_one]
  | cons factor rest ih =>
    have step : u32 ((u32 n * factor : Nat) : Int) = u32 (n * factor : Nat) := by
      simp only [u32_eq_mod, Nat.mod_mul_mod]
    rw [foldl_cons, step, ih, prod_cons, mul_assoc]

theorem product_eq (factors : List Nat) : product factors = u32 factors.prod := by
  have all := foldl_product 1 factors
  rw [one_mul] at all
  exact all

theorem dvd_sizes (dims : List TileDim) : (dims.map TileDim.size).prod ∣ (dims.map total).prod := by
  rw [prod_total]
  exact Nat.dvd_mul_right _ _

theorem dvd_copies (dims : List TileDim) :
    (dims.map TileDim.copies).prod ∣ (dims.map total).prod := by
  rw [prod_total]
  exact Nat.dvd_mul_left _ _

theorem product_reverse_of_small {dims : List TileDim} {n : Nat} (factor : TileDim → Nat)
    (dvd : (dims.map factor).prod ∣ n) (pos : 0 < n) (lt : n < 2 ^ 32) :
    product (dims.reverse.map factor) = (dims.map factor).prod := by
  rw [product_eq, map_reverse, prod_reverse]
  exact u32_natCast (lt_of_le_of_lt (Nat.le_of_dvd pos dvd) lt)

variable {w : Nat} {input : TensorShape} {multiples : IndexTensor w}

def dims (input : TensorShape) (multiples : IndexTensor w) : List TileDim :=
  (range input.length).map fun i => ⟨input.getD i 0, (multiples.flat i).toNat⟩

theorem sizes_dims (input : TensorShape) (multiples : IndexTensor w) :
    (dims input multiples).map TileDim.size = input := by
  rw [dims, List.map_map]
  exact map_getD_range input 0

theorem narrowDims_eq (nat : ∀ i, 0 ≤ multiples.flat i) :
    narrowDims input multiples = (dims input multiples).map narrow := by
  rw [dims, List.map_map, narrowDims]
  refine map_congr_left fun i _ => ?_
  rw [comp_apply, narrow, Int.toNat_of_nonneg (nat i)]

theorem simplifyTile_eq_some {ds exact : List TileDim} {simpleTile : SimpleTile}
    (eq : coalesce (ds.map narrow) = exact.map narrow) (coalesced : Coalesced ds exact)
    (pos : 0 < (ds.map total).prod) (small : (ds.map total).prod < 2 ^ 32)
    (simplified : simplifyTile (ds.map narrow) 8 = some simpleTile) :
    ∃ simple, Simple simple ∧ tileSources simple = tileSources ds ∧
      simpleTile = simpleTileOf simple := by
  have totals : (exact.map total).prod = (ds.map total).prod := by
    rw [prod_total, prod_total, coalesced.sizes, coalesced.copies]
  have exactPositive : 0 < (exact.map total).prod := totals ▸ pos
  have exactSmall : (exact.map total).prod < 2 ^ 32 := totals ▸ small
  have narrowed : exact.map narrow = exact :=
    (map_congr_left fun d mem => narrow_of_small mem exactPositive exactSmall).trans
      (List.map_id exact)
  rw [narrowed] at eq
  rw [simplifyTile, eq] at simplified
  split at simplified
  case isTrue => cases simplified
  case isFalse lt =>
    refine ⟨replicate (8 - exact.length) ⟨1, 1⟩ ++ exact, ⟨?_, ?_, ?_⟩, ?_, ?_⟩
    · rw [length_append, length_replicate]
      omega
    · simpa [total] using exactPositive
    · simpa [total] using exactSmall
    · rw [tileSources_replicate_trivial, coalesced.sources pos small]
    · have once := product_reverse_of_small TileDim.copies (dvd_copies exact) exactPositive
        exactSmall
      have single := product_reverse_of_small TileDim.size (dvd_sizes exact) exactPositive
        exactSmall
      have outs : (exact.map fun d => u32 (d.size * d.copies : Nat)) =
          exact.map total := map_congr_left fun d mem =>
        u32_natCast (lt_of_le_of_lt (Nat.le_of_dvd exactPositive (dvd_total mem)) exactSmall)
      rw [← some.inj simplified, simpleTileOf, once, single, outs]
      simp [total]

structure TileCall where
  index : IndexType
  input : TensorShape
  multiples : IndexTensor (indexWidth index)
  counted : multiples.numElements = input.length
  natural : ∀ i, 0 ≤ multiples.flat i

namespace TileCall

variable (c : TileCall)

def dims : List TileDim := Tile.dims c.input c.multiples

/-- Each element of the output is read at its index modulo the dimensions of the input. -/
def reference {α : Type} (values : List α) : List (Option α) :=
  (indices (c.dims.map total)).map fun index =>
    values[flatten c.input (zipWith (· % ·) index c.input)]?

/-- More dimensions than are supported, none of which can be coalesced with another one, tile
    like those of the invocation. -/
def Irreducible : Prop :=
  ∃ exact : List TileDim, 8 < exact.length ∧ exact.IsChain Separate ∧ SameTiling exact c.dims

/-- An accepted invocation computes the reference, and only irreducible ones are refused. -/
def Simplifies : Prop :=
  ∀ (α : Type) [Zero α] (values : List α), values.length = c.input.numElements →
    match compute c.input c.multiples values with
    | .ok output => output = some (c.reference values)
    | .error _ => c.Irreducible

theorem sizes_dims : c.dims.map TileDim.size = c.input := Tile.sizes_dims c.input c.multiples

theorem reference_eq {α : Type} (values : List α) :
    c.reference values = (tileSources c.dims).map fun src => values[src]? := by
  rw [reference, ← map_tileIndex_indices, List.map_map]
  refine map_congr_left fun index _ => ?_
  have src : zipWith (· % ·) index c.input = tileIndex c.dims index := by
    rw [tileIndex, ← c.sizes_dims, zipWith_map_right, zipWith_comm]
    rfl
  rw [src, comp_apply, c.sizes_dims]

theorem getOutputShape_eq : getOutputShape c.input c.multiples = some (c.dims.map total) := by
  rw [getOutputShape, dims, Tile.dims, List.map_map]
  refine mapM_eq_some fun i _ => ?_
  rw [if_pos (c.natural i)]
  rfl

theorem isNoOpKernel_iff :
    isNoOpKernel c.input c.multiples = true ↔ (c.dims.map total).prod = 0 := by
  rw [isNoOpKernel, Bool.or_eq_true, beq_iff_eq, List.any_eq_true, prod_total, c.sizes_dims,
    Nat.mul_eq_zero]
  refine or_congr Iff.rfl ?_
  rw [prod_eq_zero_iff, dims, Tile.dims, List.map_map, List.mem_map]
  refine exists_congr fun i => and_congr_right fun _ => ?_
  have nat := c.natural i
  rw [beq_iff_eq, comp_apply]
  exact ⟨fun zero => by simp [zero], fun zero => by simp at zero; omega⟩

theorem coalesced : ∃ exact, coalesce (narrowDims c.input c.multiples) = exact.map narrow ∧
    Coalesced c.dims exact := by
  rw [narrowDims_eq c.natural]
  exact coalesce_narrow c.dims

theorem irreducible_of_refused (few : (c.dims.map total).prod < 2 ^ 32) {status : Status}
    (refused : initHelper c.input c.multiples = .error status) : c.Irreducible := by
  obtain ⟨exact, eq, coalesced⟩ := c.coalesced
  rw [initHelper, simplifyTile, eq, length_map] at refused
  split at refused
  case h_1 tooMany =>
    rw [ite_eq_left_iff] at tooMany
    refine ⟨exact, ?_, coalesced.separate, ⟨?_, coalesced.sizes, coalesced.copies⟩⟩
    · by_contra within
      simp at tooMany
      omega
    · cases Nat.eq_zero_or_pos (c.dims.map total).prod with
      | inl empty =>
        have nothing : (exact.map total).prod = 0 := by
          rw [prod_total, coalesced.sizes, coalesced.copies, ← prod_total, empty]
        rw [eq_nil_of_length_eq_zero ((length_tileSources exact).trans nothing),
          eq_nil_of_length_eq_zero ((length_tileSources c.dims).trans empty)]
      | inr pos => exact coalesced.sources pos few
  case h_2 => cases refused

theorem compute_of_accepted (few : (c.dims.map total).prod < 2 ^ 32)
    {simpleTile : SimpleTile} (ok : initHelper c.input c.multiples = .ok simpleTile)
    {α : Type} [Zero α] (values : List α) :
    compute c.input c.multiples values = .ok (some (c.reference values)) := by
  rw [compute, ok, c.getOutputShape_eq]
  by_cases skipped : isNoOpKernel c.input c.multiples = true
  · have empty := c.isNoOpKernel_iff.mp skipped
    have nothing : c.reference values = [] := by
      refine eq_nil_of_length_eq_zero ?_
      rw [reference, length_map, length_indices, empty]
    rw [nothing, ← NoOpKernel.zeroed_of_empty empty]
    simp only [skipped]
    rfl
  · have pos := Nat.pos_of_ne_zero (mt c.isNoOpKernel_iff.mpr skipped)
    obtain ⟨exact, eq, coalesced⟩ := coalesce_narrow c.dims
    have simplified : simplifyTile (c.dims.map narrow) 8 = some simpleTile := by
      rw [initHelper, narrowDims_eq c.natural] at ok
      split at ok
      case h_1 => cases ok
      case h_2 got => exact got.trans (congrArg some (Except.ok.inj ok))
    obtain ⟨simple, isSimple, sources, rfl⟩ := simplifyTile_eq_some eq coalesced pos few simplified
    have runs : (if (simpleTileOf simple).isIdentityOp then identity (simpleTileOf simple) values
        else tile (simpleTileOf simple) values) = some (c.reference values) := by
      rw [c.reference_eq, ← sources]
      split
      case isTrue isIdentity =>
        cases of_decide_eq_true isIdentity with
        | inl once => exact isSimple.identity_once values once
        | inr single => exact isSimple.identity_single values single
      case isFalse => exact isSimple.tile_eq values
    rw [← runs]
    simp only [skipped]
    rfl

end TileCall

structure SmallTileCall extends TileCall where
  few : (toTileCall.dims.map total).prod < 2 ^ 32

theorem compute_simplifies (c : SmallTileCall) : c.Simplifies := by
  intro α _ values _
  cases acc : initHelper c.input c.multiples with
  | ok simpleTile => rw [c.compute_of_accepted c.few acc values]
  | error status =>
    have refused : compute c.input c.multiples values = .error status := by
      rw [compute, acc]
      rfl
    rw [refused]
    exact c.irreducible_of_refused c.few acc

/-- A matrix with `2 ^ 32 + 1` elements that is tiled twice. -/
def wrapping : TileCall where
  index := .int32
  input := [641, 6700417]
  multiples := ⟨[2], [2, 1], rfl⟩
  counted := rfl
  natural i := by
    match i with
    | 0 | 1 => decide
    | i + 2 => exact Int.le_refl 0

/-- The coalesced dimension has a single element, so that the output has two. -/
theorem wrapping_not_simplifies : ¬ wrapping.Simplifies := by
  intro simplifies
  have length : (replicate (wrapping.input.numElements) (0 : Int)).length =
      wrapping.input.numElements := length_replicate
  have tiled := simplifies Int _ length
  have eq : ∀ values : List Int, compute wrapping.input wrapping.multiples values =
      .ok (some [values[0]?, values[0]?]) := fun values => rfl
  rw [eq] at tiled
  have lens := congrArg List.length (some.inj tiled)
  rw [TileCall.reference, length_map, length_indices] at lens
  exact absurd lens (by decide)

end TfDml.Tile
