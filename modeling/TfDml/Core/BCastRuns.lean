import TfDml.Core.BCast
import TfDml.Lib.BroadcastView

/-! # Runs of dimensions

Neighbours that are broadcast in the same way are a run, whose size has no bound here. The reshaped
operands have an entry for each run, in 64 bits, and read what the operands read.
-/

namespace TfDml.BCast

open Lib List Option
open RangeOp (i64)

structure Run where
  state : State
  size : Nat
  deriving DecidableEq

namespace Run

def single (run : Run) : Bool := run.state == .same && run.size == 1

def dim (run : Run) : Dim :=
  let size := i64 run.size
  match run.state with
  | .xOne => ⟨size, 1, size, size, 1⟩
  | .yOne => ⟨size, size, 1, 1, size⟩
  | _ => ⟨size, size, 1, size, 1⟩

def tile (one : State) (run : Run) : TileDim :=
  if run.state = one then ⟨1, run.size⟩ else ⟨run.size, 1⟩

end Run

def prepend (run : Run) : List Run → List Run
  | [] => if run.single then [] else [run]
  | group :: rest =>
    if run.single then group :: rest
    else if group.state = run.state then ⟨run.state, run.size * group.size⟩ :: rest
    else run :: group :: rest

def merge : List Run → List Run
  | [] => []
  | run :: rest => prepend run (merge rest)

def pairRuns : List (Nat × Nat) → Option (List Run)
  | [] => some []
  | (x, y) :: inner => do
    let runs ← pairRuns inner
    let (curr, o, _) ← classify x y
    return ⟨curr, o⟩ :: runs

def collapsed (fewerDims : Bool) (runs : List Run) : List Run :=
  if fewerDims then merge runs else runs

def latest : List Run → State
  | [] => .unknown
  | run :: rest => if run.single then latest rest else run.state

theorem latest_eq (runs : List Run) :
    latest runs = ((merge runs).head?.map Run.state).getD .unknown := by
  induction runs with
  | nil => rfl
  | cons run rest ih =>
    rw [latest, ih, merge]
    cases merge rest with
    | nil => cases dropped : run.single <;> simp [prepend, dropped]
    | cons group others =>
      rw [prepend]
      split_ifs <;> rfl

variable {x y : Nat}

theorem classify_eq_some {curr : State} {o bx by_ : Nat}
    (got : classify x y = some (curr, o, bx, by_)) (lt : o < 2 ^ 63) :
    (⟨o, x, bx, y, by_⟩ : Dim) = Run.dim ⟨curr, o⟩ ∧ curr ≠ .unknown ∧
      (curr == .same && x == 1) = Run.single ⟨curr, o⟩ := by
  have size : i64 o = o := RangeOp.i64_of_bounds (by omega) (by omega)
  rw [classify] at got
  split_ifs at got with same one one' <;> cases got <;> simp_all [Run.dim, Run.single]

theorem mul_dim (run group : Run) (same : group.state = run.state) :
    run.dim.mul group.dim = Run.dim ⟨run.state, run.size * group.size⟩ := by
  have product :
      i64 (i64 group.size * i64 run.size) = i64 ((run.size * group.size : Nat) : Int) := by
    rw [i64, i64, i64, Int.bmod_mul_bmod, Int.mul_bmod_bmod, Int.mul_comm, Nat.cast_mul, i64]
  have one : i64 (1 * 1) = 1 := by decide
  obtain ⟨state, size⟩ := run
  obtain rfl : group.state = state := same
  cases group_ : group.state <;>
    simp only [Run.dim, group_, Dim.mul, product, one]

variable {fewerDims : Bool}

theorem collect_eq {pairs : List (Nat × Nat)}
    (lt : ∀ pair ∈ pairs, pair.1 < 2 ^ 63 ∧ pair.2 < 2 ^ 63) :
    collect fewerDims pairs = (pairRuns pairs).map fun runs =>
      ⟨latest runs, (collapsed fewerDims runs).map Run.dim, runs.map Run.size⟩ := by
  induction pairs with
  | nil => cases fewerDims <;> rfl
  | cons pair inner ih =>
    obtain ⟨x, y⟩ := pair
    rw [forall_mem_cons] at lt
    rw [collect, ih lt.2, pairRuns]
    cases pairRuns inner with
    | none => rfl
    | some runs =>
      simp only [map_some, bind_some, bind_eq_bind, visit]
      cases got : classify x y with
      | none => rfl
      | some result =>
        obtain ⟨curr, o, bx, by_⟩ := result
        have size : o < 2 ^ 63 := by
          rw [classify] at got
          split_ifs at got <;> cases got <;> omega
        obtain ⟨dim, known, both⟩ := classify_eq_some got size
        simp only [map_some, both]
        cases fewerDims with
        | false =>
          cases dropped : Run.single ⟨curr, o⟩ <;>
            simp [dropped, latest, collapsed, push, dim, pure]
        | true =>
          have prev := latest_eq runs
          cases dropped : Run.single ⟨curr, o⟩ with
          | true =>
            cases merged : merge runs <;>
              simp [dropped, latest, collapsed, merge, merged, prepend, pure]
          | false =>
            cases merged : merge runs with
            | nil =>
              rw [merged, head?_nil, map_none, getD_none] at prev
              simp [dropped, latest, collapsed, merge, merged, prepend, push, dim, pure,
                prev, known.symm]
            | cons group rest =>
              rw [merged, head?_cons, map_some, getD_some]
                at prev
              by_cases same : group.state = curr
              · have product := mul_dim ⟨curr, o⟩ group same
                simp [dropped, latest, collapsed, merge, merged, prepend, push, dim,
                  pure, prev, same, product]
              · simp [dropped, latest, collapsed, merge, merged, prepend, push, dim,
                  pure, prev, same]

theorem prod_merge {size : Run → Nat} (single : ∀ run, run.single = true → size run = 1)
    (mul : ∀ state m n, size ⟨state, m * n⟩ = size ⟨state, m⟩ * size ⟨state, n⟩)
    (runs : List Run) : ((merge runs).map size).prod = (runs.map size).prod := by
  induction runs with
  | nil => rfl
  | cons run rest ih =>
    rw [merge, map_cons, prod_cons, ← ih]
    cases dropped : run.single with
    | true => cases merge rest <;> simp [prepend, dropped, single run dropped]
    | false =>
      cases merge rest with
      | nil => simp [prepend, dropped]
      | cons group others =>
        by_cases same : group.state = run.state
        · have whole : size group = size ⟨run.state, group.size⟩ := by rw [← same]
          rw [prepend, if_neg (by simp [dropped]), if_pos same, map_cons, map_cons,
            prod_cons, prod_cons, mul, whole, mul_assoc]
        · simp [prepend, dropped, same]

variable {run : Run}

theorem single_eq (dropped : run.single = true) : run = ⟨.same, 1⟩ := by
  obtain ⟨state, size⟩ := run
  simpa [Run.single] using dropped

theorem size_tile (one : State) (run : Run) :
    (run.tile one).size = if run.state = one then 1 else run.size := by
  rw [Run.tile]
  split <;> rfl

theorem prod_size_merge (runs : List Run) :
    ((merge runs).map Run.size).prod = (runs.map Run.size).prod :=
  prod_merge (fun run dropped => by rw [single_eq dropped]) (fun _ _ _ => rfl) runs

theorem prod_tile_merge (one : State) (runs : List Run) :
    ((merge runs).map fun run => (run.tile one).size).prod =
      (runs.map fun run => (run.tile one).size).prod := by
  refine prod_merge (fun run dropped => ?_) (fun state m n => ?_) runs
  · rw [single_eq dropped, size_tile]
    split <;> rfl
  · rw [size_tile, size_tile, size_tile]
    split <;> rfl

theorem tileSources_merge (one : State) (runs : List Run) :
    tileSources ((merge runs).map (Run.tile one)) = tileSources (runs.map (Run.tile one)) := by
  induction runs with
  | nil => rfl
  | cons run rest ih =>
    have front : tileSources ((run :: merge rest).map (Run.tile one)) =
        tileSources ((run :: rest).map (Run.tile one)) :=
      tileSources_append_congr [run.tile one] ih (by
        rw [List.map_map, List.map_map]
        exact prod_tile_merge one rest)
    rw [← front, merge]
    cases dropped : run.single with
    | true =>
      have trivial_ : run.tile one = ⟨1, 1⟩ := by
        rw [single_eq dropped, Run.tile]
        split <;> rfl
      have kept : prepend run (merge rest) = merge rest := by
        cases merge rest <;> simp [prepend, dropped]
      rw [kept, map_cons, trivial_]
      exact (tileSources_replicate_trivial 1 _).symm
    | false =>
      cases merge rest with
      | nil => simp [prepend, dropped]
      | cons group others =>
        rw [prepend, if_neg (by simp [dropped])]
        split
        case isFalse => rfl
        case isTrue same =>
          rw [map_cons, map_cons, map_cons, Run.tile, Run.tile, Run.tile, same]
          split
          case isTrue =>
            rw [mul_comm]
            exact (tileSources_merge_single _ _ _ _).symm
          case isFalse =>
            rw [mul_comm]
            exact (tileSources_merge_whole _ _ _ _).symm

theorem pairRuns_self (xs : List Nat) :
    pairRuns (xs.zip xs) = some (xs.map fun size => ⟨.same, size⟩) := by
  induction xs with
  | nil => rfl
  | cons x xs ih =>
    rw [zip_cons_cons, pairRuns, ih, classify, if_pos rfl]
    rfl

variable {xs ys : List Nat} {runs : List Run}

theorem tiles_of_pairRuns (length : xs.length = ys.length)
    (got : pairRuns (xs.zip ys) = some runs) : broadcast xs ys = some (runs.map Run.size) ∧
      runs.map (Run.tile .xOne) = List.zipWith stretchTile xs (runs.map Run.size) ∧
      runs.map (Run.tile .yOne) = List.zipWith stretchTile ys (runs.map Run.size) := by
  induction xs generalizing ys runs with
  | nil =>
    obtain rfl := length_eq_zero_iff.mp length.symm
    obtain rfl := some.inj got
    exact ⟨rfl, rfl, rfl⟩
  | cons x xs ih =>
    cases ys with
    | nil => simp at length
    | cons y ys =>
      have length : xs.length = ys.length := Nat.succ_injective length
      rw [zip_cons_cons, pairRuns] at got
      obtain ⟨rest, inner, later⟩ := bind_eq_some_iff.mp got
      obtain ⟨⟨curr, o, bx, by_⟩, classified, same⟩ := bind_eq_some_iff.mp later
      obtain rfl := some.inj same
      obtain ⟨shape, first, snd⟩ := ih length inner
      have dim : broadcastDim x y = some o := by rw [← classify_output, classified]; rfl
      have tiles : Run.tile .xOne ⟨curr, o⟩ = stretchTile x o ∧
          Run.tile .yOne ⟨curr, o⟩ = stretchTile y o := by
        rw [classify] at classified
        split_ifs at classified <;> cases classified <;> simp_all [Run.tile, stretchTile]
      refine ⟨?_, ?_, ?_⟩
      · rw [broadcast_cons length, shape, dim]
        rfl
      · rw [map_cons, map_cons, zipWith_cons_cons, first, tiles.1]
      · rw [map_cons, map_cons, zipWith_cons_cons, snd, tiles.2]

def operandRuns (sx sy : TensorShape) (fewerDims : Bool) (runs : List Run) : List Run :=
  if sx = sy ∧ fewerDims then [⟨.same, sx.prod⟩]
  else if (collapsed fewerDims runs).isEmpty then [⟨.same, 1⟩]
  else collapsed fewerDims runs

theorem foldl_i64 (dims : List Int) :
    dims.foldl (fun (n : Int) dim => i64 (n * dim)) 1 = i64 dims.prod := by
  have fold (n : Int) :
      dims.foldl (fun (n : Int) dim => i64 (n * dim)) (i64 n) = i64 (n * dims.prod) := by
    induction dims generalizing n with
    | nil => simp
    | cons dim rest ih =>
      have first : i64 (i64 n * dim) = i64 (n * dim) := by rw [i64, i64, i64, Int.bmod_mul_bmod]
      rw [foldl_cons, first, ih, prod_cons, Int.mul_assoc]
  have one : i64 1 = 1 := by decide
  have start := fold 1
  rwa [one, one_mul] at start

theorem lt_of_mem_aligned {shape : TensorShape} {rank : Nat} (lt : ∀ dim ∈ shape, dim < 2 ^ 63)
    {dim : Nat} (mem : dim ∈ aligned rank shape) : dim < 2 ^ 63 := by
  rcases mem_append.mp mem with one | own
  · rw [eq_of_mem_replicate one]
    decide
  · exact lt dim own

variable {sx sy : TensorShape}

theorem create_eq (lt : ∀ dim ∈ sx, dim < 2 ^ 63) (lt' : ∀ dim ∈ sy, dim < 2 ^ 63) :
    create sx sy fewerDims = (pairRuns (extended sx sy)).map fun runs =>
      ⟨(operandRuns sx sy fewerDims runs).map Run.dim, runs.map Run.size⟩ := by
  rw [create]
  split
  case isTrue fast =>
    obtain ⟨rfl, rfl⟩ := fast
    have elements := foldl_i64 (sx.map Nat.cast)
    rw [foldl_map, ← Nat.cast_list_prod] at elements
    rw [extended, Nat.max_self, aligned_length, pairRuns_self, map_some, operandRuns,
      if_pos ⟨rfl, rfl⟩, elements, List.map_map]
    have output : sx.map (Run.size ∘ fun size => (⟨.same, size⟩ : Run)) = sx := List.map_id' sx
    rw [output]
    rfl
  case isFalse slow =>
    have entries : ∀ pair ∈ extended sx sy, pair.1 < 2 ^ 63 ∧ pair.2 < 2 ^ 63 := by
      intro pair mem
      obtain ⟨first, snd⟩ := of_mem_zip mem
      exact ⟨lt_of_mem_aligned lt first, lt_of_mem_aligned lt' snd⟩
    rw [collect_eq entries, Option.map_map]
    congr 1
    funext runs
    simp only [Function.comp_apply, operandRuns, slow, if_false, isEmpty_map]
    split <;> rfl

theorem operandRuns_spec (got : pairRuns (extended sx sy) = some runs) (fewerDims : Bool) :
    (((operandRuns sx sy fewerDims runs).map Run.size).prod = (runs.map Run.size).prod) ∧
      ∀ one, one ≠ .same → tileSources ((operandRuns sx sy fewerDims runs).map (Run.tile one)) =
            tileSources (runs.map (Run.tile one)) ∧
          ((operandRuns sx sy fewerDims runs).map fun run => (run.tile one).size).prod =
            (runs.map fun run => (run.tile one).size).prod := by
  rw [operandRuns]
  split
  case isTrue fast =>
    obtain ⟨rfl, rfl⟩ := fast
    rw [extended, Nat.max_self, aligned_length, pairRuns_self] at got
    obtain rfl := some.inj got
    have sizes : (sx.map fun size => (⟨.same, size⟩ : Run)).map Run.size = sx := by
      rw [List.map_map]
      exact List.map_id' sx
    refine ⟨by rw [sizes]; exact prod_singleton, fun one many => ?_⟩
    have tile (size : Nat) : Run.tile one ⟨.same, size⟩ = ⟨size, 1⟩ := if_neg (Ne.symm many)
    have tiles : (sx.map fun size => (⟨.same, size⟩ : Run)).map (Run.tile one) =
        sx.map fun size => ⟨size, 1⟩ := by
      rw [List.map_map]
      exact map_congr_left fun size _ => tile size
    have read : (sx.map fun size => (⟨size, 1⟩ : TileDim)).map TileDim.size = sx := by
      rw [List.map_map]
      exact List.map_id' sx
    have total := congrArg (fun dims => (dims.map TileDim.size).prod) tiles
    simp only [read, List.map_map] at total
    constructor
    · rw [tiles, map_singleton, tile, tileSources_of_once (by simp),
        tileSources_of_once (by simp), read, map_singleton, prod_singleton]
    · rw [map_singleton, tile, prod_singleton, List.map_map]
      exact total.symm
  case isFalse =>
    have whole : ((collapsed fewerDims runs).map Run.size).prod = (runs.map Run.size).prod ∧
        ∀ one, tileSources ((collapsed fewerDims runs).map (Run.tile one)) =
            tileSources (runs.map (Run.tile one)) ∧
          ((collapsed fewerDims runs).map fun run => (run.tile one).size).prod =
            (runs.map fun run => (run.tile one).size).prod := by
      cases fewerDims with
      | false => exact ⟨rfl, fun _ => ⟨rfl, rfl⟩⟩
      | true => exact ⟨prod_size_merge runs, fun one =>
        ⟨tileSources_merge one runs, prod_tile_merge one runs⟩⟩
    split
    case isTrue empty =>
      rw [List.isEmpty_iff] at empty
      rw [empty] at whole
      refine ⟨whole.1, fun one many => ?_⟩
      have tile : Run.tile one ⟨.same, 1⟩ = ⟨1, 1⟩ := if_neg (Ne.symm many)
      obtain ⟨first, snd⟩ := whole.2 one
      rw [← first, ← snd, map_singleton, map_singleton, tile]
      exact ⟨tileSources_replicate_trivial 1 [], rfl⟩
    case isFalse => exact ⟨whole.1, fun one _ => whole.2 one⟩

def view (reshape bcast : List Int) : List Nat :=
  tileSources (List.zipWith (fun size copies => ⟨size.toNat, copies.toNat⟩) reshape bcast)

/-- The shape of a tensor, with `int64_t` dimensions and an `int64_t` number of elements. -/
structure Sized (shape : TensorShape) : Prop where
  dims : ∀ dim ∈ shape, dim < 2 ^ 63
  elements : shape.prod < 2 ^ 63

def Transparent (sx sy : TensorShape) (fewerDims : Bool) : Prop :=
  ∀ bcast, create sx sy fewerDims = some bcast →
    view bcast.xReshape bcast.xBcast = broadcastSources sx bcast.output ∧
      view bcast.yReshape bcast.yBcast = broadcastSources sy bcast.output ∧
      bcast.resultShape.prod = (bcast.output.prod : Int)

def wrapped (run : Run) : Run := ⟨run.state, (i64 run.size).toNat⟩

theorem wrapped_eq (lt : run.size < 2 ^ 63) : wrapped run = run := by
  have size : i64 run.size = run.size := RangeOp.i64_of_bounds (by omega) (by omega)
  rw [wrapped, size, Int.toNat_natCast]

theorem total_tile (one : State) (run : Run) : (run.tile one).total = run.size := by
  rw [Run.tile]
  split
  · exact one_mul _
  · exact mul_one _

theorem view_dims (runs : List Run) :
    view (runs.map fun run => run.dim.x) (runs.map fun run => run.dim.xBcast) =
        tileSources ((runs.map wrapped).map (Run.tile .xOne)) ∧
      view (runs.map fun run => run.dim.y) (runs.map fun run => run.dim.yBcast) =
        tileSources ((runs.map wrapped).map (Run.tile .yOne)) := by
  rw [view, view, zipWith_map, zipWith_self, zipWith_map, zipWith_self, List.map_map, List.map_map]
  have each (run : Run) :
      (⟨run.dim.x.toNat, run.dim.xBcast.toNat⟩ : TileDim) = (wrapped run).tile .xOne ∧
        (⟨run.dim.y.toNat, run.dim.yBcast.toNat⟩ : TileDim) = (wrapped run).tile .yOne := by
    obtain ⟨state, size⟩ := run
    generalize wide : i64 size = n
    cases state <;>
      simp only [Run.dim, wrapped, wide, Run.tile, reduceCtorEq, if_true, if_false] <;>
      exact ⟨rfl, rfl⟩
  exact ⟨congrArg tileSources (map_congr_left fun run _ => (each run).1),
    congrArg tileSources (map_congr_left fun run _ => (each run).2)⟩

theorem tileSources_of_empty (one : State) (empty : (runs.map Run.size).prod = 0) :
    tileSources (runs.map (Run.tile one)) = [] := by
  have totals : (runs.map (Run.tile one)).map TileDim.total = runs.map Run.size := by
    rw [List.map_map]
    exact map_congr_left fun run _ => total_tile one run
  rw [← length_eq_zero_iff, length_tileSources, totals, empty]

theorem tileSources_wrapped (one : State)
    (fits : (∀ run ∈ runs, run.size < 2 ^ 63) ∨ (runs.map Run.size).prod = 0) :
    tileSources ((runs.map wrapped).map (Run.tile one)) =
      tileSources (runs.map (Run.tile one)) := by
  rcases fits with lt | empty
  · rw [map_congr_left fun run mem => wrapped_eq (lt run mem), List.map_id']
  · have empty' : ((runs.map wrapped).map Run.size).prod = 0 := by
      rw [prod_eq_zero_iff] at empty ⊢
      obtain ⟨run, mem, none_⟩ := List.mem_map.mp empty
      refine List.mem_map.mpr ⟨wrapped run, List.mem_map_of_mem mem, ?_⟩
      rw [wrapped, none_]
      rfl
    rw [tileSources_of_empty one empty', tileSources_of_empty one empty]

theorem run_lt (some_ : (runs.map Run.size).prod ≠ 0)
    (first : (runs.map fun run => (run.tile .xOne).size).prod = x)
    (snd : (runs.map fun run => (run.tile .yOne).size).prod = y) (small : x < 2 ^ 63)
    (small' : y < 2 ^ 63) : ∀ run ∈ runs, run.size < 2 ^ 63 := by
  intro run mem
  have pos : ∀ run ∈ runs, 0 < run.size := by
    intro run mem
    refine Nat.pos_of_ne_zero fun zero => some_ ?_
    exact prod_eq_zero_iff.mpr (zero ▸ List.mem_map_of_mem mem)
  have sizes (one : State) : 0 < (runs.map fun run => (run.tile one).size).prod := by
    refine List.prod_pos_iff_forall_pos_nat.mpr fun size got => ?_
    obtain ⟨other, lt, rfl⟩ := List.mem_map.mp got
    rw [size_tile]
    split
    · exact one_pos
    · exact pos other lt
  have below (one : State) (other : run.state ≠ one) :
      run.size ≤ (runs.map fun run => (run.tile one).size).prod := by
    refine Nat.le_of_dvd (sizes one) (dvd_prod ?_)
    refine List.mem_map.mpr ⟨run, mem, ?_⟩
    rw [size_tile, if_neg other]
  by_cases state : run.state = .xOne
  · have bound := below .yOne (by rw [state]; decide)
    omega
  · have bound := below .xOne state
    omega

theorem prod_result (fits : (∀ run ∈ runs, run.size < 2 ^ 63) ∨ (runs.map Run.size).prod = 0) :
    (runs.map fun run => run.dim.result).prod = ((runs.map Run.size).prod : Int) := by
  have entry (run : Run) : run.dim.result = i64 run.size := by
    obtain ⟨state, size⟩ := run
    cases state <;> simp only [Run.dim]
  simp only [entry]
  rcases fits with lt | empty
  · rw [map_congr_left fun run mem =>
      RangeOp.i64_of_bounds (by omega) (by have := lt run mem; omega)]
    rw [Nat.cast_list_prod, List.map_map]
    rfl
  · have none_ := prod_eq_zero_iff.mp empty
    rw [empty, Nat.cast_zero, prod_eq_zero_iff]
    obtain ⟨run, mem, zero⟩ := List.mem_map.mp none_
    refine List.mem_map.mpr ⟨run, mem, ?_⟩
    rw [zero]
    rfl

structure Runs (sx sy : TensorShape) (bcast : BCast) (runs : List Run) : Prop where
  dims : bcast.dims = runs.map Run.dim
  shape : broadcast sx sy = some bcast.output
  sourcesX : tileSources (runs.map (Run.tile .xOne)) = broadcastSources sx bcast.output
  sourcesY : tileSources (runs.map (Run.tile .yOne)) = broadcastSources sy bcast.output
  sizeX : (runs.map fun run => (run.tile .xOne).size).prod = sx.prod
  sizeY : (runs.map fun run => (run.tile .yOne).size).prod = sy.prod
  size : (runs.map Run.size).prod = bcast.output.prod
  fits : (∀ run ∈ runs, run.size < 2 ^ 63) ∨ (runs.map Run.size).prod = 0

theorem exists_runs (sized : Sized sx) (sized' : Sized sy) {bcast : BCast}
    (new : create sx sy fewerDims = some bcast) : ∃ runs, pairRuns (extended sx sy) = some runs ∧
      Runs sx sy bcast (operandRuns sx sy fewerDims runs) := by
  rw [create_eq sized.dims sized'.dims] at new
  obtain ⟨runs, got, rfl⟩ := map_eq_some_iff.mp new
  have length : (aligned (max sx.length sy.length) sx).length =
      (aligned (max sx.length sy.length) sy).length := by
    rw [length_aligned (le_max_left _ _), length_aligned (le_max_right _ _)]
  obtain ⟨shape, first, snd⟩ := tiles_of_pairRuns length got
  rw [broadcast_aligned] at shape
  obtain ⟨whole, reads⟩ := operandRuns_spec got fewerDims
  obtain ⟨readX, sizeX⟩ := reads .xOne (by decide)
  obtain ⟨readY, sizeY⟩ := reads .yOne (by decide)
  have rank := length_of_broadcast shape
  have operands (one : State) {xs : List Nat} (same : xs.length = max sx.length sy.length)
      (tiles : runs.map (Run.tile one) = List.zipWith stretchTile xs (runs.map Run.size)) :
      (runs.map fun run => (run.tile one).size) = xs := by
    have sizes := congrArg (List.map TileDim.size) tiles
    rw [List.map_map, map_size_stretchTile (same.trans rank.symm)] at sizes
    exact sizes
  rw [operands .xOne (length_aligned (le_max_left _ _)) first, prod_aligned] at sizeX
  rw [operands .yOne (length_aligned (le_max_right _ _)) snd, prod_aligned] at sizeY
  have stretches := stretches_of_broadcast shape
  have stretches' := stretches_of_broadcast ((broadcast_comm sy sx).trans shape)
  refine ⟨runs, got, rfl, shape, ?_, ?_, sizeX, sizeY, whole, ?_⟩
  · rw [readX, first, ← rank, broadcastSources_eq (by omega) stretches]
  · rw [readY, snd, ← rank, broadcastSources_eq (by omega) stretches']
  · by_cases empty : ((operandRuns sx sy fewerDims runs).map Run.size).prod = 0
    · exact Or.inr empty
    · exact Or.inl (run_lt empty sizeX sizeY sized.elements sized'.elements)

theorem transparent (sized : Sized sx) (sized' : Sized sy) (fewerDims : Bool) :
    Transparent sx sy fewerDims := by
  intro bcast new
  obtain ⟨runs, -, spec⟩ := exists_runs sized sized' new
  generalize operandRuns sx sy fewerDims runs = entries at spec
  obtain ⟨viewX, viewY⟩ := view_dims entries
  simp only [xReshape, xBcast, yReshape, yBcast, resultShape, spec.dims, List.map_map,
    Function.comp_def]
  refine ⟨?_, ?_, ?_⟩
  · rw [viewX, tileSources_wrapped .xOne spec.fits, spec.sourcesX]
  · rw [viewY, tileSources_wrapped .yOne spec.fits, spec.sourcesY]
  · rw [prod_result spec.fits, spec.size]

theorem size_of_yOne (length : xs.length = ys.length) (got : pairRuns (xs.zip ys) = some runs)
    (same : runs.map Run.size = ys) : ∀ run ∈ runs, run.state = .yOne → run.size = 1 := by
  intro run mem one
  obtain ⟨-, -, tiles⟩ := tiles_of_pairRuns length got
  rw [← same, zipWith_self, List.map_map, map_inj_left] at tiles
  have copies := congrArg TileDim.copies (tiles run mem)
  rw [Run.tile, if_pos one, Function.comp_apply, stretchTile, if_pos rfl] at copies
  exact copies

theorem size_of_output (got : pairRuns (extended sx sy) = some runs)
    (shape : broadcast sx sy = some sy) : ∀ run ∈ runs, run.state = .yOne → run.size = 1 := by
  have length : (aligned (max sx.length sy.length) sx).length =
      (aligned (max sx.length sy.length) sy).length := by
    rw [length_aligned (le_max_left _ _), length_aligned (le_max_right _ _)]
  have sizes := (tiles_of_pairRuns length got).1
  rw [broadcast_aligned, shape, Option.some.injEq] at sizes
  have rank := length_of_broadcast shape
  rw [extended, ← rank, aligned_length] at got
  refine size_of_yOne ?_ got sizes.symm
  rw [length_aligned (by omega)]

theorem size_of_merge (ones : ∀ run ∈ runs, run.state = .yOne → run.size = 1) :
    ∀ run ∈ merge runs, run.state = .yOne → run.size = 1 := by
  induction runs with
  | nil => exact fun run mem => nomatch mem
  | cons run rest ih =>
    rw [forall_mem_cons] at ones
    have later := ih ones.2
    rw [merge]
    cases merged : merge rest with
    | nil =>
      rw [prepend]
      split
      · exact fun run mem => nomatch mem
      · exact forall_mem_singleton.mpr ones.1
    | cons group others =>
      rw [merged, forall_mem_cons] at later
      rw [prepend]
      split_ifs with dropped same
      · exact forall_mem_cons.mpr later
      · refine forall_mem_cons.mpr ⟨fun one => ?_, later.2⟩
        have first := ones.1 one
        have snd := later.1 (same.trans one)
        simp [first, snd]
      · exact forall_mem_cons.mpr ⟨ones.1, forall_mem_cons.mpr later⟩

theorem size_of_operandRuns (ones : ∀ run ∈ runs, run.state = .yOne → run.size = 1) :
    ∀ run ∈ operandRuns sx sy fewerDims runs, run.state = .yOne → run.size = 1 := by
  rw [operandRuns]
  split
  case isTrue => exact forall_mem_singleton.mpr fun one => nomatch one
  case isFalse =>
    split
    case isTrue => exact forall_mem_singleton.mpr fun _ => rfl
    case isFalse =>
      cases fewerDims with
      | false => exact ones
      | true => exact size_of_merge ones

end TfDml.BCast
