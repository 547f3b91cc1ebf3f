import TfDml.Core.MatMulBCast

/-! # The batches of two operands

The operands' batches are broadcast, and their indices are computed, if the product of the output's
dimensions differs from the smaller of the operands'. All products are computed in 64 bits.
-/

namespace TfDml

open Lib List Option
open RangeOp (i64)

namespace MatMulBCast

theorem numElements64_eq (dims : List Int) : numElements64 dims = i64 dims.prod :=
  BCast.foldl_i64 dims

theorem i64_prod_congr {ι : Type} {f g : ι → Int} (l : List ι) (same : ∀ i, i64 (f i) = i64 (g i)) :
    i64 (l.map f).prod = i64 (l.map g).prod := by
  induction l with
  | nil => rfl
  | cons i rest ih =>
    have product (a b : Int) : i64 (a * b) = i64 (i64 a * i64 b) := by
      rw [i64, i64, i64, i64, Int.bmod_mul_bmod, Int.mul_bmod_bmod]
    rw [map_cons, map_cons, prod_cons, prod_cons, product, ih, same, ← product]

theorem numElements64_runs (runs : List BCast.Run) {n m : Nat} (lt : n < 2 ^ 63)
    (lt' : m < 2 ^ 63)
    (size : (runs.map fun run => (run.tile .xOne).size).prod = n)
    (size' : (runs.map fun run => (run.tile .yOne).size).prod = m) :
    numElements64 (runs.map fun run => run.dim.x) = n ∧
      numElements64 (runs.map fun run => run.dim.y) = m := by
  have entry (run : BCast.Run) : i64 run.dim.x = i64 ((run.tile .xOne).size : Nat) ∧
      i64 run.dim.y = i64 ((run.tile .yOne).size : Nat) := by
    have twice (k : Int) : i64 (i64 k) = i64 k := by rw [i64, i64, Int.bmod_bmod]
    obtain ⟨state, count⟩ := run
    rw [BCast.size_tile, BCast.size_tile]
    cases state <;> simp [BCast.Run.dim, twice]
  have exact_ {k : Nat} (lt : k < 2 ^ 63) : i64 k = k := RangeOp.i64_of_bounds (by omega) (by omega)
  have total (f : BCast.Run → Nat) : (runs.map fun run => ((f run : Nat) : Int)).prod =
      ((runs.map f).prod : Nat) := by
    rw [Nat.cast_list_prod, List.map_map]
    rfl
  constructor
  · rw [numElements64_eq, i64_prod_congr runs fun run => (entry run).1, total, size, exact_ lt]
  · rw [numElements64_eq, i64_prod_congr runs fun run => (entry run).2, total, size', exact_ lt']

theorem plain_tiles {runs : List BCast.Run} (some_ : (runs.map BCast.Run.size).prod ≠ 0)
    (one : BCast.State) : ∀ d ∈ runs.map (BCast.Run.tile one), Plain d := by
  intro d mem
  obtain ⟨run, lt, rfl⟩ := List.mem_map.mp mem
  refine ⟨?_, ?_⟩
  · rw [BCast.total_tile]
    refine Nat.pos_of_ne_zero fun zero => some_ ?_
    exact prod_eq_zero_iff.mpr (zero ▸ List.mem_map_of_mem lt)
  · rw [BCast.Run.tile]
    split
    · exact Or.inl rfl
    · exact Or.inr rfl

section Created

variable {sx sy : TensorShape} {bcast : BCast} {runs : List BCast.Run}
  (spec : BCast.Runs sx sy bcast runs)

include spec

theorem Created.reshape : bcast.xReshape = runs.map (fun run => run.dim.x) ∧
    bcast.yReshape = runs.map fun run => run.dim.y := by
  rw [BCast.xReshape, BCast.yReshape, spec.dims, List.map_map, List.map_map]
  exact ⟨rfl, rfl⟩

theorem Created.bcast_ : bcast.xBcast = runs.map (fun run => run.dim.xBcast) ∧
    bcast.yBcast = runs.map fun run => run.dim.yBcast := by
  rw [BCast.xBcast, BCast.yBcast, spec.dims, List.map_map, List.map_map]
  exact ⟨rfl, rfl⟩

theorem computeBatchIndices_runs (ne : bcast.output.prod ≠ 0)
    (lt : bcast.output.prod < 2 ^ 63) :
    computeBatchIndices (bcast.output.prod : Nat) bcast.xReshape bcast.xBcast =
        some ((broadcastSources sx bcast.output).map Nat.cast) ∧
      computeBatchIndices (bcast.output.prod : Nat) bcast.yReshape bcast.yBcast =
        some ((broadcastSources sy bcast.output).map Nat.cast) := by
  have some_ : (runs.map BCast.Run.size).prod ≠ 0 := spec.size ▸ ne
  have sizes := spec.fits.resolve_right some_
  have entry : ∀ run ∈ runs, run.dim.x = (run.tile .xOne).size ∧
      run.dim.xBcast = (run.tile .xOne).copies ∧ run.dim.y = (run.tile .yOne).size ∧
      run.dim.yBcast = (run.tile .yOne).copies := by
    intro run mem
    obtain ⟨state, count⟩ := run
    have bound : count < 2 ^ 63 := sizes _ mem
    have exact_ : i64 count = count := RangeOp.i64_of_bounds (by omega) (by omega)
    cases state <;> simp [BCast.Run.dim, BCast.Run.tile, exact_]
  have total (one : BCast.State) :
      ((runs.map (BCast.Run.tile one)).map TileDim.total).prod = bcast.output.prod := by
    rw [List.map_map, ← spec.size]
    exact congrArg List.prod (map_congr_left fun run _ => BCast.total_tile one run)
  have first := computeBatchIndices_eq (plain_tiles some_ .xOne) ((total .xOne).symm ▸ lt)
  have snd := computeBatchIndices_eq (plain_tiles some_ .yOne) ((total .yOne).symm ▸ lt)
  rw [total, spec.sourcesX, List.map_map, List.map_map] at first
  rw [total, spec.sourcesY, List.map_map, List.map_map] at snd
  rw [(Created.reshape spec).1, (Created.reshape spec).2, (Created.bcast_ spec).1,
    (Created.bcast_ spec).2, map_congr_left fun run mem => (entry run mem).1,
    map_congr_left fun run mem => (entry run mem).2.1,
    map_congr_left fun run mem => (entry run mem).2.2.1,
    map_congr_left fun run mem => (entry run mem).2.2.2]
  exact ⟨first, snd⟩

theorem min_eq_zero (empty : bcast.output.prod = 0) : min (sx.prod : Int) sy.prod = 0 := by
  rw [← spec.size, prod_eq_zero_iff] at empty
  obtain ⟨run, mem, zero⟩ := List.mem_map.mp empty
  have operand (one : BCast.State) (other : run.state ≠ one) :
      (runs.map fun run => (run.tile one).size).prod = 0 := by
    refine prod_eq_zero_iff.mpr (List.mem_map.mpr ⟨run, mem, ?_⟩)
    rw [BCast.size_tile, if_neg other, zero]
  by_cases state : run.state = .xOne
  · rw [← spec.sizeY, operand .yOne (by rw [state]; decide)]
    omega
  · rw [← spec.sizeX, operand .xOne state]
    omega

end Created

structure Operands where
  x : TensorShape
  y : TensorShape
  rankX : 2 ≤ x.length
  rankY : 2 ≤ y.length
  sizedX : BCast.Sized (x.take (x.length - 2))
  sizedY : BCast.Sized (y.take (y.length - 2))

namespace Operands

def xBatches (o : Operands) : TensorShape := o.x.take (o.x.length - 2)

def yBatches (o : Operands) : TensorShape := o.y.take (o.y.length - 2)

/-- The batches of the output are counted in 64 bits, or else they seem to be as many as those of
    an operand. -/
def Counted (o : Operands) : Prop :=
  ∀ output, broadcast o.xBatches o.yBatches = some output →
    output.prod < 2 ^ 63 ∨ min (o.xBatches.prod : Int) o.yBatches.prod = i64 (output.prod : Nat)

variable {o : Operands}

theorem resized_x : resized o.x = some o.xBatches := if_pos o.rankX

theorem resized_y : resized o.y = some o.yBatches := if_pos o.rankY

theorem create_matrices (matrices : max o.x.length o.y.length = 2) :
    o.xBatches = [] ∧ o.yBatches = [] := by
  have rankX := o.rankX
  have rankY := o.rankY
  rw [xBatches, yBatches, Nat.sub_eq_zero_of_le (by omega), Nat.sub_eq_zero_of_le (by omega),
    take_zero, take_zero]
  exact ⟨rfl, rfl⟩

theorem create_of_runs (many : max o.x.length o.y.length ≠ 2) {bcast : BCast}
    {runs : List BCast.Run} (new : BCast.create o.xBatches o.yBatches true = some bcast)
    (spec : BCast.Runs o.xBatches o.yBatches bcast runs) : create o.x o.y =
      if min (o.xBatches.prod : Int) o.yBatches.prod ≠ i64 (bcast.output.prod : Nat) then
        (computeBatchIndices (i64 (bcast.output.prod : Nat)) bcast.xReshape bcast.xBcast).bind
          fun xBatchIndices =>
            (computeBatchIndices (i64 (bcast.output.prod : Nat)) bcast.yReshape bcast.yBcast).map
              fun yBatchIndices =>
                ⟨true, bcast.output, i64 (bcast.output.prod : Nat), xBatchIndices, yBatchIndices⟩
      else some
        { outputBatchShape := bcast.output, outputBatchSize := i64 (bcast.output.prod : Nat) } := by
  obtain ⟨first, snd⟩ := numElements64_runs runs o.sizedX.elements o.sizedY.elements
    spec.sizeX spec.sizeY
  have countX : numElements64 bcast.xReshape = (o.xBatches.prod : Nat) :=
    (congrArg numElements64 (Created.reshape spec).1).trans first
  have countY : numElements64 bcast.yReshape = (o.yBatches.prod : Nat) :=
    (congrArg numElements64 (Created.reshape spec).2).trans snd
  have count : numElements64 (bcast.output.map Nat.cast) = i64 (bcast.output.prod : Nat) := by
    rw [numElements64_eq, Nat.cast_list_prod]
  rw [create, if_neg many, resized_x, resized_y]
  simp only [bind_eq_bind, bind_some, new, countX, countY, count]
  refine if_congr Iff.rfl (congrArg _ (funext fun xBatchIndices => ?_)) rfl
  exact map_eq_bind.symm

theorem indexesBatches_iff (o : Operands) : IndexesBatches o.x o.y ↔ o.Counted := by
  by_cases matrices : max o.x.length o.y.length = 2
  · have made : create o.x o.y = some {} := if_pos matrices
    obtain ⟨none_, none_'⟩ := create_matrices matrices
    refine iff_of_true ⟨_, made, fun _ _ _ _ _ _ required => nomatch required⟩ ?_
    intro output shape
    rw [none_, none_', broadcast_nil] at shape
    rw [← some.inj shape]
    exact Or.inl (by decide)
  cases new : BCast.create o.xBatches o.yBatches true with
  | none =>
    have shape := BCast.create_output o.xBatches o.yBatches true
    rw [new, map_none] at shape
    have made : create o.x o.y = some { broadcastingRequired := true } := by
      rw [create, if_neg matrices, resized_x, resized_y]
      simp only [bind_eq_bind, bind_some, new]
    refine iff_of_true ⟨_, made, ?_⟩ ?_
    · intro xBatches yBatches output first snd got
      rw [resized_x] at first
      rw [resized_y] at snd
      rw [← some.inj first, ← some.inj snd, ← shape] at got
      exact nomatch got
    · intro output got
      rw [← shape] at got
      exact nomatch got
  | some bcast =>
    have sizedX : BCast.Sized o.xBatches := o.sizedX
    have sizedY : BCast.Sized o.yBatches := o.sizedY
    obtain ⟨runs, -, spec⟩ := BCast.exists_runs sizedX sizedY new
    have made := create_of_runs matrices new spec
    have counted : o.Counted ↔ bcast.output.prod < 2 ^ 63 ∨
        min (o.xBatches.prod : Int) o.yBatches.prod = i64 (bcast.output.prod : Nat) := by
      rw [Counted, spec.shape]
      simp only [Option.some.injEq, forall_eq']
    rw [counted]
    by_cases required : min (o.xBatches.prod : Int) o.yBatches.prod = i64 (bcast.output.prod : Nat)
    · rw [if_neg (not_not.mpr required)] at made
      exact iff_of_true ⟨_, made, fun _ _ _ _ _ _ again => nomatch again⟩ (Or.inr required)
    rw [if_pos required] at made
    by_cases lt : bcast.output.prod < 2 ^ 63
    · refine iff_of_true ?_ (Or.inl lt)
      have count : i64 (bcast.output.prod : Nat) = (bcast.output.prod : Nat) :=
        RangeOp.i64_of_bounds (by omega) (by omega)
      have some_ : bcast.output.prod ≠ 0 := by
        intro empty
        rw [min_eq_zero spec empty, empty] at required
        exact required rfl
      obtain ⟨first, snd⟩ := computeBatchIndices_runs spec some_ lt
      rw [count, first, snd, bind_some, map_some] at made
      refine ⟨_, made, fun xBatches yBatches output isX isY got _ => ?_⟩
      rw [resized_x] at isX
      rw [resized_y] at isY
      rw [← some.inj isX, ← some.inj isY, spec.shape] at got
      rw [← some.inj isX, ← some.inj isY, ← some.inj got]
      exact ⟨rfl, rfl⟩
    · refine iff_of_false ?_ (not_or.mpr ⟨lt, required⟩)
      rintro ⟨result, got, due⟩
      rw [made] at got
      obtain ⟨xIndices, eq, rest⟩ := bind_eq_some_iff.mp got
      obtain ⟨yIndices, -, rfl⟩ := map_eq_some_iff.mp rest
      have length := length_computeBatchIndices eq
      have indices_ := (due _ _ _ resized_x resized_y spec.shape rfl).1
      have wide := congrArg List.length indices_
      rw [length_map, broadcastSources, length_map, length_indices] at wide
      have bound : i64 (bcast.output.prod : Nat) < 2 ^ 63 := Int.bmod_lt (by decide)
      simp only at wide
      omega

theorem exists_runs {output : TensorShape} (shape : broadcast o.xBatches o.yBatches = some output) :
    ∃ bcast runs, BCast.create o.xBatches o.yBatches true = some bcast ∧ bcast.output = output ∧
      BCast.Runs o.xBatches o.yBatches bcast runs := by
  rw [← BCast.create_output _ _ true] at shape
  obtain ⟨bcast, new, same⟩ := map_eq_some_iff.mp shape
  have sizedX : BCast.Sized o.xBatches := o.sizedX
  have sizedY : BCast.Sized o.yBatches := o.sizedY
  obtain ⟨runs, -, spec⟩ := BCast.exists_runs sizedX sizedY new
  exact ⟨bcast, _, new, same, spec⟩

theorem output_ne_zero {output : TensorShape}
    (shape : broadcast o.xBatches o.yBatches = some output) (some_ : o.xBatches.prod ≠ 0)
    (some_' : o.yBatches.prod ≠ 0) : output.prod ≠ 0 := by
  obtain ⟨bcast, runs, -, rfl, spec⟩ := exists_runs shape
  intro empty
  have least := min_eq_zero spec empty
  omega

theorem exists_outputBatchShape {output : TensorShape}
    (shape : broadcast o.xBatches o.yBatches = some output) (lt : output.prod < 2 ^ 63) :
    ∃ bcast, create o.x o.y = some bcast ∧ bcast.outputBatchShape = output := by
  by_cases matrices : max o.x.length o.y.length = 2
  · obtain ⟨none_, none_'⟩ := create_matrices matrices
    rw [none_, none_', broadcast_nil] at shape
    exact ⟨{}, if_pos matrices, some.inj shape⟩
  · obtain ⟨bcast, runs, new, rfl, spec⟩ := exists_runs shape
    rw [create_of_runs matrices new spec]
    have count : i64 (bcast.output.prod : Nat) = (bcast.output.prod : Nat) :=
      RangeOp.i64_of_bounds (by omega) (by omega)
    rw [count]
    split
    case isFalse => exact ⟨_, rfl, rfl⟩
    case isTrue required =>
      have some_ : bcast.output.prod ≠ 0 := by
        intro empty
        rw [min_eq_zero spec empty, empty] at required
        exact required rfl
      obtain ⟨first, snd⟩ := computeBatchIndices_runs spec some_ lt
      rw [first, snd]
      exact ⟨_, rfl, rfl⟩

end Operands

end MatMulBCast

end TfDml
