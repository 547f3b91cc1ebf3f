import TfDml.Core.MatMulBatches
import TfDml.Core.TensorDescCreate
import TfDml.Kernels.SliceOp

/-! # BroadcastTo

The input is broadcast by a copy, between descriptors of the reshaped operands.
-/

namespace TfDml.BroadcastTo

open Lib List
open BCast (toShape)
open DmlTensorDesc (Addressed address create)

/-- An input, and a tensor of 64-bit dimensions. -/
structure Call where
  input : TensorShape
  sized : BCast.Sized input
  shapeOfShape : TensorShape
  dims : List Int
  dims_lt : ∀ dim ∈ dims, dim < 2 ^ 63

structure BroadcastToInit where
  collapsedInputShape : TensorShape
  collapsedOutputShape : TensorShape
  deriving DecidableEq

def greaterRank (input output : TensorShape) : Status :=
  .invalidArgument (s!"Rank of input ({input.length}) must be no greater than rank of output " ++
    s!"shape ({output.length}).")

def incompatible (input output : TensorShape) : Status :=
  .invalidArgument s!"Incompatible shapes: {input.debugString} vs. {output.debugString}"

def unableToBroadcast (input output : TensorShape) : Status :=
  .invalidArgument (s!"Unable to broadcast tensor of shape {input.debugString} to tensor of " ++
    s!"shape {output.debugString}")

def manyDimensions (dims : Nat) : Status :=
  .invalidArgument ("DML doesn't support more than 5D for BroadcastTo after collapsing " ++
    s!"dimensions together, but the output has {dims} dimensions.")

/-- `BroadcastToInitHelper` -/
def construct (c : Call) : Except Status BroadcastToInit := do
  let outputShape ← TensorShape.makeShape c.shapeOfShape c.dims
  opRequires (c.input.length ≤ outputShape.length) (greaterRank c.input outputShape)
  match BCast.create c.input outputShape true with
  | none => .error (incompatible c.input outputShape)
  | some bcast => do
    opRequires (bcast.output = outputShape) (unableToBroadcast c.input outputShape)
    let collapsedOutputShape := toShape bcast.yReshape
    opRequires (collapsedOutputShape.length ≤ DmlTensorDesc.kNcdhwDimensionCount)
      (manyDimensions collapsedOutputShape.length)
    return ⟨toShape bcast.xReshape, collapsedOutputShape⟩

/-- `DML_OPERATOR_ELEMENT_WISE_IDENTITY`. What is not written is unknown. -/
def dmlIdentity {α : Type} (input output : DmlTensorDesc) (values : List α) (numElements : Nat) :
    List (Option α) :=
  (indices output.sizes).foldl (fun buffer index =>
    buffer.set (address output.strides index) values[address input.strides index]?)
    (List.replicate numElements none)

/-- `GetOutputShapeFromDimsTensorHelper` -/
def outputShape (c : Call) : TensorShape := toShape c.dims

def compute {α : Type} [Zero α] (c : Call) (values : List α) : SliceOp.Outcome (List (Option α)) :=
  match construct c with
  | .error status => .reported status
  | .ok init =>
    if (outputShape c).numElements = 0 then .finished (NoOpKernel.zeroed (outputShape c))
    else
      match create init.collapsedOutputShape init.collapsedInputShape,
        create init.collapsedOutputShape init.collapsedOutputShape with
      | some input, some output =>
        .finished (dmlIdentity input output values (outputShape c).numElements)
      | _, _ => .crashed .check

namespace Call

variable (c : Call)

def reference {α : Type} (values : List α) : List (Option α) :=
  (broadcastSources c.input (outputShape c)).map (values[·]?)

def Broadcasts : Prop :=
  ∀ init, construct c = .ok init → ∀ (α : Type) [Zero α] (values : List α),
    values.length = c.input.numElements → compute c values = .finished (c.reference values)

def collapsedSizes : List Nat :=
  match BCast.pairRuns (BCast.extended c.input (outputShape c)) with
  | none => []
  | some runs => (BCast.operandRuns c.input (outputShape c) true runs).map BCast.Run.size

end Call

end TfDml.BroadcastTo

namespace TfDml

namespace BroadcastTo

open Lib List
open BCast (toShape Run)
open DmlTensorDesc (Addressed address create create_eq_some create_self_eq_some Describable
  kNchwDimensionCount packedStrides stretchStrides)

section Copy

variable {ι β : Type} {place : ι → Nat} {f : ι → β}

theorem foldl_set_in_order {l : List ι} {buffer : List β}
    (order : ∀ k, (h : k < l.length) → place l[k] = k) (room : l.length ≤ buffer.length) :
    l.foldl (fun buffer i => buffer.set (place i) (f i)) buffer =
      l.map f ++ buffer.drop l.length := by
  induction l using List.reverseRecOn with
  | nil => rfl
  | append_singleton l last ih =>
    rw [length_append, length_singleton] at room
    have here : place last = l.length := by
      have at_ := order l.length (by simp)
      rwa [getElem_append_right (le_refl _), getElem_singleton] at at_
    have earlier : ∀ k, (h : k < l.length) → place l[k] = k := by
      intro k less
      have at_ := order k (by simp; omega)
      rwa [getElem_append_left less] at at_
    rw [foldl_append, ih earlier (by omega), foldl_cons, foldl_nil, here,
      drop_eq_getElem_cons (by omega), set_append_right _ _ (by simp), length_map,
      Nat.sub_self, set_cons_zero, map_append, map_singleton, append_assoc,
      singleton_append, length_append, length_singleton]

theorem foldl_set_other {l : List ι} {buffer : List β} {k : Nat}
    (other : ∀ i ∈ l, place i ≠ k) :
    (l.foldl (fun buffer i => buffer.set (place i) (f i)) buffer)[k]? = buffer[k]? := by
  induction l generalizing buffer with
  | nil => rfl
  | cons i rest ih =>
    rw [forall_mem_cons] at other
    rw [foldl_cons, ih other.2, getElem?_set_ne other.1]

end Copy

theorem dmlIdentity_eq_iff {α : Type} {shape x : TensorShape} {values : List α}
    (stretches : Stretches x shape) (ne : 0 < shape.prod) (whole : values.length = x.prod)
    (count : Nat) :
    dmlIdentity ⟨List.replicate count 1 ++ shape, List.replicate count 0 ++ stretchStrides x shape⟩
        ⟨List.replicate count 1 ++ shape, List.replicate count 0 ++ packedStrides shape⟩ values
        shape.prod =
      (tileSources (List.zipWith stretchTile x shape)).map (values[·]?) ↔ Addressed shape := by
  have positive := List.prod_pos_iff_forall_pos_nat.mp ne
  rw [dmlIdentity]
  simp only [indices_leading, foldl_map, DmlTensorDesc.address_leading]
  constructor
  · intro same
    by_contra unaddressed
    have short := (DmlTensorDesc.addressed_or_short shape).resolve_left unaddressed
    have last := congrArg (·[shape.prod - 1]?) same
    rw [foldl_set_other (by intro index mem; have := short index mem; omega),
      getElem?_replicate, if_pos (by omega), ← map_stretchIndex_indices stretches,
      List.map_map, getElem?_map] at last
    obtain ⟨index, hit, unknown⟩ := Option.map_eq_some_iff.mp last.symm
    have inside := flatten_lt (stretchIndex_mem stretches (mem_of_getElem? hit))
    rw [← whole] at inside
    rw [Function.comp_apply, getElem?_eq_getElem inside] at unknown
    exact nomatch unknown
  · intro addr
    have small := DmlTensorDesc.addressed_of_stretches stretches positive addr
    have order : ∀ k, (less : k < (indices shape).length) →
        address (packedStrides shape) (indices shape)[k] = k := by
      intro k less
      rw [addr _ (getElem_mem less), flatten_getElem_indices]
    have length : (indices shape).length = shape.prod := length_indices shape
    rw [← (DmlTensorDesc.map_address_stretchStrides_iff stretches positive).mpr small,
      foldl_set_in_order order (by rw [length, length_replicate]), length,
      drop_of_length_le (by rw [length_replicate]), append_nil, List.map_map]
    rfl

variable {c : Call}

theorem construct_ok {init : BroadcastToInit} (acc : construct c = .ok init) :
    BCast.Sized (outputShape c) ∧ ∃ bcast, BCast.create c.input (outputShape c) true = some bcast ∧
      bcast.output = outputShape c ∧ (toShape bcast.yReshape).length ≤ 5 ∧
      init = ⟨toShape bcast.xReshape, toShape bcast.yReshape⟩ := by
  rw [construct] at acc
  obtain ⟨made, ok, rest⟩ := bind_eq_ok.mp acc
  have small := TensorShape.prod_of_makeShape ok c.dims_lt
  obtain ⟨rfl, -⟩ := TensorShape.makeShape_ok ok
  obtain ⟨-, -, rest⟩ := bind_eq_ok.mp rest
  have sized : BCast.Sized (outputShape c) := by
    refine ⟨fun dim mem => ?_, small⟩
    obtain ⟨value, lt, rfl⟩ := List.mem_map.mp mem
    have bound := c.dims_lt value lt
    omega
  refine ⟨sized, ?_⟩
  change (match BCast.create c.input (outputShape c) true with
    | none => .error (incompatible c.input (outputShape c))
    | some bcast => _) = Except.ok init at rest
  cases new : BCast.create c.input (outputShape c) true with
  | none =>
    rw [new] at rest
    exact nomatch rest
  | some bcast =>
    rw [new] at rest
    simp only [bind_eq_ok, opRequires_eq_ok, exists_const, decide_eq_true_eq] at rest
    obtain ⟨same, few, final⟩ := rest
    exact ⟨bcast, rfl, same, few, (Except.ok.inj final).symm⟩

theorem dim_toNat {entries : List Run} (small : ∀ run ∈ entries, run.size < 2 ^ 63)
    (ones : ∀ run ∈ entries, run.state = .yOne → run.size = 1) {run : Run}
    (mem : run ∈ entries) :
    run.dim.x.toNat = (run.tile .xOne).size ∧ run.dim.y.toNat = run.size := by
  obtain ⟨state, size⟩ := run
  have bound : size < 2 ^ 63 := small _ mem
  have exact_ : RangeOp.i64 size = size := RangeOp.i64_of_bounds (by omega) (by omega)
  have one := ones _ mem
  cases state <;> simp_all [Run.dim, Run.tile]

section Entries

variable {sx sy : TensorShape} {bcast : BCast} {entries : List Run}
  (spec : BCast.Runs sx sy bcast entries) (small : ∀ run ∈ entries, run.size < 2 ^ 63)
  (ones : ∀ run ∈ entries, run.state = .yOne → run.size = 1)

include spec small ones

theorem toShape_xReshape :
    toShape bcast.xReshape = entries.map fun run => (run.tile .xOne).size := by
  rw [toShape, BCast.xReshape, spec.dims, List.map_map, List.map_map]
  exact map_congr_left fun run mem => (dim_toNat small ones mem).1

theorem toShape_yReshape : toShape bcast.yReshape = entries.map Run.size := by
  rw [toShape, BCast.yReshape, spec.dims, List.map_map, List.map_map]
  exact map_congr_left fun run mem => (dim_toNat small ones mem).2

end Entries

theorem stretches_entries (entries : List Run) :
    Stretches (entries.map fun run => (run.tile .xOne).size) (entries.map Run.size) := by
  rw [Stretches, forall₂_map_left_iff, forall₂_map_right_iff, forall₂_same]
  intro run _
  rw [BCast.size_tile]
  split
  · exact Or.inr rfl
  · exact Or.inl rfl

theorem zipWith_entries (entries : List Run) :
    List.zipWith stretchTile (entries.map fun run => (run.tile .xOne).size)
      (entries.map Run.size) = entries.map (Run.tile .xOne) := by
  rw [zipWith_map, zipWith_self]
  refine map_congr_left fun run _ => ?_
  rw [Run.tile]
  split
  · rw [stretchTile]
    split
    case isTrue one => rw [← one]
    case isFalse => rfl
  · rw [stretchTile, if_pos rfl]

theorem broadcasts_iff (c : Call) :
    c.Broadcasts ↔ ∀ init, construct c = .ok init → (outputShape c).numElements = 0 ∨
      (∀ size ∈ c.collapsedSizes, size < 2 ^ 32) ∧ Addressed c.collapsedSizes := by
  refine forall_congr' fun init => imp_congr_right fun ok => ?_
  obtain ⟨sized, bcast, new, same, few, rfl⟩ := construct_ok ok
  by_cases ne : (outputShape c).numElements = 0
  · refine iff_of_true (fun α _ values whole => ?_) (Or.inl ne)
    have shape : (outputShape c).prod = 0 := ne
    rw [compute, ok, Call.reference]
    simp only [ne, if_true, NoOpKernel.zeroed_of_empty ne]
    rw [broadcastSources, length_eq_zero_iff.mp ((length_indices _).trans shape)]
    rfl
  obtain ⟨runs, got, spec⟩ := BCast.exists_runs c.sized sized new
  have sizes : c.collapsedSizes =
      (BCast.operandRuns c.input (outputShape c) true runs).map Run.size := by
    rw [Call.collapsedSizes, got]
  generalize entries_ : BCast.operandRuns c.input (outputShape c) true runs = entries at *
  have some_ : (entries.map Run.size).prod ≠ 0 := by
    rw [spec.size, same]
    exact ne
  have small := spec.fits.resolve_right some_
  have unit : ∀ run ∈ entries, run.state = .yOne → run.size = 1 := by
    rw [← entries_]
    exact BCast.size_of_operandRuns (BCast.size_of_output got (same ▸ spec.shape))
  have collapsedInput := toShape_xReshape spec small unit
  have collapsedOutput := toShape_yReshape spec small unit
  have stretches := stretches_entries entries
  rw [collapsedOutput, length_map] at few
  rw [sizes]
  have due {α : Type} (values : List α) : c.reference values =
      (tileSources (entries.map (Run.tile .xOne))).map (values[·]?) := by
    rw [Call.reference, spec.sourcesX, same]
  have room : (outputShape c).numElements = (entries.map Run.size).prod := by
    rw [spec.size, same]
    rfl
  have copy {α : Type} [Zero α] (values : List α) (whole : values.length = c.input.numElements) :
      compute c values = .finished (c.reference values) ↔
        (∀ size ∈ entries.map Run.size, size < 2 ^ 32) ∧ Addressed (entries.map Run.size) := by
    rw [compute, ok]
    simp only [collapsedInput, collapsedOutput, due, room]
    rw [if_neg some_]
    by_cases lt : ∀ size ∈ entries.map Run.size, size < 2 ^ 32
    · have describable : Describable (entries.map Run.size) := ⟨by
        rw [length_map]
        exact le_trans few (by decide), lt⟩
      have rank : (entries.map Run.size).length =
        (entries.map fun run => (run.tile .xOne).size).length := by simp
      rw [create_eq_some.mpr ⟨describable, le_of_eq rank.symm, by rwa [rank, aligned_length],
        rfl⟩, create_self_eq_some.mpr ⟨describable, rfl⟩, rank, aligned_length]
      have copied := dmlIdentity_eq_iff stretches (Nat.pos_of_ne_zero some_)
        (whole.trans spec.sizeX.symm)
        (kNchwDimensionCount - (entries.map fun run => (run.tile .xOne).size).length)
      rw [zipWith_entries] at copied
      simp only [SliceOp.Outcome.finished.injEq, copied]
      exact (and_iff_right lt).symm
    · have fails : create (entries.map Run.size)
          (entries.map fun run => (run.tile .xOne).size) = none := by
        rw [Option.eq_none_iff_forall_ne_some]
        intro desc got
        exact lt (create_eq_some.mp got).1.dims
      rw [fails]
      exact iff_of_false (fun same => by cases same) fun fits => lt fits.1
  constructor
  · intro broadcasts
    exact Or.inr ((copy (List.replicate c.input.numElements 0) (length_replicate ..)).mp
      (broadcasts Nat _ (length_replicate ..)))
  · rintro fits α _ values whole
    exact (copy values whole).mpr (fits.resolve_left ne)

end BroadcastTo

namespace BCast

structure Pair where
  x : TensorShape
  y : TensorShape
  sizedX : Sized x
  sizedY : Sized y

/-- Collapsing is transparent. BroadcastTo copies what is due if and only if there is nothing to
    write, or no size and no stride of the collapsed output wraps around, and the indices of the
    batches are right if and only if the batches of the output can be counted. -/
theorem collapsing_iff (pair : Pair) (fewerDims : Bool) (c : BroadcastTo.Call)
    (o : MatMulBCast.Operands) : Transparent pair.x pair.y fewerDims ∧
      (c.Broadcasts ↔ ∀ init, BroadcastTo.construct c = .ok init →
        (BroadcastTo.outputShape c).numElements = 0 ∨ (∀ size ∈ c.collapsedSizes, size < 2 ^ 32) ∧
            DmlTensorDesc.Addressed c.collapsedSizes) ∧
      (MatMulBCast.IndexesBatches o.x o.y ↔ o.Counted) :=
  ⟨transparent pair.sizedX pair.sizedY fewerDims, BroadcastTo.broadcasts_iff c,
    MatMulBCast.Operands.indexesBatches_iff o⟩

def emptyMatrices : MatMulBCast.Operands where
  x := [2 ^ 32, 1, 0, 1]
  y := [1, 2 ^ 32, 1, 0]
  rankX := by decide
  rankY := by decide
  sizedX := ⟨by decide +kernel, by decide +kernel⟩
  sizedY := ⟨by decide +kernel, by decide +kernel⟩

theorem emptyMatrices_not_indexesBatches :
    ¬MatMulBCast.IndexesBatches emptyMatrices.x emptyMatrices.y := by
  rw [MatMulBCast.Operands.indexesBatches_iff]
  intro counted
  have shape : Lib.broadcast emptyMatrices.xBatches emptyMatrices.yBatches = some [2 ^ 32, 2 ^ 32] := by
    decide +kernel
  rcases counted _ shape with small | same
  · exact absurd small (by decide +kernel)
  · exact absurd same (by decide +kernel)

end BCast

end TfDml
