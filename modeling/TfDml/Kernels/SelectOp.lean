import TfDml.Core.BCast
import TfDml.Kernels.TernaryGroups

/-! # SelectV2

The condition and both branches are broadcast to one shape, and are read through their simplified
shapes. What cannot be simplified is to be rejected.
-/

namespace TfDml.Select

open Lib Option
open List hiding flatten
open BCast (toShape)
open DmlTensorDesc (Addressed address create)

structure SelectInit where
  simpleTernary : Option SimpleTernary
  broadcastedOutputShape : TensorShape
  deriving DecidableEq

def branchesNotBroadcastable (thenShape elseShape : TensorShape) : Status :=
  .invalidArgument (s!"then {thenShape.debugString} and else {elseShape.debugString} must be " ++
    "broadcastable")

def notBroadcastable (condShape thenShape elseShape : TensorShape) : Status :=
  .invalidArgument (s!"condition {condShape.debugString}, then {thenShape.debugString}, and " ++
    s!"else {elseShape.debugString} must be broadcastable")

def differentShapes (condShape thenShape elseShape : TensorShape) : Status :=
  .invalidArgument (s!"condition {condShape.debugString}, then {thenShape.debugString}, and " ++
    s!"else {elseShape.debugString} must be broadcastable to the same shape")

def manyDimensions : Status :=
  .invalidArgument ("DML doesn't support more than 8 dimensions for Select after " ++
    "collapsing non-broadcast dimensions together, but could not simplify the given shape to 8D.")

def selectV2InitHelper (condShape thenShape elseShape : TensorShape) : Except Status SelectInit :=
  match BCast.create thenShape elseShape false with
  | none => .error (branchesNotBroadcastable thenShape elseShape)
  | some thenElseBcast =>
    match BCast.create condShape thenElseBcast.output false with
    | none => .error (notBroadcastable condShape thenShape elseShape)
    | some bcast =>
      match BCast.create bcast.output condShape false, BCast.create bcast.output thenShape false,
        BCast.create bcast.output elseShape false with
      | some condBcast, some thenBcast, some elseBcast => do
        opRequires (condBcast.output = bcast.output ∧ thenBcast.output = bcast.output ∧
          elseBcast.output = bcast.output) (differentShapes condShape thenShape elseShape)
        -- The simplification doesn't handle shapes without dimensions.
        let dmlOutputShape := if bcast.output.length = 0 then [1] else bcast.output
        let simpleTernary := simplifyTernary (ternaryDims (toShape condBcast.yReshape)
          (toShape thenBcast.yReshape) (toShape elseBcast.yReshape) dmlOutputShape) 8
        opRequires (bcast.output.length ≤ 8) manyDimensions
        return ⟨simpleTernary, bcast.output⟩
      | _, _, _ => .error (notBroadcastable condShape thenShape elseShape)

def SimpleTernary.shape (simple : SimpleTernary) : Operand → List Nat
  | .cond => simple.condShape
  | .then_ => simple.thenShape
  | .else_ => simple.elseShape

/-- The positions of an input that `dml::If` reads in `DmlTernaryKernel`. -/
def readPositions (simple : SimpleTernary) (o : Operand) : Option (List Nat) := do
  let input ← create simple.outputShape (simple.shape o)
  let output ← create simple.outputShape simple.outputShape
  some ((indices output.sizes).map (address input.strides))

structure Shapes where
  cond : TensorShape
  then_ : TensorShape
  else_ : TensorShape

namespace Shapes

variable (shapes : Shapes)

def shape : Operand → TensorShape
  | .cond => shapes.cond
  | .then_ => shapes.then_
  | .else_ => shapes.else_

def output : Option TensorShape := broadcastAll [shapes.cond, shapes.then_, shapes.else_]

/-- The positions of an input, aligned at the last dimension. -/
def reference (output : TensorShape) (o : Operand) : List Nat :=
  (indices output).map fun index => flatten (shapes.shape o) (broadcastIndex (shapes.shape o) index)

/-- All shapes with the rank of the result, and at least one dimension. -/
def dims (output : TensorShape) : List TernaryDim :=
  let rank := max 1 output.length
  ternaryDims (aligned rank shapes.cond) (aligned rank shapes.then_) (aligned rank shapes.else_)
    (aligned rank output)

/-- The shapes are broadcastable, and can be simplified to eight dimensions. -/
def Simplifies : Prop :=
  ∃ output, shapes.output = some output ∧ (simplifyTernary (shapes.dims output) 8).isSome

/-- Simplified shapes read the due elements of each input, and the init helper accepts exactly what
    simplifies. -/
def SelectsAsNumpy : Prop :=
  (∀ output, shapes.output = some output → 0 < output.numElements →
    ∀ simple, simplifyTernary (shapes.dims output) 8 = some simple →
      ∀ o, readPositions simple o = some (shapes.reference output o)) ∧ (shapes.Simplifies → ∃ init,
    selectV2InitHelper shapes.cond shapes.then_ shapes.else_ = .ok init ∧
      init.simpleTernary.isSome ∧ shapes.output = some init.broadcastedOutputShape) ∧
  (¬shapes.Simplifies → ∃ status,
    selectV2InitHelper shapes.cond shapes.then_ shapes.else_ = .error status ∧
      status.isInvalidArgument = true)

/-- The slots that the dimensions take in 32 bits: one for each group of several elements, and one
    for each dimension in which something is broadcast. -/
def slotCount (output : TensorShape) : Nat :=
  (slots (groups ((shapes.dims output).map TernaryDim.narrow))).length

/-- No size wraps around, and neither does a stride of an input. -/
def Narrow (output : TensorShape) : Prop :=
  (∀ group ∈ groups (shapes.dims output), group.output < 2 ^ 32) ∧
    ∀ o, Addressed ((groups (shapes.dims output)).map (TernaryDim.operand · o))

end Shapes

end TfDml.Select

namespace TfDml.Select

open Lib Option
open List hiding flatten
open BCast (toShape)
open DmlTensorDesc (Addressed address addressed_cons_iff addressed_one_cons
  addressed_replicate_append create create_of_stretches map_address_stretchStrides_iff
  stretchStrides)

section Reading

variable {dims : List TernaryDim}

theorem stretches_operands {o : Operand} :
    Stretches (dims.map (TernaryDim.operand · o)) (dims.map TernaryDim.output) ↔
      ∀ d ∈ dims, d.operand o = d.output ∨ d.operand o = 1 := by
  rw [Stretches, forall₂_map_left_iff, forall₂_map_right_iff, forall₂_same]

theorem zipWith_stretchTile (o : Operand) :
    List.zipWith stretchTile (dims.map (TernaryDim.operand · o)) (dims.map TernaryDim.output) =
      dims.map fun d => stretchTile (d.operand o) d.output := by
  rw [zipWith_map, zipWith_self]

theorem shape_simpleTernary (outputSize : Nat) (put : List TernaryDim) (o : Operand) :
    SimpleTernary.shape (simpleTernary outputSize put) o =
      List.replicate (outputSize - put.length) 1 ++ put.map (TernaryDim.operand · o) := by
  cases o <;> rfl

theorem exists_readPositions {put : List TernaryDim} (few : put.length ≤ 8)
    (fits : ∀ d ∈ put, d.Fits) (lt : ∀ d ∈ put, d.output < 2 ^ 32) (o : Operand) :
    ∃ positions, readPositions (simpleTernary 8 put) o = some positions ∧
      positions.length = (put.map TernaryDim.output).prod ∧ ((∀ d ∈ put, 0 < d.output) →
        (positions = sources o put ↔ Addressed (put.map (TernaryDim.operand · o)))) := by
  have shape := shape_simpleTernary 8 put o
  have outputShape : (simpleTernary 8 put).outputShape =
      List.replicate (8 - put.length) 1 ++ put.map TernaryDim.output := rfl
  have stretches : Stretches (SimpleTernary.shape (simpleTernary 8 put) o)
      (simpleTernary 8 put).outputShape := by
    rw [shape, outputShape]
    exact (stretches_refl _).append (stretches_operands.mpr fun d mem => fits d mem o)
  have rank : (simpleTernary 8 put).outputShape.length = 8 := by
    rw [outputShape, length_append, length_replicate, length_map]
    omega
  have bound : ∀ d ∈ (simpleTernary 8 put).outputShape, d < 2 ^ 32 := by
    intro d mem
    rcases mem_append.mp (outputShape ▸ mem) with one | own
    · rw [eq_of_mem_replicate one]
      decide
    · obtain ⟨dim, inside, rfl⟩ := List.mem_map.mp own
      exact lt dim inside
  have input := create_of_stretches rank stretches bound
  have output := create_of_stretches rank (stretches_refl _) bound
  have hit : readPositions (simpleTernary 8 put) o =
      some ((indices (simpleTernary 8 put).outputShape).map
        (address (stretchStrides (SimpleTernary.shape (simpleTernary 8 put) o)
          (simpleTernary 8 put).outputShape))) := by
    simp only [readPositions, input, output, bind_eq_bind, bind_some]
  refine ⟨_, hit, ?_, fun positive => ?_⟩
  · rw [length_map, length_indices, outputShape, prod_append, prod_replicate, Nat.one_pow, one_mul]
  · have sizes : ∀ d ∈ (simpleTernary 8 put).outputShape, 0 < d := by
      intro d mem
      rcases mem_append.mp (outputShape ▸ mem) with one | own
      · exact eq_of_mem_replicate one ▸ one_pos
      · obtain ⟨dim, inside, rfl⟩ := List.mem_map.mp own
        exact positive dim inside
    have read := map_address_stretchStrides_iff stretches sizes
    rw [shape, addressed_replicate_append, ← shape] at read
    rw [← read, shape, outputShape, zipWith_append rfl, zipWith_stretchTile,
      zipWith_replicate, min_self]
    exact Iff.of_eq (congrArg _ (tileSources_replicate_trivial _ _).symm)

theorem addressed_slots (o : Operand) (fits : ∀ d ∈ dims, d.Fits)
    (pos : ∀ d ∈ dims, 0 < d.output) (small : ∀ d ∈ dims, d.output < 2 ^ 32) :
    Addressed ((slots dims).map (TernaryDim.operand · o)) ↔
      Addressed (dims.map (TernaryDim.operand · o)) := by
  induction dims with
  | nil => rfl
  | cons d rest ih =>
    rw [forall_mem_cons] at fits pos small
    have inner := ih fits.2 pos.2 small.2
    have sizes := (sources_slots o pos.2 small.2).2
    have operands {e : TernaryDim} (own : e.Fits) (many : 0 < e.output) : 0 < e.operand o := by
      rcases own o with same | one
      · exact same ▸ many
      · exact one ▸ one_pos
    have some_ : 0 < (rest.map (TernaryDim.operand · o)).prod :=
      List.prod_pos_iff_forall_pos_nat.mpr fun size mem => by
        obtain ⟨e, lt, rfl⟩ := List.mem_map.mp mem
        exact operands (fits.2 e lt) (pos.2 e lt)
    rw [slots_cons, slot_of_small small.1]
    split
    case isTrue trivial_ =>
      have one : d.operand o = 1 := by
        have own := operand_of_same trivial_.1 o
        omega
      rw [nil_append, inner, map_cons, one, addressed_one_cons]
    case isFalse =>
      rw [singleton_append, map_cons, map_cons, addressed_cons_iff (operands fits.1 pos.1) some_,
        addressed_cons_iff (operands fits.1 pos.1) (sizes ▸ some_), inner, sizes]

end Reading

namespace Shapes

variable {shapes : Shapes} {output : TensorShape}

theorem stretches (shape : shapes.output = some output) (o : Operand) :
    (shapes.shape o).length ≤ output.length ∧
      Stretches (aligned output.length (shapes.shape o)) output :=
  stretches_of_broadcastAll shape (by cases o <;> simp [Shapes.shape])

theorem map_dims (shape : shapes.output = some output) :
    (shapes.dims output).map TernaryDim.output = aligned (max 1 output.length) output ∧
      ∀ o, (shapes.dims output).map (TernaryDim.operand · o) =
        aligned (max 1 output.length) (shapes.shape o) := by
  have length {x : List Nat} (fits : x.length ≤ output.length) :
      (aligned (max 1 output.length) x).length = (aligned (max 1 output.length) output).length := by
    rw [length_aligned (by omega), length_aligned (by omega)]
  constructor
  · rw [dims, ternaryDims, List.map_map]
    exact map_getD_range _ 0
  · intro o
    rw [dims, ternaryDims, List.map_map, ← length (stretches shape o).1]
    cases o <;> exact map_getD_range _ 0

theorem stretches_max (shape : shapes.output = some output) (o : Operand) :
    Stretches (aligned (max 1 output.length) (shapes.shape o))
      (aligned (max 1 output.length) output) := by
  obtain ⟨rank, own⟩ := stretches shape o
  rcases Nat.eq_zero_or_pos output.length with scalar | several
  · have none_ : output = [] := length_eq_zero_iff.mp scalar
    have single : shapes.shape o = [] := length_eq_zero_iff.mp (by omega)
    rw [none_, single]
    exact stretches_refl _
  · rwa [Nat.max_eq_right several, aligned_length]

theorem fits_dims (shape : shapes.output = some output) : ∀ d ∈ shapes.dims output, d.Fits := by
  intro d mem o
  obtain ⟨outs, operands⟩ := map_dims shape
  have fits := stretches_max shape o
  rw [← outs, ← operands o] at fits
  exact stretches_operands.mp fits d mem

theorem reference_eq (shape : shapes.output = some output) (o : Operand) :
    shapes.reference output o = sources o (shapes.dims output) := by
  obtain ⟨rank, own⟩ := stretches shape o
  obtain ⟨outs, operands⟩ := map_dims shape
  have due : shapes.reference output o =
      tileSources (List.zipWith stretchTile (aligned output.length (shapes.shape o)) output) := by
    rw [← map_stretchIndex_indices own, reference]
    refine map_congr_left fun index mem => ?_
    have length := length_of_mem_indices mem
    rw [← flatten_aligned (length ▸ rank), length]
  rw [due, sources, ← zipWith_stretchTile, outs, operands o]
  rcases Nat.eq_zero_or_pos output.length with scalar | several
  · have none_ : output = [] := length_eq_zero_iff.mp scalar
    have single : shapes.shape o = [] := length_eq_zero_iff.mp (by omega)
    rw [none_, single]
    rfl
  · rw [Nat.max_eq_right several, aligned_length]

theorem positive_dims (shape : shapes.output = some output) (some_ : 0 < output.numElements) :
    ∀ d ∈ shapes.dims output, 0 < d.output := by
  intro d mem
  have whole : 0 < ((shapes.dims output).map TernaryDim.output).prod := by
    rwa [(map_dims shape).1, prod_aligned]
  exact List.prod_pos_iff_forall_pos_nat.mp whole _ (List.mem_map_of_mem mem)

theorem reads_iff (shape : shapes.output = some output) (some_ : 0 < output.numElements)
    (few : shapes.slotCount output ≤ 8) :
    (∀ simple, simplifyTernary (shapes.dims output) 8 = some simple →
      ∀ o, readPositions simple o = some (shapes.reference output o)) ↔ shapes.Narrow output := by
  have fits := fits_dims shape
  have pos := positive_dims shape some_
  rw [slotCount] at few
  rw [simplifyTernary_eq, if_pos few]
  have read := exists_readPositions few (fits_slots (fits_groups (fits_narrow fits)))
    fun d => slots_lt
  have due (lt : ∀ group ∈ groups (shapes.dims output), group.output < 2 ^ 32) (o : Operand) :
      readPositions (simpleTernary 8 (slots (groups ((shapes.dims output).map TernaryDim.narrow))))
          o = some (shapes.reference output o) ↔
        Addressed ((groups (shapes.dims output)).map (TernaryDim.operand · o)) := by
    obtain ⟨positions, got, -, same⟩ := read o
    rw [narrow_of_small fits (output_lt_of_groups pos lt)] at got same ⊢
    have outs := positive_groups pos
    rw [got, Option.some.injEq, ← addressed_slots o (fits_groups fits) outs lt,
      ← same (positive_slots outs), (sources_slots o outs lt).1, sources_groups, reference_eq shape]
  constructor
  · intro reads
    have lt : ∀ group ∈ groups (shapes.dims output), group.output < 2 ^ 32 := by
      obtain ⟨positions, got, length, -⟩ := read .cond
      have same := (reads _ rfl .cond).symm.trans got
      rw [Option.some.injEq] at same
      refine small_of_prod_slots fits pos ?_
      rw [← length, ← same, reference, length_map, length_indices, (map_dims shape).1, prod_aligned]
    exact ⟨lt, fun o => (due lt o).mp (reads _ rfl o)⟩
  · rintro ⟨lt, addr⟩ simple same o
    rw [← some.inj same]
    exact (due lt o).mpr (addr o)

theorem output_eq (shapes : Shapes) : shapes.output =
    (broadcast shapes.then_ shapes.else_).bind fun branches => broadcast shapes.cond branches := by
  have perm : [shapes.cond, shapes.then_, shapes.else_].Perm
      [shapes.then_, shapes.else_, shapes.cond] := by
    refine (List.Perm.swap _ _ _).trans ?_
    exact List.Perm.cons _ (List.Perm.swap _ _ _)
  rw [output, broadcastAll_perm perm, broadcastAll, foldlM_cons, broadcast_nil]
  simp only [bind_eq_bind, bind_some, foldlM_cons, foldlM_nil]
  refine congrArg _ (funext fun branches => ?_)
  rw [broadcast_comm]
  exact bind_fun_some _

theorem create_operand (shape : shapes.output = some output) (o : Operand) :
    ∃ bcast, BCast.create output (shapes.shape o) false = some bcast ∧ bcast.output = output ∧
      toShape bcast.yReshape = aligned (max 1 output.length) (shapes.shape o) := by
  have absorbed : broadcast output (shapes.shape o) = some output := by
    rw [broadcast_comm]
    exact broadcast_eq_right_iff.mpr (stretches shape o)
  have made := BCast.create_output output (shapes.shape o) false
  have reshaped := BCast.create_yReshape output (shapes.shape o)
  rw [absorbed] at made reshaped
  obtain ⟨bcast, got, same⟩ := map_eq_some_iff.mp made
  rw [got, map_some, map_some, Option.some.injEq] at reshaped
  refine ⟨bcast, got, same, ?_⟩
  rw [reshaped, toShape, List.map_map]
  exact List.map_id _

theorem aligned_self (shape : TensorShape) :
    (if shape.length = 0 then [1] else shape) = aligned (max 1 shape.length) shape := by
  split
  case isTrue empty => rw [length_eq_zero_iff.mp empty]; rfl
  case isFalse many => rw [Nat.max_eq_right (by omega), aligned_length]

theorem selectV2InitHelper_eq (shape : shapes.output = some output) :
    selectV2InitHelper shapes.cond shapes.then_ shapes.else_ =
      if output.length ≤ 8 then .ok ⟨simplifyTernary (shapes.dims output) 8, output⟩
      else .error manyDimensions := by
  obtain ⟨condBcast, made, same, reshaped⟩ := create_operand shape .cond
  obtain ⟨thenBcast, made', same', reshaped'⟩ := create_operand shape .then_
  obtain ⟨elseBcast, made'', same'', reshaped''⟩ := create_operand shape .else_
  simp only [Shapes.shape] at made made' made'' reshaped reshaped' reshaped''
  rw [output_eq, bind_eq_some_iff] at shape
  obtain ⟨branches, first, snd⟩ := shape
  rw [← BCast.create_output _ _ false] at first snd
  obtain ⟨thenElse, new, rfl⟩ := map_eq_some_iff.mp first
  obtain ⟨bcast, new', rfl⟩ := map_eq_some_iff.mp snd
  simp only [selectV2InitHelper, new, new', made, made', made'', same, same', same'',
    reshaped, reshaped', reshaped'', aligned_self]
  by_cases few : bcast.output.length ≤ 8
  · simp [opRequires, few, bind, Except.bind, pure, Except.pure, Shapes.dims]
  · simp [opRequires, few, bind, Except.bind]

theorem selectV2InitHelper_error (none_ : shapes.output = none) :
    ∃ status, selectV2InitHelper shapes.cond shapes.then_ shapes.else_ = .error status ∧
      status.isInvalidArgument = true := by
  rw [output_eq, ← BCast.create_output _ _ false] at none_
  rw [selectV2InitHelper]
  cases new : BCast.create shapes.then_ shapes.else_ false with
  | none => exact ⟨_, rfl, rfl⟩
  | some thenElse =>
    rw [new, map_some, bind_some, ← BCast.create_output _ _ false, map_eq_none_iff] at none_
    simp only [none_]
    exact ⟨_, rfl, rfl⟩

theorem accepts_iff (shapes : Shapes) : ((shapes.Simplifies → ∃ init,
      selectV2InitHelper shapes.cond shapes.then_ shapes.else_ = .ok init ∧
        init.simpleTernary.isSome ∧ shapes.output = some init.broadcastedOutputShape) ∧
    (¬shapes.Simplifies → ∃ status,
      selectV2InitHelper shapes.cond shapes.then_ shapes.else_ = .error status ∧
        status.isInvalidArgument = true)) ↔
    ∀ output, shapes.output = some output → output.length ≤ 8 ∨ 8 < shapes.slotCount output := by
  cases shape : shapes.output with
  | none =>
    have apart : ¬shapes.Simplifies := by
      rintro ⟨output, got, -⟩
      rw [shape] at got
      exact nomatch got
    simp [apart, selectV2InitHelper_error shape]
  | some output =>
    have simplifies : shapes.Simplifies ↔ shapes.slotCount output ≤ 8 := by
      simp only [Simplifies, shape, Option.some.injEq, exists_eq_left', simplifyTernary_eq]
      rw [slotCount, isSome_ite]
    have ranks : output.length ≤ 8 → shapes.slotCount output ≤ 8 := by
      intro few
      have slots_ := length_slots_groups ((shapes.dims output).map TernaryDim.narrow)
      have dims_ := congrArg List.length (map_dims shape).1
      rw [length_map, length_aligned (le_max_right _ _)] at dims_
      rw [length_map, dims_] at slots_
      rw [slotCount]
      omega
    rw [simplifies, selectV2InitHelper_eq shape]
    by_cases few : output.length ≤ 8
    · have simple : (simplifyTernary (shapes.dims output) 8).isSome := by
        rw [simplifyTernary_eq, isSome_ite]
        exact ranks few
      simp [few, ranks few, simple]
    · simp [few, manyDimensions, Status.isInvalidArgument]

/-- Nine dimensions in which nothing is broadcast are a single one, and are rejected. -/
def cube : Shapes := ⟨List.replicate 9 2, List.replicate 9 2, List.replicate 9 2⟩

end Shapes

end TfDml.Select
