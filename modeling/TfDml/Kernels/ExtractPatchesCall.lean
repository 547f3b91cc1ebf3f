import TfDml.Kernels.ExtractPatchesInit

/-! # The patches of a call

The padded input is gathered if the sizes fit into their types. The patches are then those of the
reference.
-/

namespace TfDml.ExtractPatches

open Lib
open List hiding flatten
open DmlGraph (Expression)
open DmlTensorDesc (address narrowTensorShape packedStrides)
open StridedSlice (i32)

namespace Call

variable (call : Call)

def axes : List PatchAxis :=
  call.windows.map fun w =>
    ⟨w.ksize, w.stride, w.rate, w.count call.padding, w.paddedSize call.padding⟩

variable {β : Type}

theorem map_axes (f : PatchAxis → β) : call.axes.map f = call.windows.map fun w =>
    f ⟨w.ksize, w.stride, w.rate, w.count call.padding, w.paddedSize call.padding⟩ :=
  List.map_map

theorem totals_eq : call.padDims.map PadDim.total =
    [call.batch] ++ call.windows.map (·.paddedSize call.padding) ++ [call.depth] := by
  rw [padDims, map_append, map_append, List.map_map]
  simp [PadDim.total, Function.comp_def, Window.paddedSize]

theorem getD_between (f : β → Nat) (l : List β) (x y : Nat) {i : Nat} (lt : i < l.length) :
    ([x] ++ l.map f ++ [y]).getD (i + 1) 0 = f l[i] := by
  rw [append_assoc, singleton_append, getD_cons_succ, getD_append _ _ _ _ (by rwa [length_map]),
    getD_eq_getElem _ _ (by simpa), getElem_map]

theorem patchAxes_eq :
    patchAxes call.attributes call.outputShape (call.padDims.map PadDim.total) = call.axes := by
  have length : call.attributes.ksizes.length - 2 = call.windows.length := by
    simp [attributes, vector]
  refine ext_getElem ?_ fun i lt lt' => ?_
  · rw [patchAxes, length_map, length_range, length, axes, length_map]
  · have within : i < call.windows.length := by
      rw [axes, length_map] at lt'
      exact lt'
    simp only [patchAxes, axes, getElem_map, getElem_range, attributes, vector,
      outputShape, counts, totals_eq, getD_between _ _ _ _ within]

theorem padDims_eq_some {dims : List PadDim} :
    Expression.padDims call.input call.init.startPadding call.init.endPadding = some dims ↔
      (∀ dim ∈ call.padDims, dim.total < 2 ^ 32) ∧ dims = call.padDims := by
  have same : List.zipWith (fun size padding => (⟨size, padding.1, padding.2⟩ : PadDim)) call.input
      (call.init.startPadding.zip call.init.endPadding) = call.padDims := by
    rw [input, init]
    simp only [zip_map', zipWith_map, zipWith_self]
    exact List.map_id _
  rw [Expression.padDims, same, Option.ite_none_right_eq_some, Option.some.injEq,
    eq_comm (a := dims)]

def Padded : Prop := ∃ w ∈ call.windows, w.missing call.padding ≠ 0

theorem needPadding_iff :
    needPadding call.init.startPadding call.init.endPadding = true ↔ call.Padded := by
  have half (w : Window) : ((w.padDim call.padding).before ≠ 0 ∨
      (w.padDim call.padding).after ≠ 0) ↔ w.missing call.padding ≠ 0 := by
    simp only [Window.padDim]
    omega
  simp only [needPadding, init, padDims, Bool.or_eq_true, List.any_map, any_append,
    any_cons, any_nil, List.any_eq_true, Padded, ← half, and_or_left, exists_or,
    Function.comp_apply, bne_iff_ne]
  simp

def IsIdentity : Prop := ∀ w ∈ call.windows, w.ksize = 1 ∧ w.stride = 1

theorem isIdentity_iff :
    isIdentity call.attributes.ksizes call.attributes.strides = true ↔ call.IsIdentity := by
  simp [isIdentity, attributes, vector, IsIdentity, forall_and]

theorem prod_groups : (groups call.axes).flatten.prod = call.counts.prod * call.ksizes.prod := by
  rw [prod_flatten, groups, List.map_map, map_axes, counts, ksizes, ← prod_map_mul]
  simp

theorem prod_gatheredSizes :
    (gatheredSizes call.batch call.depth call.axes).prod = call.outputShape.prod := by
  rw [gatheredSizes, prod_append, prod_append, call.prod_groups, outputShape, prod_append,
    prod_append, prod_singleton, prod_singleton, prod_singleton]
  ring

variable {call}

namespace Due

theorem batch (due : call.Due) : 0 < call.batch := by
  refine List.prod_pos_iff_forall_pos_nat.mp due.1 call.batch ?_
  rw [outputShape]
  simp

theorem count (due : call.Due) : ∀ w ∈ call.windows, 0 < w.count call.padding := by
  intro w mem
  refine List.prod_pos_iff_forall_pos_nat.mp due.1 _ ?_
  rw [outputShape, counts]
  simp only [mem_append, List.mem_map]
  exact .inl (.inr ⟨w, mem, rfl⟩)

theorem depth (due : call.Due) : 0 < call.depth := by
  have last : 0 < call.ksizes.prod * call.depth := by
    refine List.prod_pos_iff_forall_pos_nat.mp due.1 _ ?_
    rw [outputShape]
    simp
  exact Nat.pos_of_mul_pos_left last

theorem some_axes : call.axes ≠ [] := by
  intro empty
  have length := congrArg List.length empty
  rw [axes, length_map, call.rank] at length
  cases isOp : call.op with
  | image => simp [isOp, Op.spatialDims] at length
  | volume => simp [isOp, Op.spatialDims] at length

theorem fits (due : call.Due) : ∀ axis ∈ call.axes, axis.Fits := by
  intro axis mem
  obtain ⟨w, lt, rfl⟩ := List.mem_map.mp mem
  exact ⟨due.count w lt, w.ksize_pos⟩

theorem small (due : call.Due) : (gatheredSizes call.batch call.depth call.axes).prod < 2 ^ 32 := by
  rw [prod_gatheredSizes]
  exact due.2

end Due

variable {windows : List Window} {os ks : List Nat}

theorem positions_axes (padding : Padding) : positions (windows.map fun w =>
      (⟨w.ksize, w.stride, w.rate, w.count padding, w.paddedSize padding⟩ : PatchAxis))
      (interleave os ks) = spatial windows os ks := by
  induction windows generalizing os ks with
  | nil => rfl
  | cons w rest ih =>
    cases os with
    | nil => rfl
    | cons o os =>
      cases ks with
      | nil => rfl
      | cons k ks =>
        rw [map_cons, interleave, positions, ih]
        rfl

theorem spatial_mem (padding : Padding) (outs : os ∈ indices (windows.map (·.count padding)))
    (inner : ks ∈ indices (windows.map Window.ksize)) :
    spatial windows os ks ∈ indices (windows.map (·.paddedSize padding)) := by
  rw [mem_indices] at outs inner ⊢
  induction windows generalizing os ks with
  | nil =>
    cases outs
    cases inner
    exact .nil
  | cons w rest ih =>
    cases outs with
    | cons less outs =>
      cases inner with
      | cons less' inner => exact .cons (w.position_lt less less') (ih outs inner)

theorem spatialPosition_lt {index : List Nat}
    (mem : index ∈ indices (groups call.axes).flatten) :
    spatialPosition call.axes index < (call.axes.map PatchAxis.paddedSize).prod := by
  obtain ⟨os, outs, ks, inner, rfl⟩ : ∃ os ∈ indices call.counts, ∃ ks ∈ indices call.ksizes,
      index = interleave os ks := by
    rw [groups_flatten, map_axes, map_axes] at mem
    exact exists_of_mem_interleave (by rw [counts, ksizes, length_map, length_map]) mem
  rw [spatialPosition]
  refine flatten_lt ?_
  rw [axes, positions_axes, List.map_map]
  exact spatial_mem call.padding outs inner

theorem paddedSizes_axes :
    call.axes.map PatchAxis.paddedSize = call.windows.map (·.paddedSize call.padding) :=
  call.map_axes PatchAxis.paddedSize

theorem indexesInside (due : call.Due) : IndexesInside call.input call.attributes call.init := by
  intro dims padded row count gathered entry mem
  obtain ⟨-, rfl⟩ := call.padDims_eq_some.mp padded
  have outputs : call.init.outputShape.map Int.toNat = call.outputShape := by
    rw [init, List.map_map]
    exact List.map_id _
  have small : (groups call.axes).flatten.prod < 2 ^ 32 := by
    have whole := due.small
    rw [gatheredSizes, prod_append, prod_append, prod_singleton, prod_singleton] at whole
    exact lt_of_le_of_lt ((Nat.le_mul_of_pos_left _ due.batch).trans
      (Nat.le_mul_of_pos_right _ due.depth)) whole
  rw [outputs, call.patchAxes_eq, gatherIndices_eq due.fits Due.some_axes small,
    Option.some.injEq] at gathered
  obtain ⟨rfl, -⟩ := Prod.mk.inj gathered
  obtain ⟨_, lt, rfl⟩ := List.mem_map.mp mem
  obtain ⟨index, within, rfl⟩ := List.mem_map.mp lt
  refine ⟨_, ?_, rfl⟩
  rw [call.totals_eq, middle_between, ← paddedSizes_axes]
  exact lt_of_le_of_lt (Nat.mod_le _ _) (spatialPosition_lt within)

/-- An element of the padded input, from the input's elements. -/
def element {α : Type} [Zero α] (read : List Nat → Option α) (index : List Nat) : Option α :=
  match sourceIndex .constant call.padDims index with
  | none => some 0
  | some source => read source

variable {b c : Nat}

theorem source_mem (batch : b < call.batch) (outs : os ∈ indices call.counts)
    (inner : ks ∈ indices call.ksizes) (channel : c < call.depth) :
    call.source b os ks c ∈ indices (call.padDims.map PadDim.total) := by
  rw [call.totals_eq, source]
  exact append_mem_indices (append_mem_indices (mem_indices.mpr (.cons batch .nil))
    (spatial_mem call.padding outs inner)) (mem_indices.mpr (.cons channel .nil))

theorem flatten_target (outs : os ∈ indices call.counts) :
    flatten call.outputShape (call.target b os ks c) =
      flatten (patchSizes call.batch call.depth call.axes) ([b] ++ os ++ ks ++ [c]) := by
  have first : ([b] ++ os).length = ([call.batch] ++ call.counts).length := by
    rw [length_append, length_append, length_of_mem_indices outs]
    rfl
  have sizes : patchSizes call.batch call.depth call.axes =
      ([call.batch] ++ call.counts) ++ (call.ksizes ++ [call.depth]) := by
    rw [patchSizes, call.map_axes, call.map_axes, append_assoc]
    rfl
  rw [sizes, outputShape, target, append_assoc ([b] ++ os), flatten_append first,
    flatten_append first]
  simp [flatten]

theorem patches_iff {α : Type} [Zero α] {values : List α} {f : List Nat → Option α} :
    call.Patches values
        (Expression.ofIndices (patchSizes call.batch call.depth call.axes) f).buffer ↔
      ∀ b < call.batch, ∀ os ∈ indices call.counts, ∀ ks ∈ indices call.ksizes,
        ∀ c < call.depth, f ([b] ++ os ++ ks ++ [c]) =
          call.element (fun source => values[flatten call.input source]?)
            (call.source b os ks c) := by
  have sizes : (patchSizes call.batch call.depth call.axes).prod = call.outputShape.prod := by
    rw [patchSizes, call.map_axes, call.map_axes, outputShape, counts, ksizes]
    simp only [prod_append, prod_singleton]
    ring
  have due {b c : Nat} {os ks : List Nat} (batch : b < call.batch) (outs : os ∈ indices call.counts)
      (inner : ks ∈ indices call.ksizes) (channel : c < call.depth) :
      (Expression.ofIndices (patchSizes call.batch call.depth call.axes) f).buffer[
          flatten call.outputShape (call.target b os ks c)]? =
        (padded .constant call.padDims 0 values)[
          flatten (call.padDims.map PadDim.total) (call.source b os ks c)]? ↔
      f ([b] ++ os ++ ks ++ [c]) = call.element (fun source => values[flatten call.input source]?)
        (call.source b os ks c) := by
    have mem : [b] ++ os ++ ks ++ [c] ∈ indices (patchSizes call.batch call.depth call.axes) := by
      rw [patchSizes, call.map_axes, call.map_axes]
      exact append_mem_indices (append_mem_indices (append_mem_indices
        (mem_indices.mpr (.cons batch .nil)) outs) inner) (mem_indices.mpr (.cons channel .nil))
    rw [flatten_target outs, Expression.getElem?_ofIndices mem, padded, getElem?_map,
      getElem?_flatten (source_mem batch outs inner channel), Option.map_some, Option.some.injEq]
    rfl
  constructor
  · intro patches b batch os outs ks inner c channel
    exact (due batch outs inner channel).mp (patches.element b batch os outs ks inner c channel)
  · intro each
    refine ⟨?_, fun b batch os outs ks inner c channel =>
      (due batch outs inner channel).mpr (each b batch os outs ks inner c channel)⟩
    rw [Expression.ofIndices, length_map, length_indices, sizes]

theorem input_pos (due : call.Due) : 0 < call.input.prod := by
  rw [input_eq]
  refine List.prod_pos_iff_forall_pos_nat.mpr fun size mem => ?_
  rw [mem_append, mem_append, mem_singleton, mem_singleton] at mem
  rcases mem with (rfl | inside) | rfl
  · exact due.batch
  · obtain ⟨w, within, rfl⟩ := List.mem_map.mp inside
    exact w.size_pos (due.count w within)
  · exact due.depth

theorem input_lt (sized : call.Sized) : ∀ size ∈ call.input, size < 2 ^ 32 := by
  intro size mem
  rw [input_eq, mem_append, mem_append, mem_singleton, mem_singleton] at mem
  rcases mem with (rfl | inside) | rfl
  · exact lt_trans sized.batch (by decide)
  · obtain ⟨w, within, rfl⟩ := List.mem_map.mp inside
    exact lt_trans (sized.sizes w within) (by decide)
  · exact lt_trans (lt_of_le_of_lt call.depth_le sized.channels) (by decide)

theorem length_input : call.input.length = call.op.spatialDims + 2 := by
  rw [input_eq, ← call.rank]
  simp

theorem create_input (below : ∀ size ∈ call.input, size < 2 ^ 32) :
    DmlTensorDesc.create call.input call.input = some ⟨call.input, packedStrides call.input⟩ := by
  have rank : 4 ≤ call.input.length ∧ call.input.length ≤ 8 := by
    rw [length_input]
    cases call.op with
    | image => decide
    | volume => decide
  refine DmlTensorDesc.create_self_eq_some.mpr ⟨⟨rank.2, below⟩, ?_⟩
  rw [DmlTensorDesc.kNchwDimensionCount, Nat.sub_eq_zero_of_le rank.1]
  rfl

theorem create_output (due : call.Due) : ∃ desc,
    DmlTensorDesc.create call.outputShape call.outputShape = some desc := by
  refine ⟨_, DmlTensorDesc.create_self_eq_some.mpr ⟨⟨?_, ?_⟩, rfl⟩⟩
  · rw [outputShape, counts, length_append, length_append, length_map, call.rank,
      length_singleton, length_singleton]
    cases call.op with
    | image => decide
    | volume => decide
  · exact fun size mem => lt_of_le_of_lt
      (Nat.le_of_dvd due.1 (dvd_prod mem)) due.2

variable {α : Type} [Zero α]

theorem compute_eq (sized : call.Sized) (due : call.Due) (values : List α) :
    compute call.toArguments values =
      (extractPatches ⟨call.input, some (packedStrides call.input), values.map some⟩
        call.attributes call.init.startPadding call.init.endPadding call.outputShape).map
          fun result => .ok result.buffer := by
  have nat : call.init.outputShape.all (0 ≤ ·) = true := by
    refine List.all_eq_true.mpr fun size mem => ?_
    obtain ⟨n, -, rfl⟩ := List.mem_map.mp mem
    simp
  have outputs : call.init.outputShape.map Int.toNat = call.outputShape := by
    rw [init, List.map_map]
    exact List.map_id _
  have runs : NoOpKernel.isNoOpKernel [call.input] [call.outputShape] = false := by
    rw [Bool.eq_false_iff, ne_eq, NoOpKernel.isNoOpKernel_iff]
    have input := input_pos due
    have output := due.1
    simp only [mem_singleton, exists_eq_left, TensorShape.numElements]
    omega
  have narrow : narrowTensorShape call.outputShape = some call.outputShape :=
    DmlTensorDesc.narrowTensorShape_eq_some.mpr ⟨fun size mem => lt_of_le_of_lt
      (Nat.le_of_dvd due.1 (dvd_prod mem)) due.2, rfl⟩
  obtain ⟨desc, output⟩ := create_output due
  have input : call.toArguments.input = call.input := rfl
  rw [compute, construct_eq sized due.depth due.count]
  simp only [Option.bind_eq_bind, Option.bind_some, nat, if_true, outputs, input, runs,
    Bool.false_eq_true, if_false, kernel, narrow, create_input (input_lt sized), output]
  cases extractPatches (⟨call.input, some (packedStrides call.input), values.map some⟩ :
      Expression α) _ _ _ _ with
  | none => rfl
  | some result => rfl

end Call

end TfDml.ExtractPatches
