import TfDml.Kernels.ExtractPatchesCall

/-! # When the patches are extracted

The graph computes the patches if the padded spatial dimensions have fewer than 2^32 elements and if
the strides of the input, where it is padded, address the elements that are read.
-/

namespace TfDml.ExtractPatches

open Lib Option
open List hiding flatten
open DmlGraph (Expression)
open DmlTensorDesc (address packedStrides)
open StridedSlice (i32)

namespace Call

/-- What the graph of a call that is no identity needs. -/
structure Gathered (call : Call) : Prop where
  small : call.paddedSpatial < 2 ^ 32
  addressed : call.Padded → ∀ b < call.batch, ∀ os ∈ indices call.counts,
    ∀ ks ∈ indices call.ksizes, ∀ c < call.depth,
      ∀ source, sourceIndex .constant call.padDims (call.source b os ks c) = some source →
        address (packedStrides call.input) source = flatten call.input source

structure Fits (call : Call) : Prop where
  sized : call.Sized
  gathered : call.IsIdentity ∨ call.Gathered

variable {call : Call}

theorem unpadded (plain : ¬call.Padded) : ∀ d ∈ call.padDims, d.Unpadded := by
  intro d mem
  rw [padDims, mem_append, mem_append, mem_singleton, mem_singleton] at mem
  rcases mem with (rfl | inside) | rfl
  · exact ⟨rfl, rfl⟩
  · obtain ⟨w, lt, rfl⟩ := List.mem_map.mp inside
    have none : w.missing call.padding = 0 := by
      by_contra some_
      exact plain ⟨w, lt, some_⟩
    simp [PadDim.Unpadded, Window.padDim, none]
  · exact ⟨rfl, rfl⟩

theorem totals_of_unpadded (plain : ¬call.Padded) : call.padDims.map PadDim.total = call.input := by
  refine map_congr_left fun d mem => ?_
  obtain ⟨pre, after⟩ := unpadded plain d mem
  rw [PadDim.total, pre, after, zero_add, add_zero]

section Identity

variable (identity : call.IsIdentity) (due : call.Due)

include identity

theorem counts_of_identity : call.counts = call.windows.map Window.size := by
  refine map_congr_left fun w mem => ?_
  obtain ⟨one, one'⟩ := identity w mem
  have reach : w.reach = 1 := by rw [Window.reach, one, Nat.sub_self, zero_mul]
  cases call.padding with
  | same => rw [Window.count, one', Nat.add_sub_cancel, Nat.div_one]
  | valid => simp [Window.count, one', reach]
  | explicit => simp [Window.count, one', reach]

theorem ksizes_of_identity : call.ksizes = List.replicate call.windows.length 1 := by
  refine eq_replicate_iff.mpr ⟨length_map _, fun k mem => ?_⟩
  obtain ⟨w, lt, rfl⟩ := List.mem_map.mp mem
  exact (identity w lt).1

theorem outputShape_of_identity : call.outputShape = call.input := by
  rw [outputShape, counts_of_identity identity, ksizes_of_identity identity, prod_replicate,
    Nat.one_pow, one_mul, input_eq]

omit identity in
theorem spatial_of_ones {windows : List Window} (ones : ∀ w ∈ windows, w.ksize = 1 ∧ w.stride = 1)
    {padding : Padding} {os ks : List Nat} (outs : os ∈ indices (windows.map (·.count padding)))
    (inner : ks ∈ indices (windows.map Window.ksize)) : spatial windows os ks = os := by
  rw [mem_indices] at outs inner
  induction windows generalizing os ks with
  | nil =>
    cases outs
    rfl
  | cons w rest ih =>
    obtain ⟨one, later⟩ := forall_mem_cons.mp ones
    cases outs with
    | cons less outs =>
      cases inner with
      | cons less' inner =>
        rw [one.1, Nat.lt_one_iff] at less'
        rw [spatial, ih later outs inner, Window.position, one.2, less', zero_mul,
          mul_one, add_zero]

include due

theorem not_padded : ¬call.Padded := by
  rintro ⟨w, mem, missing⟩
  obtain ⟨one, one'⟩ := identity w mem
  have reach : w.reach = 1 := by rw [Window.reach, one, Nat.sub_self, zero_mul]
  have pos := w.size_pos (due.count w mem)
  refine missing ?_
  cases call.padding with
  | same =>
    rw [Window.missing, Window.count, one', reach, Nat.add_sub_cancel, Nat.div_one]
    omega
  | valid => rfl
  | explicit => rfl

theorem patches_of_identity {α : Type} [Zero α] {values : List α}
    (length : values.length = call.input.prod) : call.Patches values (values.map some) := by
  have sizes := outputShape_of_identity identity
  refine ⟨by rw [length_map, length, sizes], fun b batch os outs ks inner c channel => ?_⟩
  have plain := not_padded identity due
  have mem := source_mem batch outs inner channel
  rw [totals_of_unpadded plain] at mem ⊢
  have target : call.target b os ks c = call.source b os ks c := by
    have zeros : flatten (call.ksizes ++ [call.depth]) (ks ++ [c]) = c := by
      rw [flatten_append (length_of_mem_indices inner)]
      have first := flatten_lt inner
      rw [ksizes_of_identity identity, prod_replicate, Nat.one_pow, Nat.lt_one_iff,
        ← ksizes_of_identity identity] at first
      rw [first]
      simp [flatten]
    rw [Call.target, Call.source, zeros, spatial_of_ones identity outs inner]
  have padded : sourceIndex .constant call.padDims (call.source b os ks c) =
      some (call.source b os ks c) := sourceIndex_of_unpadded (unpadded plain) mem
  have below := flatten_lt mem
  rw [target, sizes, Lib.padded, getElem?_map, getElem?_map,
    totals_of_unpadded plain, getElem?_flatten mem, map_some]
  simp only [padded]
  rw [getElem?_eq_getElem (length ▸ below)]
  exact congrArg some (getElem?_eq_getElem (length ▸ below)).symm

theorem identity_eq {α : Type} {values : List α} (length : values.length = call.input.prod) :
    (⟨call.input, some (packedStrides call.input), values.map some⟩ :
      Expression α).identity.buffer = values.map some := by
  have lt : call.input.prod < 2 ^ 32 := by
    rw [← outputShape_of_identity identity]
    exact due.2
  refine (map_congr_left fun index mem => ?_).trans (map_getElem?_flatten length)
  have same := DmlTensorDesc.addressed_of_lt lt index mem
  rw [Expression.read, Expression.place]
  simp only [same, getElem?_map]
  cases values[flatten call.input index]? with
  | none => rfl
  | some x => rfl

end Identity

section Gather

variable {α : Type}

theorem flatten_source {b c : Nat} {os ks : List Nat} (outs : os ∈ indices call.counts)
    (inner : ks ∈ indices call.ksizes) : (b * (call.axes.map PatchAxis.paddedSize).prod +
        spatialPosition call.axes (interleave os ks)) * call.depth + c =
      flatten (call.padDims.map PadDim.total) (call.source b os ks c) := by
  have length := length_of_mem_indices (spatial_mem call.padding outs inner)
  rw [totals_eq, source, append_assoc, append_assoc, singleton_append, singleton_append, flatten,
    flatten_append length, spatialPosition, paddedSizes_axes, axes, positions_axes]
  simp [flatten]
  ring

variable (due : call.Due) {input : Expression α}

include due

theorem gathers (sizes : input.sizes = call.padDims.map PadDim.total)
    (length : input.buffer.length = (call.padDims.map PadDim.total).prod) :
    Gathers input call.axes call.batch call.depth where
  sizes := by rw [sizes, totals_eq, paddedSizes_axes]
  fits := due.fits
  some_ := Due.some_axes
  batches := due.batch
  channels := due.depth
  length := by
    rw [length, totals_eq, paddedSizes_axes, prod_append, prod_append,
      prod_singleton, prod_singleton, mul_assoc]
  small := due.small

theorem exists_patches [Zero α] (lt : call.paddedSpatial < 2 ^ 32)
    (sizes : input.sizes = call.padDims.map PadDim.total)
    (length : input.buffer.length = (call.padDims.map PadDim.total).prod) :
    ∃ f, gatherPatches input call.axes =
        some (Expression.ofIndices (patchSizes call.batch call.depth call.axes) f) ∧
      ∀ b < call.batch, ∀ os ∈ indices call.counts, ∀ ks ∈ indices call.ksizes,
        ∀ c < call.depth, f ([b] ++ os ++ ks ++ [c]) = input.buffer[
          flatten (call.padDims.map PadDim.total) (call.source b os ks c)]?.join := by
  have known := gathers due sizes length
  obtain ⟨f, gathered, x⟩ := known.exists_gatherPatches
    (fun index mem => spatialPosition_lt mem) (by rw [paddedSizes_axes]; exact lt)
  rw [call.map_axes, call.map_axes] at x
  refine ⟨f, gathered, fun b batch os outs ks inner c channel => ?_⟩
  rw [x b batch os outs ks inner c channel, flatten_source outs inner]

end Gather

def view {α : Type} (call : Call) (values : List α) : Expression α :=
  ⟨call.input, some (packedStrides call.input), values.map some⟩

theorem read_view {α : Type} (values : List α) (index : List Nat) :
    (call.view values).read index = values[address (packedStrides call.input) index]? := by
  rw [Expression.read, Expression.place, view]
  simp only [getElem?_map]
  cases values[address (packedStrides call.input) index]? with
  | none => rfl
  | some x => rfl

section Extract

variable {α : Type} [Zero α]

theorem padding_eq (values : List α) (below : ∀ d ∈ call.padDims, d.total < 2 ^ 32) :
    (call.view values).padding 0 call.init.startPadding call.init.endPadding =
      some (Expression.ofIndices (call.padDims.map PadDim.total)
        (call.element fun source => values[address (packedStrides call.input) source]?)) := by
  rw [Expression.padding, show (call.view values).sizes = call.input from rfl,
    call.padDims_eq_some.mpr ⟨below, rfl⟩]
  refine congrArg some (congrArg (Expression.ofIndices _) (funext fun index => ?_))
  rw [element]
  cases sourceIndex .constant call.padDims index with
  | none => rfl
  | some source => exact read_view values source

theorem extractPatches_eq (values : List α) (other : ¬call.IsIdentity) :
    extractPatches (call.view values) call.attributes call.init.startPadding call.init.endPadding
      call.outputShape = (do
        let input ←
          if needPadding call.init.startPadding call.init.endPadding then
            (call.view values).padding 0 call.init.startPadding call.init.endPadding
          else some (call.view values)
        gatherPatches input (patchAxes call.attributes call.outputShape input.sizes)) := by
  rw [extractPatches, if_neg fun identity => other (call.isIdentity_iff.mp identity)]

variable (due : call.Due)

include due

theorem total_lt (sized : call.Sized) (small : call.paddedSpatial < 2 ^ 32) :
    ∀ d ∈ call.padDims, d.total < 2 ^ 32 := by
  intro d mem
  have total : d.total ∈ call.padDims.map PadDim.total := List.mem_map_of_mem mem
  rw [totals_eq, mem_append, mem_append, mem_singleton, mem_singleton] at total
  rcases total with (batch | inside) | depth
  · rw [batch]
    exact lt_trans sized.batch (by decide)
  · have pos : 0 < call.paddedSpatial := by
      refine List.prod_pos_iff_forall_pos_nat.mpr fun size got => ?_
      obtain ⟨w, lt, rfl⟩ := List.mem_map.mp got
      have some_ := w.size_pos (due.count w lt)
      rw [Window.paddedSize_eq]
      omega
    exact lt_of_le_of_lt (Nat.le_of_dvd pos (dvd_prod inside)) small
  · rw [depth]
    exact lt_trans (lt_of_le_of_lt call.depth_le sized.channels) (by decide)

theorem extractPatches_eq_none {values : List α} (length : values.length = call.input.prod)
    (other : ¬call.IsIdentity) (large : ¬call.paddedSpatial < 2 ^ 32) :
    extractPatches (call.view values) call.attributes call.init.startPadding call.init.endPadding
      call.outputShape = none := by
  have none_ {input : Expression α} (sizes : input.sizes = call.padDims.map PadDim.total)
      (count : input.buffer.length = (call.padDims.map PadDim.total).prod) :
      gatherPatches input (patchAxes call.attributes call.outputShape input.sizes) = none := by
    rw [sizes, call.patchAxes_eq]
    refine (gathers due sizes count).gatherPatches_eq_none ?_
    rwa [paddedSizes_axes]
  rw [extractPatches_eq values other]
  by_cases padded : call.Padded
  · rw [if_pos (call.needPadding_iff.mpr padded)]
    by_cases below : ∀ d ∈ call.padDims, d.total < 2 ^ 32
    · rw [padding_eq values below, bind_eq_bind, bind_some]
      exact none_ rfl (by rw [Expression.ofIndices, length_map, length_indices])
    · have missing : Expression.padDims call.input call.init.startPadding call.init.endPadding =
          none := by
        refine eq_none_iff_forall_not_mem.mpr fun dims hit => below ?_
        exact (call.padDims_eq_some.mp hit).1
      rw [Expression.padding, show (call.view values).sizes = call.input from rfl, missing]
      rfl
  · rw [if_neg fun needed => padded (call.needPadding_iff.mp needed), bind_eq_bind, bind_some]
    have totals := totals_of_unpadded padded
    exact none_ totals.symm (by rw [totals, ← length]; exact length_map _)

theorem exists_extractPatches (sized : call.Sized) {values : List α}
    (length : values.length = call.input.prod) (other : ¬call.IsIdentity)
    (lt : call.paddedSpatial < 2 ^ 32) : ∃ f, ∃ read : List Nat → Nat,
      extractPatches (call.view values) call.attributes call.init.startPadding call.init.endPadding
          call.outputShape =
        some (Expression.ofIndices (patchSizes call.batch call.depth call.axes) f) ∧
      (call.Padded → read = address (packedStrides call.input)) ∧
      (¬call.Padded → read = flatten call.input) ∧
      ∀ b < call.batch, ∀ os ∈ indices call.counts, ∀ ks ∈ indices call.ksizes,
        ∀ c < call.depth, f ([b] ++ os ++ ks ++ [c]) =
          call.element (fun src => values[read src]?) (call.source b os ks c) := by
  have axes_ {input : Expression α} (sizes : input.sizes = call.padDims.map PadDim.total) :
      gatherPatches input (patchAxes call.attributes call.outputShape input.sizes) =
        gatherPatches input call.axes := by
    rw [sizes, call.patchAxes_eq]
  rw [extractPatches_eq values other]
  by_cases padded : call.Padded
  · rw [if_pos (call.needPadding_iff.mpr padded),
      padding_eq values (total_lt due sized lt), bind_eq_bind, bind_some]
    obtain ⟨f, gathered, elements⟩ := @exists_patches _ _ due
      (Expression.ofIndices (call.padDims.map PadDim.total) (call.element fun src =>
        values[address (packedStrides call.input) src]?)) _ lt rfl
      (by rw [Expression.ofIndices, length_map, length_indices])
    refine ⟨f, _, (axes_ rfl).trans gathered, fun _ => rfl, fun plain => absurd padded plain, ?_⟩
    intro b batch os outs ks inner c channel
    rw [elements b batch os outs ks inner c channel,
      Expression.getElem?_ofIndices (source_mem batch outs inner channel), join_some]
  · have totals := totals_of_unpadded padded
    rw [if_neg fun needed => padded (call.needPadding_iff.mp needed), bind_eq_bind, bind_some]
    obtain ⟨f, gathered, elements⟩ := @exists_patches _ _ due (call.view values) _ lt
      totals.symm (by rw [totals, ← length]; exact length_map _)
    refine ⟨f, _, (axes_ totals.symm).trans gathered, fun needed => absurd needed padded,
      fun _ => rfl, ?_⟩
    intro b batch os outs ks inner c channel
    have mem := source_mem batch outs inner channel
    rw [totals] at mem
    rw [elements b batch os outs ks inner c channel, element,
      sourceIndex_of_unpadded (unpadded padded) mem, view, totals]
    simp only [getElem?_map]
    cases values[flatten call.input (call.source b os ks c)]? with
    | none => rfl
    | some x => rfl

end Extract

section Correct

variable (due : call.Due)

include due

theorem correct_of_fits (fits : call.Fits) : call.Correct call.attributes call.init := by
  refine ⟨construct_eq fits.sized due.depth due.count, rfl, indexesInside due, ?_, ?_⟩
  · intro identity α _ values length
    exact patches_of_identity (call.isIdentity_iff.mp identity) due length
  · intro α _ values length
    rw [compute_eq fits.sized due values]
    by_cases identity : call.IsIdentity
    · refine ⟨values.map some, ?_, patches_of_identity identity due length⟩
      rw [extractPatches, if_pos (call.isIdentity_iff.mpr identity), map_some,
        identity_eq identity due length]
    · have gathered := fits.gathered.resolve_left identity
      obtain ⟨f, read, extracted, strided, packed, elements⟩ :=
        exists_extractPatches due fits.sized length identity gathered.small
      refine ⟨_, by rw [← view, extracted, map_some], patches_iff.mpr ?_⟩
      intro b batch os outs ks inner c channel
      rw [elements b batch os outs ks inner c channel, element, element]
      cases found : sourceIndex .constant call.padDims (call.source b os ks c) with
      | none => rfl
      | some source =>
        by_cases padded : call.Padded
        · simp only [strided padded,
            gathered.addressed padded b batch os outs ks inner c channel source found]
        · simp only [packed padded]

theorem input_lt_of_compute {attr : Attributes} {init : Init} {α : Type} [Zero α]
    {values : List α} {result : List (Option α)}
    (constructed : construct call.toArguments = some (.ok (attr, init)))
    (shape : init.outputShape = call.outputShape.map Int.ofNat)
    (eq : compute call.toArguments values = some (.ok result)) :
    ∀ size ∈ call.input, size < 2 ^ 32 := by
  have outs : init.outputShape.map Int.toNat = call.outputShape := by
    rw [shape, List.map_map]
    exact List.map_id _
  have runs : NoOpKernel.isNoOpKernel [call.input] [call.outputShape] = false := by
    rw [Bool.eq_false_iff, ne_eq, NoOpKernel.isNoOpKernel_iff]
    have input := input_pos due
    have output := due.1
    simp only [mem_singleton, exists_eq_left, TensorShape.numElements]
    omega
  rw [compute, constructed] at eq
  simp only [bind_eq_bind, bind_some, outs,
    show call.toArguments.input = call.input from rfl, runs] at eq
  rw [ite_none_right_eq_some] at eq
  simp only [Bool.false_eq_true, if_false, kernel, bind_eq_bind, bind_eq_some_iff] at eq
  obtain ⟨-, _, ⟨_, -, desc, new, -⟩, -⟩ := eq
  exact (DmlTensorDesc.create_self_eq_some.mp new).1.dims

theorem fits_of_correct {attr : Attributes} {init : Init} (correct : call.Correct attr init) :
    call.Fits := by
  obtain ⟨batch, windows, channels⟩ :=
    bounds_of_construct correct.constructs correct.shape due.count
  obtain ⟨result, computed, patches⟩ := correct.extracts ℕ (List.range call.input.prod) length_range
  have below := input_lt_of_compute due correct.constructs correct.shape computed
  have sized : call.Sized := by
    refine ⟨batch, fun w mem => ?_, fun w mem => (windows w mem).1, channels⟩
    have small : w.size < 2 ^ 32 := by
      refine below _ ?_
      rw [input_eq, mem_append, mem_append]
      exact .inl (.inr (List.mem_map_of_mem mem))
    have positive := (windows w mem).2
    rw [i32, Int.bmod] at positive
    split at positive
    · omega
    · omega
  refine ⟨sized, ?_⟩
  rw [compute_eq sized due, ← view] at computed
  by_cases identity : call.IsIdentity
  · exact .inl identity
  · have small : call.paddedSpatial < 2 ^ 32 := by
      by_contra large
      rw [extractPatches_eq_none due length_range identity large] at computed
      cases computed
    refine .inr ⟨small, fun padded b batch os outs ks inner c channel source found => ?_⟩
    obtain ⟨f, read, extracted, strided, -, elements⟩ :=
      @exists_extractPatches _ _ _ due sized (List.range call.input.prod) length_range
        identity small
    rw [extracted, map_some, Option.some.injEq, Except.ok.injEq] at computed
    subst computed
    have same := patches_iff.mp patches b batch os outs ks inner c channel
    rw [elements b batch os outs ks inner c channel, element, element, found] at same
    have inside := @sourceIndex_mem .constant call.padDims _ _ (fun _ _ => trivial)
      (source_mem batch outs inner channel) found
    have element : (List.range call.input.prod)[flatten call.input source]? =
        some (flatten call.input source) := getElem?_range (flatten_lt inside)
    simp only [strided padded, element] at same
    obtain ⟨_, self⟩ := List.getElem?_eq_some_iff.mp same
    rwa [getElem_range] at self

end Correct

/-- The patches are those of the padded input, gathered from inside of it, and the shortcut is the
    identity, if and only if every size fits. -/
theorem extracts_iff (call : Call) :
    (call.Due → (∀ rejection, construct call.toArguments ≠ some (.error rejection)) →
      ∃ attr init, call.Correct attr init) ↔
    (call.Due → (∀ rejection, construct call.toArguments ≠ some (.error rejection)) →
      call.Fits) := by
  constructor
  · intro correct due ok
    obtain ⟨attr, init, holds⟩ := correct due ok
    exact fits_of_correct due holds
  · intro fits due ok
    exact ⟨_, _, correct_of_fits due (fits due ok)⟩

def largeWindow : Call where
  op := .image
  padding := .same
  batch := 1
  windows :=
    [⟨1, 2 ^ 15, 1, 1, by decide, by decide, by decide, by decide, by decide, by decide⟩,
      ⟨1, 2 ^ 16, 1, 1, by decide, by decide, by decide, by decide, by decide, by decide⟩]
  depth := 1
  implicit := by decide
  rank := rfl
  volume := nofun

theorem largeWindow_not_correct : ¬(largeWindow.Due →
      (∀ rejection, construct largeWindow.toArguments ≠ some (.error rejection)) →
        ∃ attr init, largeWindow.Correct attr init) := by
  have overflows : construct largeWindow.toArguments = none := by
    rw [← isNone_iff_eq_none]
    decide +kernel
  intro correct
  have due : largeWindow.Due := ⟨by decide +kernel, by decide +kernel⟩
  obtain ⟨attr, init, holds⟩ := correct due (fun rejection rejected => by
    rw [overflows] at rejected
    cases rejected)
  have constructed := holds.constructs
  rw [overflows] at constructed
  cases constructed

end Call

end TfDml.ExtractPatches
