import TfDml.Kernels.SliceOp

/-! # The window of Slice

For valid arguments the narrowed window is the wanted one as long as its sizes have 32 bits, and
the output holds its elements as long as they have 32-bit addresses.
-/

namespace TfDml.SliceOp

open Lib
open List hiding flatten
open StridedSlice (IndexTensor u32)
open DmlTensorDesc TensorShape NoOpKernel

variable {w : Nat}

def resolve (dim : Nat) (begin_ size : Int) : Int := if size = -1 then dim - begin_ else size

def InWindow (dim : Nat) (begin_ size : Int) : Prop :=
  0 ≤ begin_ ∧ begin_ ≤ dim ∧ (size = -1 ∨ 0 ≤ size ∧ size ≤ dim - begin_)

/-- There is a begin and a size for each dimension, and they are a part of it. -/
structure Valid (args : Arguments w) : Prop where
  beginShape : args.begin_.shape = [args.input.length]
  sizeShape : args.size.shape = [args.input.length]
  window : ∀ d (inside : d < args.input.length),
    InWindow args.input[d] (args.begin_.flat d) (args.size.flat d)

def Arguments.offsets (args : Arguments w) : List Nat :=
  (range args.input.length).map fun d => (args.begin_.flat d).toNat

def Arguments.sizes (args : Arguments w) : TensorShape :=
  args.input.zipIdx.map fun entry =>
    (resolve entry.1 (args.begin_.flat entry.2) (args.size.flat entry.2)).toNat

theorem Arguments.length_offsets (args : Arguments w) :
    args.offsets.length = args.input.length := by
  rw [offsets, length_map, length_range]

theorem Arguments.length_sizes (args : Arguments w) : args.sizes.length = args.input.length := by
  rw [sizes, length_map, length_zipIdx]

def narrowed (sizes : TensorShape) : TensorShape := sizes.map fun (size : Nat) => u32 size

def reference {α : Type} (args : Arguments w) (values : List α) : List (Option α) :=
  (indices args.sizes).map fun index =>
    values[flatten args.input (zipWith (· + ·) args.offsets index)]?

/-- Valid arguments give the part of the input, and others an error. -/
def Slices (args : Arguments w) : Prop :=
  ∀ (α : Type) [Zero α] (values : List α), values.length = args.input.numElements →
    (Valid args → compute args values = .finished (args.sizes, reference args values)) ∧
      (¬ Valid args → ∃ status, compute args values = .reported status)

theorem compute_ne_reported {α : Type} [Zero α] (args : Arguments w) (values : List α)
    (status : Status) : compute args values ≠ .reported status := by
  rw [compute]
  split
  · exact nofun
  · exact nofun

theorem InWindow.sizes {dim : Nat} {begin_ size : Int} (window : InWindow dim begin_ size) :
    0 ≤ resolve dim begin_ size ∧ begin_ + resolve dim begin_ size ≤ dim := by
  obtain ⟨lower, upper, rest | ⟨nat, fits⟩⟩ := window
  · rw [resolve, if_pos rest]
    omega
  · rw [resolve, if_neg (by omega)]
    omega

theorem InWindow.narrowed {dim : Nat} {begin_ size : Int} (window : InWindow dim begin_ size) :
    (if size = -1 then u32 (dim - u32 begin_) else u32 size) = u32 (resolve dim begin_ size) ∧
      windowFits dim (u32 begin_) (u32 (resolve dim begin_ size)) = true := by
  obtain ⟨nat, fits⟩ := window.sizes
  obtain ⟨lower, upper, -⟩ := window
  have offset : (u32 begin_ : Int) ≤ begin_ := by
    rw [u32]
    omega
  have length : (u32 (resolve dim begin_ size) : Int) ≤ resolve dim begin_ size := by
    rw [u32]
    omega
  constructor
  · rw [resolve]
    split
    · simp only [u32]
      omega
    · rfl
  · rw [windowFits]
    split
    · simp only [decide_eq_true_eq]
      omega
    · simp only [decide_eq_true_eq]
      omega

section Shapes

variable {args : Arguments w} (valid : Valid args)

include valid

theorem Valid.length_begin : args.begin_.values.length = args.input.length := by
  rw [args.begin_.sized, valid.beginShape, numElements, prod_singleton]

theorem Valid.length_size : args.size.values.length = args.input.length := by
  rw [args.size.sized, valid.sizeShape, numElements, prod_singleton]

theorem Valid.entry {entry : Nat × Nat} (mem : entry ∈ args.input.zipIdx) :
    inVector args.size.values[entry.2]? = .ok (args.size.values.getD entry.2 0) ∧
      inVector (intTensorToVec args.begin_)[entry.2]? = .ok (u32 (args.begin_.flat entry.2)) ∧
      InWindow entry.1 (args.begin_.flat entry.2) (args.size.flat entry.2) := by
  have got := mem_zipIdx_iff_getElem?.mp mem
  obtain ⟨lt, same⟩ := List.getElem?_eq_some_iff.mp got
  have inBegin : entry.2 < args.begin_.values.length := by rwa [valid.length_begin]
  have inSize : entry.2 < args.size.values.length := by rwa [valid.length_size]
  refine ⟨?_, ?_, ?_⟩
  · rw [getElem?_eq_getElem inSize, getD_eq_getElem _ _ inSize, inVector]
  · rw [intTensorToVec, getElem?_map, getElem?_eq_getElem inBegin, Option.map_some,
      IndexTensor.flat, getD_eq_getElem _ _ inBegin, inVector]
  · rw [← same]
    exact valid.window entry.2 lt

theorem Valid.getSliceSizes_eq : getSliceSizes args.size args.input (intTensorToVec args.begin_) =
      .ok (narrowed args.sizes) := by
  rw [getSliceSizes, narrowed, Arguments.sizes, map_map]
  refine mapM_ok fun entry mem => ?_
  obtain ⟨size, offset, window⟩ := valid.entry mem
  have narrowed := window.narrowed.1
  have whole : ((resolve entry.1 (args.begin_.flat entry.2) (args.size.flat entry.2)).toNat : Int) =
      resolve entry.1 (args.begin_.flat entry.2) (args.size.flat entry.2) :=
    Int.toNat_of_nonneg window.sizes.1
  have value : (args.size.values.getD entry.2 0).toInt = args.size.flat entry.2 := rfl
  rw [Function.comp_apply, whole, ← narrowed]
  simp only [getSliceSize, size, offset, bind, Except.bind, pure, Except.pure, value]
  split
  · rfl
  · rfl

theorem Valid.getOutputShape_eq : getOutputShape args = .ok (narrowed args.sizes) := by
  simp only [getOutputShape, valid.getSliceSizes_eq, bind, Except.bind]
  have eachDim : args.input.zipIdx.mapM
      (outputDim (intTensorToVec args.begin_) (narrowed args.sizes)) =
      .ok (args.input.zipIdx.map fun entry =>
        u32 (resolve entry.1 (args.begin_.flat entry.2) (args.size.flat entry.2)).toNat) := by
    refine mapM_ok fun entry mem => ?_
    obtain ⟨-, offset, window⟩ := valid.entry mem
    have got := mem_zipIdx_iff_getElem?.mp mem
    have size : inVector (narrowed args.sizes)[entry.2]? =
        .ok (u32 (resolve entry.1 (args.begin_.flat entry.2) (args.size.flat entry.2)).toNat) := by
      rw [narrowed, Arguments.sizes, map_map, getElem?_map, getElem?_zipIdx, got]
      simp [inVector]
    have whole : ((resolve entry.1 (args.begin_.flat entry.2)
        (args.size.flat entry.2)).toNat : Int) =
        resolve entry.1 (args.begin_.flat entry.2) (args.size.flat entry.2) :=
      Int.toNat_of_nonneg window.sizes.1
    simp only [outputDim, offset, size, bind, Except.bind, pure, Except.pure, requires, whole,
      window.narrowed.2, if_true]
  rw [eachDim, narrowed, Arguments.sizes, map_map]
  rfl

theorem Valid.fits {d : Nat} (lt : d < args.input.length) :
    args.offsets.getD d 0 + args.sizes.getD d 0 ≤ args.input[d] := by
  have window := valid.window d lt
  obtain ⟨nat, within⟩ := window.sizes
  have lower := window.1
  have offset : args.offsets.getD d 0 = (args.begin_.flat d).toNat := by
    rw [Arguments.offsets, getD_eq_getElem _ _ (by simpa using lt), getElem_map, getElem_range]
  have size : args.sizes.getD d 0 =
      (resolve args.input[d] (args.begin_.flat d) (args.size.flat d)).toNat := by
    rw [Arguments.sizes, getD_eq_getElem _ _ (by simpa using lt), getElem_map,
      getElem_zipIdx, zero_add]
  rw [offset, size]
  omega

theorem Valid.source_mem {index : List Nat} (mem : index ∈ indices args.sizes) :
    zipWith (· + ·) args.offsets index ∈ indices args.input := by
  have length := length_of_mem_indices mem
  rw [args.length_sizes] at length
  refine mem_indices_of_getElem ?_ fun d lt lt' => ?_
  · rw [length_zipWith, args.length_offsets, length, min_self]
  · have fits := valid.fits lt
    have below := getElem_lt_of_mem_indices mem (d := d) (by rwa [args.length_sizes])
      (by rwa [length])
    rw [getD_eq_getElem _ _ (by rwa [args.length_offsets]),
      getD_eq_getElem _ _ (by rwa [args.length_sizes])] at fits
    rw [getElem_zipWith]
    omega

def readWindow {α : Type} (args : Arguments w) (values : List α) : List (Option α) :=
  (indices args.sizes).map fun index =>
    values[address (packedStrides args.input)
      (zipWith (· + ·) args.offsets index)]?

theorem Valid.intTensorToVec_eq (lt : ∀ dim ∈ args.input, dim < 2 ^ 32) :
    intTensorToVec args.begin_ = args.offsets := by
  apply ext_getElem
  · rw [intTensorToVec, length_map, valid.length_begin, args.length_offsets]
  · intro d first snd
    rw [args.length_offsets] at snd
    have inBegin : d < args.begin_.values.length := by rwa [valid.length_begin]
    have dim := lt _ (getElem_mem snd)
    obtain ⟨lower, upper, -⟩ := valid.window d snd
    simp only [intTensorToVec, Arguments.offsets, getElem_map, getElem_range]
    have value : (args.begin_.values[d]).toInt = args.begin_.flat d := by
      rw [IndexTensor.flat, getD_eq_getElem _ _ inBegin]
    rw [value, StridedSlice.u32_of_bounds lower (by omega)]

theorem Valid.describable_sizes (desc : DmlTensorDesc.Describable args.input) :
    DmlTensorDesc.Describable args.sizes where
  rank := by
    rw [args.length_sizes]
    exact desc.rank
  dims := fun size mem => by
    obtain ⟨d, lt, rfl⟩ := getElem_of_mem mem
    have lt' : d < args.input.length := by rwa [← args.length_sizes]
    have fits := valid.fits lt'
    have small := desc.dims _ (getElem_mem lt')
    rw [getD_eq_getElem _ _ lt] at fits
    omega

theorem Valid.execute_eq (desc : DmlTensorDesc.Describable args.input) {α : Type}
    (values : List α) : execute args.input args.sizes args.offsets args.sizes values =
      some (readWindow args values) := by
  have inputDesc := create_self_eq_some.mpr ⟨desc, rfl⟩
  have outputDesc := create_self_eq_some.mpr
    ⟨valid.describable_sizes desc, rfl⟩
  simp only [execute, inputDesc, outputDesc, Option.bind_eq_bind, Option.bind_some]
  split
  case isTrue identity =>
    rw [Bool.and_eq_true, all_eq_true, beq_iff_eq] at identity
    obtain ⟨zeros, same⟩ := identity
    rw [dmlIdentity, indices_leading, map_map, readWindow, same]
    congr 1
    refine map_congr_left fun index mem => ?_
    have still : zipWith (· + ·) args.offsets index = index := by
      have length := length_of_mem_indices mem
      apply ext_getElem
      · rw [length_zipWith, args.length_offsets, length, min_self]
      · intro d lt _
        rw [length_zipWith, Nat.lt_min] at lt
        rw [getElem_zipWith, beq_iff_eq.mp (zeros _ (getElem_mem lt.1)), zero_add]
    rw [Function.comp_apply, address_leading, still]
  case isFalse =>
    rw [args.length_sizes]
    generalize kNchwDimensionCount - args.input.length = padAmount
    have lens : (replicate padAmount 0 ++ args.offsets).length =
        (replicate padAmount 1 ++ args.input).length := by
      simp [args.length_offsets]
    have lens' : (replicate padAmount 1 ++ args.sizes).length =
        (replicate padAmount 1 ++ args.input).length := by
      simp [args.length_sizes]
    have lt : ∀ d < (replicate padAmount 1 ++ args.input).length,
        (replicate padAmount 0 ++ args.offsets).getD d 0 +
          (replicate padAmount 1 ++ args.sizes).getD d 0 ≤
            (replicate padAmount 1 ++ args.input).getD d 0 := by
      intro d below
      rw [length_append, length_replicate] at below
      by_cases leading : d < padAmount
      · rw [getD_append _ _ _ _ (by simpa using leading),
          getD_append _ _ _ _ (by simpa using leading),
          getD_append _ _ _ _ (by simpa using leading), getD_replicate _ leading,
          getD_replicate _ leading]
      · have fits := valid.fits (d := d - padAmount) (by omega)
        rw [getD_append_right _ _ _ _ (by simpa using leading),
          getD_append_right _ _ _ _ (by simpa using leading),
          getD_append_right _ _ _ _ (by simpa using leading), length_replicate, length_replicate,
          getD_eq_getElem args.input _ (by omega)]
        exact fits
    rw [dmlSlice, if_pos ⟨lens, lens', lt⟩, indices_leading, map_map, readWindow]
    congr 1
    refine map_congr_left fun index _ => ?_
    have offset : zipWith (· + ·) (replicate padAmount 0 ++ args.offsets)
        (replicate padAmount 0 ++ index) =
        replicate padAmount 0 ++ zipWith (· + ·) args.offsets index := by
      rw [zipWith_append rfl, zipWith_replicate', add_zero]
    rw [Function.comp_apply, offset, address_leading]

theorem Valid.requires_eq : requires args.begin_.isVector = .ok () ∧
      requires (args.begin_.numElements = args.input.length) = .ok () ∧
      requires args.size.isVector = .ok () ∧
      requires (args.size.numElements = args.input.length) = .ok () := by
  simp [requires, IndexTensor.isVector, IndexTensor.numElements, numElements,
    valid.beginShape, valid.sizeShape]

theorem Valid.compute_eq {α : Type} [Zero α] (values : List α) : compute args values =
      if isNoOpKernel [args.input, args.begin_.shape, args.size.shape]
          [narrowed args.sizes] then
        .finished (narrowed args.sizes, zeroed (narrowed args.sizes))
      else
        match execute args.input (narrowed args.sizes) (intTensorToVec args.begin_)
            (narrowed args.sizes) values with
        | none => .crashed .check
        | some output => .finished (narrowed args.sizes, output) := by
  obtain ⟨beginVector, beginCount, sizeVector, sizeCount⟩ := valid.requires_eq
  simp only [compute, computeOutput, valid.getOutputShape_eq, bind, Except.bind, pure, Except.pure]
  by_cases noOp : isNoOpKernel [args.input, args.begin_.shape, args.size.shape]
      [narrowed args.sizes] = true
  · simp only [noOp, if_true]
  · simp only [noOp, runKernel, beginVector, beginCount, sizeVector, sizeCount, bind, Except.bind,
      valid.getSliceSizes_eq]
    cases execute args.input (narrowed args.sizes) (intTensorToVec args.begin_)
      (narrowed args.sizes) values with
    | none => rfl
    | some output => rfl

end Shapes

theorem narrowed_eq_iff {sizes : TensorShape} :
    narrowed sizes = sizes ↔ ∀ size ∈ sizes, size < 2 ^ 32 := by
  have pointwise : narrowed sizes = sizes ↔ sizes.map (fun (size : Nat) => u32 size) =
      sizes.map id := by rw [map_id, narrowed]
  rw [pointwise, map_inj_left]
  refine forall₂_congr fun size _ => ?_
  rw [StridedSlice.u32_eq_mod, id]
  omega

theorem Valid.noOp_iff {args : Arguments w} (valid : Valid args) (dims : args.input ≠ []) :
    isNoOpKernel [args.input, args.begin_.shape, args.size.shape] [args.sizes] = true ↔
      args.sizes.numElements = 0 := by
  have rank : args.input.length ≠ 0 := by simpa using dims
  rw [isNoOpKernel_iff, valid.beginShape, valid.sizeShape]
  constructor
  · rintro (⟨shape, mem, empty⟩ | ⟨shape, mem, empty⟩)
    · simp only [mem_cons, not_mem_nil, or_false] at mem
      rcases mem with rfl | rfl | rfl
      · -- A size of an empty dimension is zero.
        rw [numElements, prod_eq_zero_iff] at empty
        obtain ⟨d, lt, zero⟩ := getElem_of_mem empty
        have fits := valid.fits lt
        have lt' : d < args.sizes.length := by rwa [args.length_sizes]
        have size : args.sizes[d] = 0 := by
          rw [getD_eq_getElem args.sizes _ lt'] at fits
          omega
        rw [numElements, prod_eq_zero_iff, ← size]
        exact getElem_mem _
      · simp [numElements, rank] at empty
      · simp [numElements, rank] at empty
    · obtain rfl := mem_singleton.mp mem
      exact empty
  · intro empty
    exact Or.inr ⟨_, mem_singleton.mpr rfl, empty⟩

theorem Valid.readWindow_eq_iff {args : Arguments w} (valid : Valid args) :
    (∀ (α : Type) [Zero α] (values : List α), values.length = args.input.numElements →
        readWindow args values = reference args values) ↔ ∀ index ∈ indices args.sizes,
        address (packedStrides args.input)
            (zipWith (· + ·) args.offsets index) =
          flatten args.input (zipWith (· + ·) args.offsets index) := by
  constructor
  · intro same index mem
    have positions := same Nat (range args.input.numElements) length_range
    have entry := map_inj_left.mp positions index mem
    have src := valid.source_mem mem
    rw [numElements, getElem?_range (address_lt src),
      getElem?_range (flatten_lt src), Option.some.injEq] at entry
    exact entry
  · intro same α _ values _
    exact map_congr_left fun index mem => by rw [same index mem]

theorem Valid.computes_iff {args : Arguments w} (valid : Valid args) :
    (∀ (α : Type) [Zero α] (values : List α), values.length = args.input.numElements →
        compute args values = .finished (args.sizes, reference args values)) ↔
      args.input ≠ [] ∧ (∀ size ∈ args.sizes, size < 2 ^ 32) ∧
        (args.sizes.numElements = 0 ∨ DmlTensorDesc.Describable args.input ∧
          ∀ index ∈ indices args.sizes, address (packedStrides args.input)
                (zipWith (· + ·) args.offsets index) =
              flatten args.input (zipWith (· + ·) args.offsets index)) := by
  rw [← valid.readWindow_eq_iff]
  by_cases kept : narrowed args.sizes = args.sizes
  case neg =>
    refine iff_of_false (fun computes => ?_) fun holds => kept (narrowed_eq_iff.mpr holds.2.1)
    have finished := computes Nat (replicate args.input.numElements 0) length_replicate
    rw [valid.compute_eq] at finished
    split at finished
    · exact kept (Prod.mk.inj (Outcome.finished.inj finished)).1
    · split at finished
      · cases finished
      · exact kept (Prod.mk.inj (Outcome.finished.inj finished)).1
  have lt := narrowed_eq_iff.mp kept
  by_cases dims : args.input = []
  · refine iff_of_false (fun computes => ?_) fun holds => holds.1 dims
    have sizes : args.sizes = [] := by
      rw [Arguments.sizes, dims]
      rfl
    have skip : isNoOpKernel [args.input, args.begin_.shape, args.size.shape]
        [narrowed args.sizes] = true := by
      rw [isNoOpKernel_iff, valid.beginShape, dims]
      exact Or.inl ⟨[0], by simp, rfl⟩
    have one := computes Nat [1] (by rw [dims]; rfl)
    rw [valid.compute_eq, if_pos skip, kept, sizes, reference, sizes, dims] at one
    have outs := (Prod.mk.inj (Outcome.finished.inj one)).2
    simp [zeroed, numElements, indices, flatten] at outs
  by_cases empty : args.sizes.numElements = 0
  · refine iff_of_true (fun α _ values _ => ?_) ⟨dims, lt, Or.inl empty⟩
    have none : indices args.sizes = [] := by
      rw [← length_eq_zero_iff, length_indices]
      exact empty
    rw [valid.compute_eq, kept, if_pos ((valid.noOp_iff dims).mpr empty),
      zeroed_of_empty empty, reference, none, map_nil]
  have runs : ¬ isNoOpKernel [args.input, args.begin_.shape, args.size.shape]
      [args.sizes] = true := fun skip => empty ((valid.noOp_iff dims).mp skip)
  by_cases describable : DmlTensorDesc.Describable args.input
  · have execution {α : Type} [Zero α] (values : List α) :
        compute args values = .finished (args.sizes, readWindow args values) := by
      rw [valid.compute_eq, kept, if_neg runs, valid.intTensorToVec_eq describable.dims,
        valid.execute_eq describable]
    simp only [execution, Outcome.finished.injEq, Prod.mk.injEq, true_and]
    exact ⟨fun same => ⟨dims, lt, Or.inr ⟨describable, same⟩⟩,
      fun holds => (holds.2.2.resolve_left empty).2⟩
  · refine iff_of_false (fun computes => ?_) fun holds =>
      describable (holds.2.2.resolve_left empty).1
    have finished := computes Nat (replicate args.input.numElements 0) length_replicate
    have invalid : create args.input args.input = none := by
      rw [Option.eq_none_iff_forall_ne_some]
      intro desc created
      exact describable (create_self_eq_some.mp created).1
    rw [valid.compute_eq, kept, if_neg runs, execute, invalid] at finished
    cases finished

/-- Slice does what it should exactly for valid arguments of which the output is right: others
    end the process, or are taken for valid ones. -/
theorem slices_iff (args : Arguments w) :
    Slices args ↔ Valid args ∧ args.input ≠ [] ∧ (∀ size ∈ args.sizes, size < 2 ^ 32) ∧
      (args.sizes.numElements = 0 ∨ DmlTensorDesc.Describable args.input ∧
        ∀ index ∈ indices args.sizes, address (packedStrides args.input)
              (zipWith (· + ·) args.offsets index) =
            flatten args.input (zipWith (· + ·) args.offsets index)) := by
  constructor
  · intro slices
    have valid : Valid args := by
      by_contra invalid
      obtain ⟨status, err⟩ :=
        (slices Nat (replicate args.input.numElements 0) length_replicate).2 invalid
      exact compute_ne_reported args _ status err
    exact ⟨valid, valid.computes_iff.mp fun α _ values whole => (slices α values whole).1 valid⟩
  · rintro ⟨valid, holds⟩ α _ values whole
    exact ⟨fun _ => valid.computes_iff.mpr holds α values whole, fun invalid =>
      absurd valid invalid⟩

/-- The begin 2 ^ 32 is taken for 0. -/
theorem narrowedBegin_not_slices :
    ¬ Slices (Arguments.mk (w := 64) [2] ⟨[1], [2 ^ 32], rfl⟩ ⟨[1], [1], rfl⟩) := by
  intro slices
  have invalid : ¬ Valid (Arguments.mk (w := 64) [2] ⟨[1], [2 ^ 32], rfl⟩ ⟨[1], [1], rfl⟩) :=
    fun valid => absurd (valid.window 0 (by decide)).2.1 (by decide +kernel)
  obtain ⟨status, err⟩ := (slices Nat [7, 8] rfl).2 invalid
  exact compute_ne_reported _ _ status err

end TfDml.SliceOp
