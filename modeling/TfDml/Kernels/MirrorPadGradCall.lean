import TfDml.Kernels.MirrorPadGradAdjoint
import Mathlib.Algebra.Ring.ULift

/-! # Accepted invocations of MirrorPadGrad

An accepted invocation has the dimensions that its paddings describe unless the sum of two
paddings overflows. It computes the adjoint of MirrorPad unless the wrapper skips its kernel.
-/

namespace TfDml.MirrorPadGrad

open Lib List
open GatherNd (IndexType)
open ScatterNd (indexWidth)
open StridedSlice (IndexTensor)
open TensorShape NoOpKernel

universe u

section Helper

variable {w : Nat}

def outPadDim (input : TensorShape) (paddings : IndexTensor w) (d : Nat) : PadDim :=
  ⟨(outSize w (input.getD d 0) (Pad.before paddings d) (Pad.after paddings d)).toNat,
    (Pad.before paddings d).toNat, (Pad.after paddings d).toNat⟩

structure CheckedDim (mode : MirrorPadMode) (input : TensorShape) (paddings : IndexTensor w)
    (d : Nat) : Prop where
  before : 0 ≤ Pad.before paddings d
  after : 0 ≤ Pad.after paddings d
  out : 0 ≤ outSize w (input.getD d 0) (Pad.before paddings d) (Pad.after paddings d)
  fits : (outPadDim input paddings d).Fits mode.padding

variable {input : TensorShape} {paddings : IndexTensor w}

theorem outDim_ok {mode : MirrorPadMode} {d n : Nat} (ok : outDim mode input paddings d = .ok n) :
    CheckedDim mode input paddings d ∧ n = (outPadDim input paddings d).size := by
  simp only [outDim, bind_eq_ok, opRequires_eq_ok, exists_const, Bool.and_eq_true,
    decide_eq_true_eq, Except.ok.injEq] at ok
  obtain ⟨⟨pre, after⟩, _, checked, rfl⟩ := ok
  refine ⟨?_, rfl⟩
  cases mode with
  | reflect =>
    simp only [checkMode, opRequires_eq_ok, Bool.and_eq_true, decide_eq_true_eq] at checked
    refine ⟨pre, after, by omega, ?_⟩
    simp only [outPadDim, PadDim.Fits, MirrorPadMode.padding]
    omega
  | symmetric =>
    simp only [checkMode, opRequires_eq_ok, Bool.and_eq_true, decide_eq_true_eq] at checked
    refine ⟨pre, after, by omega, ?_⟩
    simp only [outPadDim, PadDim.Fits, MirrorPadMode.padding]
    omega

structure Checked (mode : MirrorPadMode) (input : TensorShape) (paddings : IndexTensor w)
    (init : Init) : Prop where
  paddingsShape : paddings.shape = [input.length, 2]
  dims : ∀ d < input.length, CheckedDim mode input paddings d
  outputShape : init.outputShape =
    ((range input.length).map (outPadDim input paddings)).map PadDim.size
  isIdentity : init.isIdentity = (init.outputShape == input)

theorem initHelper_ok {mode : MirrorPadMode} {init : Init}
    (ok : initHelper mode input paddings = .ok init) : Checked mode input paddings init := by
  simp only [initHelper, bind_eq_ok, opRequires_eq_ok, exists_const, Bool.and_eq_true,
    beq_iff_eq, decide_eq_true_eq] at ok
  obtain ⟨-, -, ⟨rank, cols⟩, rows, shape, mapped, made⟩ := ok
  obtain rfl := Except.ok.inj made
  have each := forall₂_of_mapM_ok mapped
  have length := each.length_eq
  rw [length_range] at length
  have at_ : ∀ d (_ : d < input.length) (lt' : d < shape.length),
      CheckedDim mode input paddings d ∧ shape[d] = (outPadDim input paddings d).size := by
    intro d lt lt'
    have got := each.get (i := d) (by rwa [length_range]) (by omega)
    simp only [get_eq_getElem, getElem_range] at got
    exact outDim_ok got
  refine ⟨?_, fun d lt => (at_ d lt (by omega)).1, ?_, rfl⟩
  · obtain ⟨a, b, same⟩ := length_eq_two.mp rank
    rw [same] at rows cols ⊢
    simp only [getD_cons_zero, getD_cons_succ] at rows cols
    rw [rows, cols]
  · apply ext_getElem
    · simp [length]
    · intro d lt _
      have lt : d < shape.length := lt
      simp only [getElem_map, getElem_range]
      exact (at_ d (by omega) lt).2

theorem total_eq_iff {index : IndexType} {dimSize : Nat} (lt : dimSize < 2 ^ 63)
    {pre after : Int} (nat : 0 ≤ pre) (nat' : 0 ≤ after)
    (below : pre < 2 ^ (indexWidth index - 1)) (below' : after < 2 ^ (indexWidth index - 1))
    (out : 0 ≤ outSize (indexWidth index) dimSize pre after) :
    pre.toNat + (outSize (indexWidth index) dimSize pre after).toNat + after.toNat =
      dimSize ↔ pre + after < 2 ^ (indexWidth index - 1) := by
  cases index with
  | int32 =>
    simp only [outSize, indexWidth, Int.bmod] at out below below' ⊢
    split_ifs at out ⊢ <;> omega
  | int64 =>
    simp only [outSize, indexWidth, Int.bmod] at out below below' ⊢
    split_ifs at out ⊢ <;> omega

end Helper

/-- An accepted invocation. The sizes are `int64_t`, and `NarrowTensorShape` lets a tensor
    with elements through. -/
structure GradCall where
  mode : MirrorPadMode
  index : IndexType
  input : TensorShape
  paddings : IndexTensor (indexWidth index)
  init : Init
  accepted : initHelper mode input paddings = .ok init
  sized : ∀ dim ∈ input, dim < 2 ^ 63
  narrow : input.numElements ≠ 0 → ∀ dim ∈ input, dim < 2 ^ 32

def mirrorPad {R : Type*} [Zero R] (mode : MirrorPadMode) (dims : List PadDim) (x : List Nat → R)
    (index : List Nat) : R :=
  (sourceIndex mode.padding dims index).elim 0 x

namespace GradCall

variable (c : GradCall)

def dims : List PadDim := (range c.input.length).map (outPadDim c.input c.paddings)

/-- The output is what the sums over the mirrored positions are, of a tensor that MirrorPad may
    have padded, and no size was negative on the way. -/
structure Adjoint {R : Type u} [CommRing R] (dy : List Nat → R) (out : Folding R) : Prop where
  shape : c.dims.map PadDim.total = c.input
  sizes : out.result.sizes = c.init.outputShape
  used : ∀ n ∈ out.used, 0 ≤ n
  entry : ∀ index ∈ indices c.init.outputShape, out.result.entry index =
    pushforward (indexSet c.input) (sourceIndex c.mode.padding c.dims) dy (some index)
  adjoint : ∀ x : List Nat → R, ∑ p ∈ indexSet c.input, mirrorPad c.mode c.dims x p * dy p =
      ∑ i ∈ indexSet c.init.outputShape, x i * out.result.entry i

def IsAdjoint : Prop :=
  ∀ (R : Type u) [CommRing R] (dy : List Nat → R),
    ∃ out, compute c.mode c.input c.paddings c.init dy = some out ∧ c.Adjoint dy out

def NoOverflow : Prop :=
  ∀ d < c.input.length,
    Pad.before c.paddings d + Pad.after c.paddings d < 2 ^ (indexWidth c.index - 1)

theorem checked : Checked c.mode c.input c.paddings c.init := initHelper_ok c.accepted

theorem outputShape_eq : c.init.outputShape = c.dims.map PadDim.size := c.checked.outputShape

theorem fits {d : PadDim} (mem : d ∈ c.dims) : d.Fits c.mode.padding := by
  obtain ⟨n, lt, rfl⟩ := mem_map.mp mem
  exact (c.checked.dims n (mem_range.mp lt)).fits

theorem totals_eq_iff : c.dims.map PadDim.total = c.input ↔ c.NoOverflow := by
  have xs : c.dims.map PadDim.total = c.input ↔
      ∀ d < c.input.length, (outPadDim c.input c.paddings d).total = c.input.getD d 0 := by
    constructor
    · intro same d lt
      have at_ := congrArg (·.getD d 0) same
      simpa [dims, getD_eq_getElem?_getD, lt] using at_
    · intro each
      apply ext_getElem
      · simp [dims]
      · intro d _ lt
        have at_ := each d lt
        rw [getD_eq_getElem _ _ lt] at at_
        simpa [dims] using at_
  rw [xs, NoOverflow]
  refine forall₂_congr fun d lt => ?_
  have got := c.checked.dims d lt
  have small : c.input.getD d 0 < 2 ^ 63 := by
    rw [getD_eq_getElem _ _ lt]
    exact c.sized _ (getElem_mem lt)
  exact total_eq_iff small got.before got.after BitVec.toInt_lt BitVec.toInt_lt got.out

end GradCall

section Leading

variable {R : Type u} [CommRing R] {mode : MirrorPadMode}

variable {index : List Nat}

theorem mem_indices_replicate_one {count : Nat} {sizes : List Nat} :
    index ∈ indices (replicate count 1 ++ sizes) ↔
      ∃ inner ∈ indices sizes, index = replicate count 0 ++ inner := by
  induction count generalizing index with
  | zero => simp
  | succ count ih =>
    rw [replicate_succ, cons_append, mem_indices_cons]
    constructor
    · rintro ⟨k, less, inner, got, rfl⟩
      obtain ⟨rest, mem, rfl⟩ := ih.mp got
      obtain rfl : k = 0 := by omega
      exact ⟨rest, mem, rfl⟩
    · rintro ⟨rest, mem, rfl⟩
      exact ⟨0, one_pos, _, ih.mpr ⟨rest, mem, rfl⟩, rfl⟩

theorem sourceIndex_eq {dims : List PadDim} (length : index.length = dims.length) :
    sourceIndex mode.padding dims index = some (mirrorBelow mode dims dims.length index) := by
  induction dims generalizing index with
  | nil =>
    obtain rfl := length_eq_zero_iff.mp length
    rfl
  | cons d rest ih =>
    cases index with
    | nil => simp at length
    | cons o index =>
      rw [sourceIndex, source_eq_mirror, ih (Nat.succ.inj length)]
      rfl

theorem mirrorBelow_leading {dims : List PadDim} (count : Nat) :
    mirrorBelow mode (replicate count ⟨1, 0, 0⟩ ++ dims)
        (replicate count (⟨1, 0, 0⟩ : PadDim) ++ dims).length
        (replicate count 0 ++ index) =
      replicate count 0 ++ mirrorBelow mode dims dims.length index := by
  induction count with
  | zero => rfl
  | succ count ih =>
    have first : mirror mode ⟨1, 0, 0⟩ 0 = 0 := mirror_of_unpadded ⟨rfl, rfl⟩ one_pos
    have unfolded : mirrorBelow mode (replicate (count + 1) ⟨1, 0, 0⟩ ++ dims)
        (replicate (count + 1) (⟨1, 0, 0⟩ : PadDim) ++ dims).length
        (replicate (count + 1) 0 ++ index) =
      mirror mode ⟨1, 0, 0⟩ 0 :: mirrorBelow mode (replicate count ⟨1, 0, 0⟩ ++ dims)
        (replicate count (⟨1, 0, 0⟩ : PadDim) ++ dims).length
        (replicate count 0 ++ index) := rfl
    rw [unfolded, ih, first]
    rfl

theorem pushforward_leading {dims : List PadDim} (count : Nat) (v : List Nat → R)
    (index : List Nat) :
    pushforward (indexSet ((replicate count (⟨1, 0, 0⟩ : PadDim) ++ dims).map PadDim.total))
        (mirrorBelow mode (replicate count ⟨1, 0, 0⟩ ++ dims)
          (replicate count (⟨1, 0, 0⟩ : PadDim) ++ dims).length)
        (fun p => v (p.drop count)) (replicate count 0 ++ index) =
      pushforward (indexSet (dims.map PadDim.total)) (sourceIndex mode.padding dims) v
        (some index) := by
  have totals : (replicate count (⟨1, 0, 0⟩ : PadDim) ++ dims).map PadDim.total =
      replicate count 1 ++ dims.map PadDim.total := by
    rw [map_append, map_replicate]
    rfl
  have dropped : ∀ p : List Nat, (replicate count 0 ++ p).drop count = p := by
    intro p
    have drops := @List.drop_left _ (replicate count 0) p
    rwa [length_replicate] at drops
  have src : ∀ p ∈ indices (dims.map PadDim.total), sourceIndex mode.padding dims p =
      some (mirrorBelow mode dims dims.length p) := fun p got =>
    sourceIndex_eq (by rw [length_of_mem_indices got, length_map])
  rw [totals, pushforward, pushforward]
  refine Finset.sum_bij' (fun p _ => p.drop count) (fun p _ => replicate count 0 ++ p)
    ?_ ?_ ?_ ?_ ?_
  · intro p moved
    obtain ⟨mem, same⟩ := Finset.mem_filter.mp moved
    obtain ⟨inner, got, rfl⟩ := mem_indices_replicate_one.mp (mem_indexSet.mp mem)
    rw [mirrorBelow_leading, append_cancel_left_eq] at same
    rw [dropped, Finset.mem_filter, mem_indexSet, src inner got, same]
    exact ⟨got, rfl⟩
  · intro p moved
    obtain ⟨mem, same⟩ := Finset.mem_filter.mp moved
    have got := mem_indexSet.mp mem
    rw [src p got, Option.some.injEq] at same
    rw [Finset.mem_filter, mem_indexSet, mirrorBelow_leading, same]
    exact ⟨mem_indices_replicate_one.mpr ⟨p, got, rfl⟩, rfl⟩
  · intro p moved
    obtain ⟨mem, -⟩ := Finset.mem_filter.mp moved
    obtain ⟨inner, -, rfl⟩ := mem_indices_replicate_one.mp (mem_indexSet.mp mem)
    rw [dropped]
  · intro p _
    exact dropped p
  · intro p _
    rfl

end Leading

namespace GradCall

variable (c : GradCall) {R : Type u} [CommRing R] {dy : List Nat → R}

theorem mirrorBelow_dims_mem {p : List Nat} (mem : p ∈ indices (c.dims.map PadDim.total)) :
    mirrorBelow c.mode c.dims c.dims.length p ∈ indices c.init.outputShape := by
  have lands := mirrorBelow_mem (fun d => c.fits) (le_refl c.dims.length) mem
  rwa [sizesBelow, take_length, drop_length, map_nil, append_nil, ← outputShape_eq] at lands

theorem adjoint_of_entry {out : Folding R} (shape : c.dims.map PadDim.total = c.input)
    (sizes : out.result.sizes = c.init.outputShape) (used : ∀ n ∈ out.used, 0 ≤ n)
    (entry : ∀ index ∈ indices c.init.outputShape, out.result.entry index =
      pushforward (indexSet c.input) (sourceIndex c.mode.padding c.dims) dy (some index)) :
    c.Adjoint dy out := by
  refine ⟨shape, sizes, used, entry, fun x => ?_⟩
  have src : ∀ p ∈ indexSet c.input, sourceIndex c.mode.padding c.dims p =
      some (mirrorBelow c.mode c.dims c.dims.length p) := by
    intro p mem
    rw [← shape] at mem
    have length := length_of_mem_indices (mem_indexSet.mp mem)
    rw [length_map] at length
    exact sourceIndex_eq length
  have lands : ∀ p ∈ indexSet c.input,
      mirrorBelow c.mode c.dims c.dims.length p ∈ indexSet c.init.outputShape := by
    intro p mem
    rw [← shape] at mem
    exact mem_indexSet.mpr (c.mirrorBelow_dims_mem (mem_indexSet.mp mem))
  have read : ∀ p ∈ indexSet c.input, mirrorPad c.mode c.dims x p * dy p =
      x (mirrorBelow c.mode c.dims c.dims.length p) * dy p := by
    intro p mem
    rw [mirrorPad, src p mem, Option.elim_some]
  have moved : ∀ i ∈ indexSet c.init.outputShape, x i * out.result.entry i =
      x i * pushforward (indexSet c.input) (mirrorBelow c.mode c.dims c.dims.length) dy i := by
    intro i mem
    rw [entry i (mem_indexSet.mp mem), pushforward, pushforward, Finset.sum_filter,
      Finset.sum_filter]
    congr 1
    refine Finset.sum_congr rfl fun p lt => ?_
    rw [src p lt]
    simp only [Option.some.injEq]
  rw [Finset.sum_congr rfl read, Finset.sum_congr rfl moved, sum_mul_pushforward x dy lands]

theorem adjoint_of_empty (shape : c.dims.map PadDim.total = c.input)
    (empty : c.init.outputShape.numElements = 0) :
    c.Adjoint dy ⟨.const c.init.outputShape 0, []⟩ := by
  refine c.adjoint_of_entry shape rfl (by simp) fun index mem => ?_
  have none := flatten_lt mem
  exact absurd none (by rw [← numElements, empty]; exact Nat.not_lt_zero _)

theorem numElements_eq_zero_iff (shape : c.dims.map PadDim.total = c.input) :
    c.init.outputShape.numElements = 0 ↔ c.input.numElements = 0 := by
  have each : ∀ d ∈ c.dims, d.size = 0 ↔ d.total = 0 := by
    intro d mem
    have enough := c.fits mem
    rw [PadDim.total]
    constructor
    · intro none
      cases isMode : c.mode with
      | reflect =>
        rw [isMode] at enough
        exact absurd enough.1 (by omega)
      | symmetric =>
        rw [isMode] at enough
        have pre := enough.1
        have after := enough.2
        omega
    · omega
  rw [numElements, numElements, ← shape, c.outputShape_eq, prod_eq_zero_iff, prod_eq_zero_iff]
  simp only [mem_map]
  constructor
  · rintro ⟨d, mem, none⟩
    exact ⟨d, mem, (each d mem).mp none⟩
  · rintro ⟨d, mem, none⟩
    exact ⟨d, mem, (each d mem).mpr none⟩

theorem adjoint_of_identity (shape : c.dims.map PadDim.total = c.input)
    (identity : c.init.isIdentity = true) : c.Adjoint dy ⟨⟨c.input, dy⟩, []⟩ := by
  rw [c.checked.isIdentity, beq_iff_eq] at identity
  refine c.adjoint_of_entry shape identity.symm (by simp) fun index mem => ?_
  rw [identity] at mem
  have same : c.dims.map PadDim.total = c.dims.map PadDim.size := by
    rw [shape, ← identity, c.outputShape_eq]
  have unpadded : c.dims = c.input.map (PadDim.mk · 0 0) := by
    rw [← shape, same, map_map]
    refine (map_id _).symm.trans (map_congr_left fun d mem => ?_)
    have eq : d.total = d.size := map_inj_left.mp same d mem
    rw [PadDim.total] at eq
    have pre : d.before = 0 := by omega
    have after : d.after = 0 := by omega
    exact congrArg₂ (PadDim.mk d.size) pre after
  refine (pushforward_id (v := dy) (mem_indexSet.mpr mem)).symm.trans ?_
  rw [pushforward, pushforward, Finset.sum_filter, Finset.sum_filter]
  refine Finset.sum_congr rfl fun p lt => ?_
  rw [unpadded, NdArray.sourceIndex_unpadded (mem_indexSet.mp lt)]
  simp only [id_eq, Option.some.injEq]

theorem kernel_spec (shape : c.dims.map PadDim.total = c.input)
    (small : ∀ dim ∈ c.input, dim < 2 ^ 32) (dy : List Nat → R) :
    ∃ out, kernel c.mode c.paddings c.init ⟨c.input, dy⟩ = some out ∧ c.Adjoint dy out := by
  rw [kernel]
  by_cases identity : c.init.isIdentity = true
  · rw [if_pos identity]
    exact ⟨_, rfl, c.adjoint_of_identity shape identity⟩
  rw [if_neg identity]
  set start := padDimStart c.input.length with isStart
  set dims := replicate start (⟨1, 0, 0⟩ : PadDim) ++ c.dims with isDims
  have totals : (inflate start (⟨c.input, dy⟩ : NdArray R)).sizes = dims.map PadDim.total := by
    rw [isDims, map_append, shape, map_replicate]
    rfl
  have length : (inflate start (⟨c.input, dy⟩ : NdArray R)).sizes.length = dims.length := by
    rw [totals, length_map]
  have fits : ∀ d ∈ dims, d.Fits c.mode.padding := by
    intro d mem
    cases mem_append.mp mem with
    | inl leading =>
      rw [eq_of_mem_replicate leading]
      cases c.mode with
      | reflect => exact ⟨one_pos, one_pos⟩
      | symmetric => exact ⟨Nat.zero_le _, Nat.zero_le _⟩
    | inr own => exact c.fits own
  have narrow : ∀ d ∈ dims, d.total < 2 ^ 32 := by
    intro d mem
    cases mem_append.mp mem with
    | inl leading =>
      rw [eq_of_mem_replicate leading]
      decide
    | inr own =>
      refine small _ ?_
      rw [← shape]
      exact mem_map_of_mem own
  have paddings : ∀ n (lt : n < dims.length), padding c.paddings start n .before = dims[n].before ∧
        padding c.paddings start n .after = dims[n].after := by
    intro n lt
    by_cases leading : n < start
    · have here : dims[n] = ⟨1, 0, 0⟩ := by
        simp only [isDims]
        rw [getElem_append_left (by rwa [length_replicate]), getElem_replicate]
      simp only [padding, if_pos leading, here]
      exact ⟨rfl, rfl⟩
    · have onDims : n - start < c.input.length := by
        rw [isDims, length_append, length_replicate, GradCall.dims, length_map, length_range] at lt
        omega
      have here : dims[n] = outPadDim c.input c.paddings (n - start) := by
        simp only [isDims]
        rw [getElem_append_right (by rw [length_replicate]; omega)]
        simp only [length_replicate, GradCall.dims, getElem_map, getElem_range]
      have nat := c.checked.dims _ onDims
      simp only [padding, if_neg leading, here, outPadDim]
      exact ⟨(Int.toNat_of_nonneg nat.before).symm, (Int.toNat_of_nonneg nat.after).symm⟩
  obtain ⟨folded, looped, holds⟩ := foldAxes_spec fits narrow paddings totals (le_refl _)
  have sizes := holds.sizes
  have left : sizesBelow dims dims.length = replicate start 1 ++ c.init.outputShape := by
    rw [sizesBelow, take_length, drop_length, map_nil, append_nil, isDims,
      map_append, map_replicate, c.outputShape_eq]
  rw [left] at sizes
  refine ⟨⟨⟨c.init.outputShape, fun index =>
    folded.result.entry (replicate start 0 ++ index)⟩, folded.used⟩, ?_, ?_⟩
  · simp only [length, looped, Option.bind_eq_bind, Option.bind_some, sizes, if_true]
  · refine c.adjoint_of_entry shape rfl holds.used fun index mem => ?_
    have inBounds : replicate start 0 ++ index ∈ indices (sizesBelow dims dims.length) := by
      rw [left]
      exact mem_indices_replicate_one.mpr ⟨index, mem, rfl⟩
    rw [← shape, ← pushforward_leading start dy index]
    exact holds.entry _ inBounds

theorem isAdjoint_of_noOverflow (some_ : c.input ≠ []) (noOverflow : c.NoOverflow) :
    IsAdjoint.{u} c := by
  intro R _ dy
  have shape := c.totals_eq_iff.mpr noOverflow
  rw [compute]
  by_cases noOp : isNoOpKernel [c.input, c.paddings.shape] [c.init.outputShape] = true
  · rw [if_pos noOp]
    refine ⟨_, rfl, c.adjoint_of_empty shape ?_⟩
    simp only [isNoOpKernel_iff, mem_cons, not_mem_nil, or_false,
      exists_eq_or_imp, exists_eq_left, c.checked.paddingsShape] at noOp
    rcases noOp with (emptyInput | emptyPaddings) | emptyOutput
    · exact (c.numElements_eq_zero_iff shape).mpr emptyInput
    · simp [numElements, some_] at emptyPaddings
    · exact emptyOutput
  · rw [if_neg noOp]
    simp only [isNoOpKernel_iff, mem_cons, not_mem_nil, or_false,
      exists_eq_or_imp, exists_eq_left, not_or] at noOp
    have small := c.narrow noOp.1.1
    have smallOut : ∀ dim ∈ c.init.outputShape, dim < 2 ^ 32 := by
      intro dim mem
      rw [c.outputShape_eq] at mem
      obtain ⟨d, lt, rfl⟩ := mem_map.mp mem
      have total : d.total < 2 ^ 32 := by
        refine small _ ?_
        rw [← shape]
        exact mem_map_of_mem lt
      rw [PadDim.total] at total
      omega
    rw [DmlTensorDesc.narrowTensorShape_eq_some.mpr ⟨small, rfl⟩, Option.bind_some,
      DmlTensorDesc.narrowTensorShape_eq_some.mpr ⟨smallOut, rfl⟩, Option.bind_some]
    exact c.kernel_spec shape small dy

theorem noOverflow_of_isAdjoint (adjoint : IsAdjoint.{u} c) : c.NoOverflow := by
  obtain ⟨out, -, holds⟩ := adjoint (ULift ℤ) fun _ => 0
  exact c.totals_eq_iff.mp holds.shape

theorem nonempty_of_isAdjoint (adjoint : IsAdjoint.{u} c) : c.input ≠ [] := by
  intro scalar
  obtain ⟨out, eq, holds⟩ := adjoint (ULift ℤ) fun _ => 1
  have paddings : c.paddings.shape.numElements = 0 := by
    rw [c.checked.paddingsShape, scalar]
    rfl
  have dims : c.dims = [] := by rw [dims, scalar]; rfl
  have output : c.init.outputShape = [] := by rw [c.outputShape_eq, dims]; rfl
  have noOp : isNoOpKernel [c.input, c.paddings.shape] [c.init.outputShape] = true :=
    isNoOpKernel_iff.mpr (.inl ⟨_, by simp, paddings⟩)
  rw [compute, if_pos noOp, Option.some.injEq] at eq
  have entry := holds.entry [] (by rw [output]; exact mem_singleton_self [])
  subst eq
  rw [scalar, dims] at entry
  have one : pushforward (indexSet []) (sourceIndex c.mode.padding []) (fun _ => (1 : ULift ℤ))
      (some []) = 1 := Finset.sum_singleton _ _
  rw [one] at entry
  exact absurd entry (by simp [NdArray.const])

/-- Paddings whose sum is negative, which pass the checks for a single element. -/
def badShapeSize : GradCall where
  mode := .reflect
  index := .int32
  input := [1]
  paddings := ⟨[1, 2], [0x77f00000, 0xa000000], rfl⟩
  init := ⟨[2114977793], false⟩
  accepted := rfl
  sized := by decide
  narrow := fun _ => by decide

end GradCall

end TfDml.MirrorPadGrad
