import TfDml.Kernels.TransposePositions
import Mathlib.Algebra.BigOperators.Ring.Finset

/-! # The simplified transpose is the transpose

The positions that the kernel writes with its merged dimensions are those of the
original dimensions, and these put each element of the input where the reference
reads it.
-/

namespace TfDml.Transpose

open Lib
open List hiding flatten

/-- `out[i] = in[perm⁻¹(i)]` -/
def reference {α : Type} (shape : TensorShape) (perm : List Nat) (input : List α) :
    List (Option α) :=
  (indices (perm.map fun d => shape.getD d 0)).map fun i =>
    input[flatten shape ((range shape.length).map fun d => i.getD (perm.idxOf d) 0)]?

/-- No dimensions that are next to each other in the input are so in the output, in that order. -/
def Minimal (permutations : List Int) : Prop :=
  ∀ (j : Nat) (d : Int), permutations[j]? = some d → permutations[j + 1]? ≠ some (d + 1)

/-- The stride of a dimension: the elements of the dimensions behind it in the output. -/
def outputStride (shape : TensorShape) (perm : List Nat) (d : Nat) : Nat :=
  ((after perm d).map fun e => shape.getD e 0).prod

def dimAxis (shape : TensorShape) (perm : List Nat) (d : Nat) : Axis :=
  ⟨shape.getD d 0, 0, outputStride shape perm d⟩

def runAxis (shape : TensorShape) (perm : List Nat) (r : Nat × Nat) : Axis :=
  ⟨runProd shape r, 0, runStride shape perm r⟩

section Strides

variable {shape : TensorShape} {perm : List Nat}

theorem dimAxes_block {before block behind : List Nat} (split : perm = before ++ block ++ behind)
    (nodup : perm.Nodup) : block.map (dimAxis shape perm) =
      blockAxes (behind.map fun e => shape.getD e 0).prod (block.map fun e => shape.getD e 0) := by
  induction block generalizing before with
  | nil => rfl
  | cons d rest ih =>
    have further : perm = (before ++ [d]) ++ rest ++ behind := by simp [split]
    have here : perm = before ++ d :: (rest ++ behind) := by simp [split]
    have fresh : d ∉ before := by
      rw [here] at nodup
      exact fun earlier => (nodup_append.mp nodup).2.2 d earlier d mem_cons_self rfl
    have stride : outputStride shape perm d = (rest.map fun e => shape.getD e 0).prod *
        (behind.map fun e => shape.getD e 0).prod := by
      rw [outputStride, here, after_eq fresh, map_append, prod_append]
    rw [map_cons, ih further, dimAxis, stride, map_cons, blockAxes]

theorem runAxes_eq (nodup : perm.Nodup) {l : List (Nat × Nat)} (lt : ∀ r ∈ l, r ∈ runs perm) :
    positions (l.map (runAxis shape perm)) =
      positions ((l.flatMap runDims).map (dimAxis shape perm)) := by
  induction l with
  | nil => rfl
  | cons r rest ih =>
    obtain ⟨first, later⟩ := forall_mem_cons.mp lt
    obtain ⟨before, behind, split⟩ := append_of_mem first
    have fresh : r ∉ before := by
      have apart := split ▸ runs_nodup nodup
      exact fun earlier => (nodup_append.mp apart).2.2 r earlier r mem_cons_self rfl
    have splitDims : perm = before.flatMap runDims ++ runDims r ++ behind.flatMap runDims := by
      conv_lhs => rw [← runs_dims perm, split]
      simp
    have stride : runStride shape perm r =
        ((behind.flatMap runDims).map fun e => shape.getD e 0).prod := by
      rw [prod_runs, runStride, split, after_eq fresh]
    rw [flatMap_cons, map_append, dimAxes_block splitDims nodup, positions_blockAxes,
      map_cons, runAxis, stride]
    exact positions_cons_congr _ (ih later)

variable (isPerm : perm.Perm (range shape.length))
include isPerm

theorem positions_sortedRuns : positions ((sortedRuns perm).map (runAxis shape perm)) =
      positions ((range shape.length).map (dimAxis shape perm)) := by
  rw [runAxes_eq (isPerm.nodup_iff.mpr nodup_range)
    fun r mem => (sortedRuns_perm perm).mem_iff.mp mem, sortedRuns_dims isPerm]

end Strides

def permuted (perm index : List Nat) : List Nat := perm.map fun d => index.getD d 0

def unpermuted (n : Nat) (perm index : List Nat) : List Nat :=
  (range n).map fun d => index.getD (perm.idxOf d) 0

section Indices

theorem flatten_permuted (shape : TensorShape) {perm before behind : List Nat}
    (split : perm = before ++ behind) (nodup : perm.Nodup) (index : List Nat) :
    flatten (behind.map fun d => shape.getD d 0) (permuted behind index) =
      (behind.map fun d => index.getD d 0 * outputStride shape perm d).sum := by
  induction behind generalizing before with
  | nil => rfl
  | cons d rest ih =>
    have further : perm = (before ++ [d]) ++ rest := by simp [split]
    have fresh : d ∉ before := by
      rw [split] at nodup
      exact fun earlier => (nodup_append.mp nodup).2.2 d earlier d mem_cons_self rfl
    have stride : outputStride shape perm d = (rest.map fun e => shape.getD e 0).prod := by
      rw [outputStride, split, after_eq fresh]
    have inner := ih further
    rw [permuted] at inner ⊢
    rw [map_cons, map_cons, flatten, inner, map_cons, sum_cons, stride]

variable {shape : TensorShape} {perm : List Nat} (isPerm : perm.Perm (range shape.length))
include isPerm

theorem mem_permuted {index : List Nat} (mem : index ∈ indices shape) :
    permuted perm index ∈ indices (perm.map fun d => shape.getD d 0) := by
  obtain ⟨length, below⟩ := forall₂_iff_get.mp (mem_indices.mp mem)
  rw [mem_indices, permuted, forall₂_map_left_iff, forall₂_map_right_iff, forall₂_same]
  intro d inPerm
  have lt : d < shape.length := mem_range.mp (isPerm.mem_iff.mp inPerm)
  have insideIndex : d < index.length := length ▸ lt
  rw [getD_eq_getElem _ _ lt, getD_eq_getElem _ _ insideIndex]
  exact below d insideIndex lt

theorem mem_unpermuted {index : List Nat}
    (mem : index ∈ indices (perm.map fun d => shape.getD d 0)) :
    unpermuted shape.length perm index ∈ indices shape := by
  obtain ⟨length, below⟩ := forall₂_iff_get.mp (mem_indices.mp mem)
  rw [length_map] at length
  rw [mem_indices]
  conv => arg 3; rw [← map_getD_range shape 0]
  rw [unpermuted, forall₂_map_left_iff, forall₂_map_right_iff, forall₂_same]
  intro d inRange
  have lt : perm.idxOf d < perm.length := idxOf_lt_length_iff.mpr (isPerm.mem_iff.mpr inRange)
  have entry := below (perm.idxOf d) (length ▸ lt) (by rwa [length_map])
  rw [get_eq_getElem, get_eq_getElem, getElem_map, getElem_idxOf] at entry
  rw [getD_eq_getElem _ _ (length ▸ lt)]
  exact entry

theorem permuted_unpermuted {index : List Nat} (length : index.length = perm.length) :
    permuted perm (unpermuted shape.length perm index) = index := by
  apply ext_getElem
  · rw [permuted, length_map, length]
  · intro k lt lt'
    have inPerm : k < perm.length := length ▸ lt'
    have isDim : perm[k] < shape.length := mem_range.mp (isPerm.mem_iff.mp (getElem_mem inPerm))
    have place : perm.idxOf perm[k] = k := (isPerm.nodup_iff.mpr nodup_range).idxOf_getElem k inPerm
    simp [permuted, unpermuted, getD_eq_getElem?_getD, isDim, place, lt']

theorem permuted_inj {index index' : List Nat} (mem : index ∈ indices shape)
    (member' : index' ∈ indices shape) (same : permuted perm index = permuted perm index') :
    index = index' := by
  have length := (mem_indices.mp mem).length_eq
  have length' := (mem_indices.mp member').length_eq
  apply ext_getElem (length.trans length'.symm)
  intro d lt lt'
  have inPerm : d ∈ perm := isPerm.mem_iff.mpr (mem_range.mpr (length ▸ lt))
  have entry := map_inj_left.mp same d inPerm
  rwa [getD_eq_getElem _ _ lt, getD_eq_getElem _ _ lt'] at entry

theorem positions_dimAxes : positions ((range shape.length).map (dimAxis shape perm)) =
      (indices shape).map fun index =>
        (flatten (perm.map fun d => shape.getD d 0) (permuted perm index) : Int) := by
  have axes : (range shape.length).map (dimAxis shape perm) =
      zipWith (fun size step => (⟨size, 0, step⟩ : Axis)) shape
        ((range shape.length).map fun d => (outputStride shape perm d : Int)) := by
    conv_rhs => arg 2; rw [← map_getD_range shape 0]
    rw [zipWith_map, zipWith_self]
    rfl
  rw [axes, positions_eq_offset (by simp)]
  apply map_congr_left
  intro index mem
  have length := (mem_indices.mp mem).length_eq
  have whole : index = (range shape.length).map fun d => index.getD d 0 := by
    rw [← length, map_getD_range index 0]
  have summed := flatten_permuted shape (nil_append perm).symm
    (isPerm.nodup_iff.mpr nodup_range) index
  conv_lhs => rw [whole, offset_map]
  rw [summed, (isPerm.map _).sum_eq, Nat.cast_list_sum, map_map]
  rfl

theorem written_eq_reference {α : Type} {input : List α}
    (length : input.length = shape.numElements) :
    written (positions ((range shape.length).map (dimAxis shape perm))) input =
      reference shape perm input := by
  have outputs : (perm.map fun d => shape.getD d 0).prod = input.length := by
    rw [prod_perm isPerm, length]
  have differ : ((positions ((range shape.length).map (dimAxis shape perm))).map
      Int.toNat).Nodup := by
    rw [positions_dimAxes isPerm, map_map]
    apply (nodup_indices shape).map_on
    intro index mem index' member' same
    exact permuted_inj isPerm mem member'
      (flatten_inj (mem_permuted isPerm mem) (mem_permuted isPerm member')
        (by simpa using same))
  have sameLength : (positions ((range shape.length).map (dimAxis shape perm))).length =
      input.length := by
    rw [positions_dimAxes isPerm, length_map, length_indices, length]
    rfl
  apply ext_getElem?
  intro k
  by_cases inside : k < input.length
  · have isIndex : k < (indices (perm.map fun d => shape.getD d 0)).length := by
      rwa [length_indices, outputs]
    have mem := getElem_mem isIndex
    have isPosition := flatten_getElem_indices isIndex
    generalize (indices (perm.map fun d => shape.getD d 0))[k] = index at mem isPosition
    have entries := (mem_indices.mp mem).length_eq
    rw [length_map] at entries
    have source := getElem?_flatten (mem_unpermuted isPerm mem)
    have sourceInside : flatten shape (unpermuted shape.length perm index) < input.length := by
      rw [length]
      exact flatten_lt (mem_unpermuted isPerm mem)
    have position : (positions ((range shape.length).map (dimAxis shape perm)))[flatten shape
        (unpermuted shape.length perm index)]? = some (k : Int) := by
      rw [positions_dimAxes isPerm, getElem?_map, source, Option.map_some,
        permuted_unpermuted isPerm entries, isPosition]
    have read : (reference shape perm input)[k]? =
        some input[flatten shape (unpermuted shape.length perm index)]? := by
      rw [reference, getElem?_map, ← isPosition, getElem?_flatten mem]
      rfl
    have value := getElem?_eq_getElem sourceInside
    rw [getElem?_written differ sameLength position value inside, read, value]
  · have outside : (reference shape perm input).length = input.length := by
      rw [reference, length_map, length_indices, outputs]
    rw [getElem?_eq_none (by rw [length_written]; omega), getElem?_eq_none (by omega)]

end Indices

theorem runsFrom_apart (a k : Nat) (rest : List Nat) :
    (∃ length later, runsFrom a k rest = (a, length) :: later) ∧
      List.IsChain (fun r s => s.1 ≠ r.1 + r.2 + 1) (runsFrom a k rest) := by
  induction rest generalizing a k with
  | nil => exact ⟨⟨k, [], rfl⟩, .singleton _⟩
  | cons x rest ih =>
    rw [runsFrom]
    by_cases next : x = a + k + 1
    · rw [if_pos next]
      exact ih a (k + 1)
    · rw [if_neg next]
      refine ⟨⟨k, _, rfl⟩, ?_⟩
      obtain ⟨⟨length, later, starts⟩, apart⟩ := ih x 0
      rw [starts] at apart ⊢
      exact .cons_cons next apart

theorem runs_apart (perm : List Nat) :
    List.IsChain (fun r s => s.1 ≠ r.1 + r.2 + 1) (runs perm) := by
  cases perm with
  | nil => exact .nil
  | cons x rest => exact (runsFrom_apart x 0 rest).2

theorem sortedRuns_next {perm : List Nat} {n : Nat} (isPerm : perm.Perm (range n)) {j : Nat}
    {r s : Nat × Nat} (here : (sortedRuns perm)[j]? = some r)
    (next : (sortedRuns perm)[j + 1]? = some s) : s.1 = r.1 + r.2 + 1 := by
  obtain ⟨insideR, rfl⟩ := List.getElem?_eq_some_iff.mp here
  obtain ⟨insideS, rfl⟩ := List.getElem?_eq_some_iff.mp next
  have splitR : sortedRuns perm = (sortedRuns perm).take j ++
      (sortedRuns perm)[j] :: (sortedRuns perm).drop (j + 1) := by
    rw [← drop_eq_getElem_cons insideR, take_append_drop]
  have splitS : sortedRuns perm = (sortedRuns perm).take (j + 1) ++
      (sortedRuns perm)[j + 1] :: (sortedRuns perm).drop (j + 1 + 1) := by
    rw [← drop_eq_getElem_cons insideS, take_append_drop]
  have startR := start_of_split (splitR ▸ sortedRuns_dims isPerm)
  have startS := start_of_split (splitS ▸ sortedRuns_dims isPerm)
  rw [take_succ_eq_append_getElem insideR, flatMap_append, length_append, startR] at startS
  simp only [flatMap_singleton, runDims, length_range'] at startS
  omega

theorem minimal_runs {perm : List Nat} {n : Nat} (isPerm : perm.Perm (range n)) :
    Minimal ((runs perm).map fun r => ((sortedRuns perm).idxOf r : Int)) := by
  intro j d here next
  rw [getElem?_map, Option.map_eq_some_iff] at here next
  obtain ⟨r, hereR, rfl⟩ := here
  obtain ⟨s, nextS, follows⟩ := next
  have placed : ∀ t ∈ runs perm, (sortedRuns perm)[(sortedRuns perm).idxOf t]? = some t :=
    fun t mem => getElem?_idxOf ((sortedRuns_perm perm).mem_iff.mpr mem)
  have placeR := placed r (mem_of_getElem? hereR)
  have placeS := placed s (mem_of_getElem? nextS)
  have place : (sortedRuns perm).idxOf s = (sortedRuns perm).idxOf r + 1 := by omega
  rw [place] at placeS
  obtain ⟨insideR, rfl⟩ := List.getElem?_eq_some_iff.mp hereR
  obtain ⟨insideS, rfl⟩ := List.getElem?_eq_some_iff.mp nextS
  exact isChain_iff_getElem.mp (runs_apart perm) j insideS (sortedRuns_next isPerm placeR placeS)

structure Transposes (shape : TensorShape) (perm : List Nat) (simple : SimpleTranspose) : Prop where
  minimal : Minimal simple.permutations
  elements : ∀ dimensionCount, ∃ axes, simple.axes dimensionCount = .ok axes ∧
    ∀ {α : Type} (input : List α), input.length = shape.numElements →
      written (positions axes) input = reference shape perm input

theorem simplifyTranspose_of_rank {shape : TensorShape} {perm : List Nat} (rank : perm ≠ [])
    (isPerm : perm.Perm (range shape.length)) (some_ : 0 < shape.numElements)
    (lt : shape.numElements < 2 ^ 31) :
    ∃ simple, simplifyTranspose shape (perm.map Int.ofNat) = .ok simple ∧
      Transposes shape perm simple := by
  obtain ⟨sizes, map, merged, length, sized, inverse⟩ := mergeDims_ok rank isPerm
  have products : ∀ r ∈ runs perm, groupSize shape r.1 r.2 = runProd shape r := by
    intro r mem
    obtain ⟨-, le, pos⟩ := runProd_bounds isPerm some_ mem
    exact groupSize_eq (lt_of_le_of_lt le lt) pos
  have kept : ∀ r ∈ runs perm, groupSize shape r.1 r.2 ≠ -1 := by
    intro r mem
    rw [products r mem]
    omega
  have sizesLeft : remaining sizes = (sortedRuns perm).map fun r => (runProd shape r : Int) := by
    rw [remaining_sizes isPerm length sized kept]
    exact map_congr_left fun r mem =>
      products r ((sortedRuns_perm perm).mem_iff.mp mem)
  have permsLeft := remaining_permutations isPerm length sized kept
  refine ⟨_, simplifyTranspose_ok (length ▸ isPerm) merged (length ▸ inverse), ?_, ?_⟩
  · rw [permsLeft]
    exact minimal_runs isPerm
  · intro dimensionCount
    rw [permsLeft, sizesLeft]
    obtain ⟨leadingDims, put⟩ := axes_ok isPerm some_ (by omega) _ dimensionCount
    refine ⟨_, put, fun input isLength => ?_⟩
    have seen := positions_sortedRuns isPerm
    rw [positions_replicate_trivial, ← written_eq_reference isPerm isLength, ← seen]
    rfl

/-- Simplified transposes of inputs that are not empty are the transposes themselves. -/
theorem simplifyTranspose_transposes {shape : TensorShape} {perm : List Nat}
    (isPerm : perm.Perm (range shape.length)) (nonempty : 0 < shape.numElements)
    (small : shape.numElements < 2 ^ 31) :
    ∃ simple, simplifyTranspose shape (perm.map Int.ofNat) = .ok simple ∧
      Transposes shape perm simple := by
  by_cases rank : perm = []
  · -- A scalar is simplified to a vector of one element.
    subst rank
    obtain rfl : shape = [] := by simpa using isPerm.length_eq.symm
    obtain ⟨simple, simplified, minimal, xs⟩ := @simplifyTranspose_of_rank [1] [0]
      (by simp) (.refl _) (by decide) (by decide)
    refine ⟨simple, simplified, minimal, fun dimensionCount => ?_⟩
    obtain ⟨axes, put, same⟩ := xs dimensionCount
    refine ⟨axes, put, fun input isLength => (same input isLength).trans ?_⟩
    simp [reference, indices, flatten]
  · exact simplifyTranspose_of_rank rank isPerm nonempty small

theorem simplifyTranspose_transposes_channels :
    ∃ simple, simplifyTranspose [2, 3, 4, 5] [0, 2, 3, 1] = .ok simple ∧
      Transposes [2, 3, 4, 5] [0, 2, 3, 1] simple :=
  @simplifyTranspose_transposes [2, 3, 4, 5] [0, 2, 3, 1] (by decide) (by decide) (by decide)

example : simplifyTranspose [2, 3, 4, 5] [0, 2, 3, 1] = .ok ⟨[2, 3, 20], [2, 20, 3], [0, 2, 1]⟩ := by
  decide

/-- Without elements, sizes that are multiplied as `int`s can become the marker. -/
theorem emptyInput_notMinimal : [1, 2, 0, 3].Perm (range 4) ∧
      simplifyTranspose [0, 3, 1431655765, 5] [1, 2, 0, 3] = .ok ⟨[0, 5], [0, 5], [0, 1]⟩ ∧
      ¬ Minimal [0, 1] := by
  refine ⟨by decide, by decide, fun minimal => ?_⟩
  exact minimal 0 0 rfl rfl

end TfDml.Transpose
