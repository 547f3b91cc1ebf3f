import TfDml.Kernels.Transpose
import TfDml.Lib.MultiIndex
import Mathlib.Data.List.Sort

/-! # What a simplified transpose writes

The kernel reads the input with its merged dimensions from the first element to the
last, and writes each element to a position that it computes with the strides of the
merged output. Its merged dimensions are the runs of the permutation, in the order of
the input.
-/

namespace TfDml.Transpose

open Lib List

/-- The loop of `ComputeStrides`, from the last entry of the permutation to the first. -/
def strideLoop (inputShape : List Int) (leadingDims : Nat) (outputStrides : List Nat) :
    List Int → Except Fatal (List Nat × Nat)
  | [] => .ok (outputStrides, 1)
  | inputDimIndex :: rest => do
    let (strides, stride) ← strideLoop inputShape leadingDims outputStrides rest
    let strides ← write strides (leadingDims + inputDimIndex) stride
    let size ← read inputShape inputDimIndex
    .ok (strides, StridedSlice.u32 (stride * size))

def computeStrides (inputShape permutations : List Int) (expectedDimCount : Nat) :
    Except Fatal (List Nat) := do
  let leadingDims := expectedDimCount - permutations.length
  let (strides, _) ← strideLoop inputShape leadingDims
    (replicate (leadingDims + permutations.length) 1) permutations
  .ok strides

/-- What `Identity` writes: the sizes of the packed input, with leading dimensions of size one,
    and the strides of the output. -/
def SimpleTranspose.axes (simple : SimpleTranspose) (dimensionCount : Nat) :
    Except Fatal (List Axis) := do
  let strides ← computeStrides simple.inputShape simple.permutations dimensionCount
  .ok (zipWith (fun (size stride : Nat) => (⟨size, 0, stride⟩ : Axis))
    (replicate (dimensionCount - simple.permutations.length) 1 ++
      simple.inputShape.map Int.toNat) strides)

def after [DecidableEq α] (l : List α) (x : α) : List α := l.drop (l.idxOf x + 1)

theorem after_eq [DecidableEq α] {first rest : List α} {x : α} (fresh : x ∉ first) :
    after (first ++ x :: rest) x = rest := by
  have length : (first ++ [x]).length = first.length + 1 := by simp
  have split : first ++ x :: rest = (first ++ [x]) ++ rest := by simp
  rw [after, idxOf_append_of_notMem fresh, idxOf_cons_self, add_zero, split, ← length, drop_left]

def sortedRuns (perm : List Nat) : List (Nat × Nat) := (runs perm).mergeSort fun r s => r.1 ≤ s.1

theorem runs_nodup {perm : List Nat} (nodup : perm.Nodup) : (runs perm).Nodup := by
  rw [← runs_dims perm, nodup_flatMap] at nodup
  refine nodup.2.imp ?_
  rintro r s apart rfl
  exact apart (a := r.1) (by simp [runDims]) (by simp [runDims])

theorem sortedRuns_perm (perm : List Nat) : (sortedRuns perm).Perm (runs perm) := mergeSort_perm _ _

theorem sortedRuns_dims {perm : List Nat} {n : Nat} (isPerm : perm.Perm (range n)) :
    (sortedRuns perm).flatMap runDims = range n := by
  have same : ((sortedRuns perm).flatMap runDims).Perm (range n) := by
    have unsorted := (sortedRuns_perm perm).flatMap_right runDims
    rw [runs_dims] at unsorted
    exact unsorted.trans isPerm
  have apart := (pairwise_flatMap.mp (same.nodup_iff.mpr nodup_range)).2
  have sorted : (sortedRuns perm).Pairwise fun r s => r.1 ≤ s.1 := by
    refine (pairwise_mergeSort ?_ ?_ (runs perm)).imp of_decide_eq_true
    · intro r s t first snd
      simp only [decide_eq_true_eq] at first snd ⊢
      omega
    · intro r s
      simp only [Bool.or_eq_true, decide_eq_true_eq]
      omega
  have increasing : ((sortedRuns perm).flatMap runDims).Pairwise (· < ·) := by
    refine pairwise_flatMap.mpr ⟨fun r _ => pairwise_lt_range' 1, ?_⟩
    refine (sorted.and apart).imp ?_
    rintro r s ⟨le, apart⟩ x mem y member'
    have disjoint : ¬ (r.1 ≤ s.1 ∧ s.1 < r.1 + (r.2 + 1)) := fun lt =>
      apart s.1 (mem_range'_1.mpr lt) s.1 (mem_range'_1.mpr (by omega)) rfl
    have bounds := mem_range'_1.mp mem
    have bounds' := mem_range'_1.mp member'
    omega
  exact same.eq_of_pairwise (fun x y _ _ less greater => absurd greater (Nat.lt_asymm less))
    increasing pairwise_lt_range

theorem start_of_split {n : Nat} {first rest : List (Nat × Nat)} {r : Nat × Nat}
    (dims : (first ++ r :: rest).flatMap runDims = range n) :
    (first.flatMap runDims).length = r.1 := by
  rw [flatMap_append, flatMap_cons] at dims
  have at_ := congrArg (fun l => l[(first.flatMap runDims).length]?) dims
  have lt : (first.flatMap runDims).length < n := by
    have lens := congrArg List.length dims
    simp only [length_append, length_range, runDims, length_range'] at lens
    simp only [runDims] at *
    omega
  simp only [getElem?_append_right (le_refl _), Nat.sub_self, runDims, range'_succ,
    cons_append, getElem?_cons_zero] at at_
  rw [getElem?_eq_getElem (by rw [length_range]; exact lt), getElem_range, Option.some.injEq] at at_
  exact at_.symm

section Left

variable {shape : TensorShape} {perm : List Nat} {sizes : List Int}

def runProd (shape : TensorShape) (r : Nat × Nat) : Nat :=
  ((runDims r).map fun d => shape.getD d 0).prod

theorem runProd_succ (shape : TensorShape) (a k : Nat) :
    runProd shape (a, k + 1) = runProd shape (a, k) * shape.getD (a + k + 1) 0 := by
  have longer : runDims (a, k + 1) = runDims (a, k) ++ [a + k + 1] := by
    rw [runDims, range'_concat]
    simp [runDims, add_assoc]
  rw [runProd, longer, map_append, prod_append]
  simp [runProd]

theorem groupSize_eq {a k : Nat} (lt : runProd shape (a, k) < 2 ^ 31)
    (pos : ∀ d ∈ runDims (a, k), 0 < shape.getD d 0) :
    groupSize shape a k = runProd shape (a, k) := by
  induction k with
  | zero =>
    have single : runProd shape (a, 0) = shape.getD a 0 := by simp [runProd, runDims]
    rw [single] at lt
    rw [groupSize, single, StridedSlice.i32_of_bounds (by omega) (by omega)]
  | succ k ih =>
    rw [runProd_succ] at lt
    have last : 0 < shape.getD (a + k + 1) 0 := pos _ (mem_range'_1.mpr (by dsimp only; omega))
    have pre := ih (lt_of_le_of_lt (Nat.le_mul_of_pos_right _ last) lt)
      fun d mem => pos d (mem_range'_1.mpr (by
        have bounds := mem_range'_1.mp mem
        dsimp only at bounds ⊢
        omega))
    rw [groupSize, pre, runProd_succ, ← Nat.cast_mul,
      StridedSlice.i32_of_bounds (by omega) (by omega)]

theorem map_runDims (f : Nat → Int) (r : Nat × Nat)
    (others : ∀ d, r.1 < d → d ≤ r.1 + r.2 → f d = -1) :
    (runDims r).map f = f r.1 :: replicate r.2 (-1) := by
  rw [runDims, range'_succ, map_cons]
  congr 1
  refine eq_replicate_iff.mpr ⟨by simp, ?_⟩
  intro x mem
  obtain ⟨d, lt, rfl⟩ := mem_map.mp mem
  have bounds := mem_range'_1.mp lt
  exact others d (by omega) (by omega)

theorem sizes_eq (isPerm : perm.Perm (range shape.length))
    (length : sizes.length = shape.length) (sized : ∀ r ∈ runs perm, Sized shape sizes r) :
    sizes = (sortedRuns perm).flatMap fun r =>
      groupSize shape r.1 r.2 :: replicate r.2 (-1) := by
  have whole : sizes = (range shape.length).map fun d => sizes.getD d 0 := by
    apply ext_getElem
    · simp [length]
    · intro d lt _
      simp [getD_eq_getElem?_getD, getElem?_eq_getElem lt]
  refine whole.trans ?_
  rw [← sortedRuns_dims isPerm, map_flatMap]
  apply flatMap_congr
  intro r mem
  have is := sized r ((sortedRuns_perm perm).mem_iff.mp mem)
  rw [map_runDims _ r fun d above below => by
    rw [getD_eq_getElem?_getD, is.others d above below]
    rfl]
  rw [getD_eq_getElem?_getD, is.first]
  rfl

theorem remaining_flatMap {l : List (Nat × Nat)} {f : Nat × Nat → Int}
    (kept : ∀ r ∈ l, f r ≠ -1) :
    remaining (l.flatMap fun r => f r :: replicate r.2 (-1)) = l.map f := by
  induction l with
  | nil => rfl
  | cons r rest ih =>
    obtain ⟨first, later⟩ := forall_mem_cons.mp kept
    have removed : remaining (replicate r.2 (-1)) = [] := by simp [remaining]
    have inner := ih later
    rw [remaining] at inner removed ⊢
    rw [flatMap_cons, cons_append, filter_cons_of_pos (by simpa using first),
      filter_append, removed, inner]
    rfl

section Shape

variable (isPerm : perm.Perm (range shape.length)) (length : sizes.length = shape.length)
  (sized : ∀ r ∈ runs perm, Sized shape sizes r)
  (kept : ∀ r ∈ runs perm, groupSize shape r.1 r.2 ≠ -1)
include isPerm length sized kept

theorem remaining_sizes :
    remaining sizes = (sortedRuns perm).map fun r => groupSize shape r.1 r.2 := by
  rw [sizes_eq isPerm length sized]
  exact remaining_flatMap fun r mem => kept r ((sortedRuns_perm perm).mem_iff.mp mem)

theorem renumbered_run {r : Nat × Nat} (mem : r ∈ runs perm) :
    renumbered sizes r.1 = (sortedRuns perm).idxOf r := by
  have inSorted : r ∈ sortedRuns perm := (sortedRuns_perm perm).mem_iff.mpr mem
  obtain ⟨first, rest, split⟩ := append_of_mem inSorted
  have nodup : (sortedRuns perm).Nodup := (sortedRuns_perm perm).nodup_iff.mpr
    (runs_nodup (isPerm.nodup_iff.mpr nodup_range))
  have fresh : r ∉ first := by
    rw [split] at nodup
    exact fun pre => (nodup_append.mp nodup).2.2 r pre r mem_cons_self rfl
  have start : (first.flatMap runDims).length = r.1 := start_of_split (split ▸ sortedRuns_dims isPerm)
  have sameLength : ∀ l : List (Nat × Nat),
      (l.flatMap fun r => groupSize shape r.1 r.2 :: replicate r.2 (-1)).length =
        (l.flatMap runDims).length := by
    intro l
    simp [length_flatMap, runDims]
  have taken : sizes.take r.1 =
      first.flatMap fun r => groupSize shape r.1 r.2 :: replicate r.2 (-1) := by
    rw [sizes_eq isPerm length sized, split, flatMap_append, ← start, ← sameLength, take_left]
  have firstKept : ∀ s ∈ first, groupSize shape s.1 s.2 ≠ -1 := by
    intro s pre
    apply kept s ((sortedRuns_perm perm).mem_iff.mp _)
    rw [split]
    exact mem_append_left _ pre
  rw [renumbered, (sized r mem).first, if_neg (fun eq => kept r mem (Option.some.inj eq)),
    taken, remaining_flatMap firstKept, split, idxOf_append_of_notMem fresh,
    idxOf_cons_self, length_map]
  rfl

theorem remaining_permutations : remaining (perm.map (renumbered sizes)) =
      (runs perm).map fun r => ((sortedRuns perm).idxOf r : Int) := by
  have renumberedRuns : perm.map (renumbered sizes) =
      (runs perm).flatMap fun r => renumbered sizes r.1 :: replicate r.2 (-1) := by
    conv_lhs => rw [← runs_dims perm, map_flatMap]
    apply flatMap_congr
    intro r mem
    apply map_runDims
    intro d above below
    rw [renumbered, (sized r mem).others d above below, if_pos rfl]
  have places : ∀ r ∈ runs perm, renumbered sizes r.1 = (sortedRuns perm).idxOf r :=
    fun r mem => renumbered_run isPerm length sized kept mem
  rw [renumberedRuns, remaining_flatMap]
  · exact map_congr_left places
  · intro r mem
    rw [places r mem]
    omega

end Shape

end Left

section Strides

variable {β : Type} [DecidableEq β]

structure Strided (leadingDims : Nat) (outputStrides : List Nat) (place size : β → Nat)
    (l : List β) (strides : List Nat) : Prop where
  length : strides.length = outputStrides.length
  entries : ∀ r ∈ l, strides[leadingDims + place r]? = some ((after l r).map size).prod
  others : ∀ k, (∀ r ∈ l, k ≠ leadingDims + place r) → strides[k]? = outputStrides[k]?

theorem strideLoop_ok (inputShape : List Int) (leadingDims : Nat) (outputStrides : List Nat)
    (place size : β → Nat) {l : List β} (nodup : l.Nodup)
    (apart : ∀ r ∈ l, ∀ s ∈ l, place r = place s → r = s)
    (room : ∀ r ∈ l, leadingDims + place r < outputStrides.length)
    (got : ∀ r ∈ l, inputShape[place r]? = some (size r : Int))
    (pos : ∀ r ∈ l, 0 < size r) (small : (l.map size).prod < 2 ^ 32) :
    ∃ strides, strideLoop inputShape leadingDims outputStrides
        (l.map fun r => (place r : Int)) = .ok (strides, (l.map size).prod) ∧
      Strided leadingDims outputStrides place size l strides := by
  induction l with
  | nil => exact ⟨outputStrides, rfl, rfl, by simp, by simp⟩
  | cons r rest ih =>
    obtain ⟨fresh, nodupRest⟩ := nodup_cons.mp nodup
    obtain ⟨firstRoom, laterRoom⟩ := forall_mem_cons.mp room
    obtain ⟨firstFound, laterFound⟩ := forall_mem_cons.mp got
    obtain ⟨firstPositive, laterPositive⟩ := forall_mem_cons.mp pos
    rw [map_cons, prod_cons] at small
    have inner : (rest.map size).prod < 2 ^ 32 :=
      lt_of_le_of_lt (Nat.le_mul_of_pos_left _ firstPositive) small
    obtain ⟨strides, looped, strided⟩ := ih nodupRest
      (fun s mem t member' => apart s (mem_cons_of_mem _ mem) t
        (mem_cons_of_mem _ member')) laterRoom laterFound laterPositive inner
    have lt : leadingDims + place r < strides.length := strided.length ▸ firstRoom
    refine ⟨strides.set (leadingDims + place r) (rest.map size).prod, ?_, ?_⟩
    · have total : StridedSlice.u32 ((rest.map size).prod * (size r : Int)) =
          (size r) * (rest.map size).prod := by
        rw [← Nat.cast_mul, StridedSlice.u32_natCast (by rw [mul_comm]; exact small), mul_comm]
      rw [map_cons, strideLoop, looped, map_cons, prod_cons]
      simp only [bind, Except.bind, ← Nat.cast_add, write_ok lt, read_ok firstFound, total]
    · constructor
      · rw [length_set, strided.length]
      · intro s mem
        rcases mem_cons.mp mem with rfl | later
        · have fresh : s ∉ ([] : List β) := not_mem_nil
          have behind : after (s :: rest) s = rest := after_eq fresh
          rw [behind, getElem?_set_self lt]
        · have other : r ≠ s := fun same => fresh (same ▸ later)
          have behind : after (r :: rest) s = after rest s := by
            rw [after, idxOf_cons_ne _ other, drop_succ_cons]
            rfl
          have place_ : place r ≠ place s := fun same =>
            other (apart r mem_cons_self s mem same)
          rw [behind, getElem?_set_ne (by omega), strided.entries s later]
      · intro k elsewhere
        rw [forall_mem_cons] at elsewhere
        rw [getElem?_set_ne (Ne.symm elsewhere.1), strided.others k elsewhere.2]

end Strides

def runStride (shape : TensorShape) (perm : List Nat) (r : Nat × Nat) : Nat :=
  ((after (runs perm) r).map (runProd shape)).prod

theorem prod_runs (shape : TensorShape) (l : List (Nat × Nat)) :
    ((l.flatMap runDims).map fun d => shape.getD d 0).prod = (l.map (runProd shape)).prod := by
  induction l with
  | nil => rfl
  | cons r rest ih =>
    rw [flatMap_cons, map_append, prod_append, ih, map_cons, prod_cons]
    rfl

section Axes

variable {shape : TensorShape} {perm : List Nat} (isPerm : perm.Perm (range shape.length))
include isPerm

theorem prod_perm : (perm.map fun d => shape.getD d 0).prod = shape.numElements := by
  rw [(isPerm.map _).prod_eq, map_getD_range shape 0]
  rfl

theorem prod_runProd : ((runs perm).map (runProd shape)).prod = shape.numElements := by
  rw [← prod_runs, runs_dims, prod_perm isPerm]

theorem runProd_bounds (some_ : 0 < shape.numElements) {r : Nat × Nat}
    (mem : r ∈ runs perm) : 0 < runProd shape r ∧ runProd shape r ≤ shape.numElements ∧
      ∀ d ∈ runDims r, 0 < shape.getD d 0 := by
  have dvd : runProd shape r ∣ shape.numElements := by
    rw [← prod_runProd isPerm]
    exact dvd_prod (mem_map_of_mem mem)
  have pos := Nat.pos_of_dvd_of_pos dvd some_
  refine ⟨pos, Nat.le_of_dvd some_ dvd, fun d lt => ?_⟩
  exact List.prod_pos_iff_forall_pos_nat.mp pos _ (mem_map_of_mem lt)

omit isPerm in
theorem idxOf_sortedRuns_inj {r s : Nat × Nat} (mem : r ∈ runs perm)
    (same : (sortedRuns perm).idxOf r = (sortedRuns perm).idxOf s) : r = s :=
  (idxOf_inj ((sortedRuns_perm perm).mem_iff.mpr mem)).mp same

theorem computeStrides_ok (some_ : 0 < shape.numElements) (small : shape.numElements < 2 ^ 32)
    (expectedDimCount : Nat) :
    computeStrides ((sortedRuns perm).map fun r => (runProd shape r : Int))
        ((runs perm).map fun r => ((sortedRuns perm).idxOf r : Int)) expectedDimCount =
      .ok (replicate (expectedDimCount - (runs perm).length) 1 ++
        (sortedRuns perm).map (runStride shape perm)) := by
  have count : (sortedRuns perm).length = (runs perm).length := (sortedRuns_perm perm).length_eq
  have nodup := runs_nodup (isPerm.nodup_iff.mpr nodup_range)
  have nodupSorted : (sortedRuns perm).Nodup := (sortedRuns_perm perm).nodup_iff.mpr nodup
  have place : ∀ r ∈ runs perm, (sortedRuns perm).idxOf r < (sortedRuns perm).length :=
    fun r mem => idxOf_lt_length_iff.mpr ((sortedRuns_perm perm).mem_iff.mpr mem)
  generalize isLeading : expectedDimCount - (runs perm).length = leadingDims
  obtain ⟨strides, looped, strided⟩ := strideLoop_ok
    ((sortedRuns perm).map fun r => (runProd shape r : Int)) leadingDims
    (replicate (leadingDims + (runs perm).length) 1) (sortedRuns perm).idxOf (runProd shape)
    nodup (fun r mem s _ => idxOf_sortedRuns_inj mem)
    (fun r mem => by
      rw [length_replicate, ← count]
      exact Nat.add_lt_add_left (place r mem) _)
    (fun r mem => by
      rw [getElem?_map, getElem?_eq_getElem (place r mem), getElem_idxOf]
      rfl)
    (fun r mem => (runProd_bounds isPerm some_ mem).1)
    (by rw [prod_runProd isPerm]; exact small)
  have isStrides : strides =
      replicate leadingDims 1 ++ (sortedRuns perm).map (runStride shape perm) := by
    apply ext_getElem?
    intro k
    by_cases leading : k < leadingDims
    · rw [strided.others k (fun r _ => by omega), getElem?_append_left (by simp [leading])]
      rw [getElem?_replicate_of_lt leading, getElem?_replicate_of_lt (by omega)]
    · obtain ⟨j, rfl⟩ := Nat.exists_eq_add_of_le (Nat.le_of_not_lt leading)
      rw [getElem?_append_right (by simp), length_replicate, Nat.add_sub_cancel_left, getElem?_map]
      by_cases lt : j < (sortedRuns perm).length
      · have mem : (sortedRuns perm)[j] ∈ runs perm :=
          (sortedRuns_perm perm).mem_iff.mp (getElem_mem lt)
        have entry := strided.entries _ mem
        rw [nodupSorted.idxOf_getElem j lt] at entry
        rw [entry, getElem?_eq_getElem lt]
        rfl
      · have outside := strided.length
        rw [length_replicate] at outside
        rw [getElem?_eq_none (by omega), getElem?_eq_none (by omega)]
        rfl
  simp only [computeStrides, length_map, isLeading, looped, bind, Except.bind, isStrides]

theorem axes_ok (some_ : 0 < shape.numElements) (lt : shape.numElements < 2 ^ 32)
    (outputShape : List Int) (dimensionCount : Nat) : ∃ leadingDims, SimpleTranspose.axes
        ⟨(sortedRuns perm).map fun r => (runProd shape r : Int), outputShape,
          (runs perm).map fun r => ((sortedRuns perm).idxOf r : Int)⟩ dimensionCount =
      .ok (replicate leadingDims ⟨1, 0, 1⟩ ++
        (sortedRuns perm).map fun r => ⟨runProd shape r, 0, runStride shape perm r⟩) := by
  refine ⟨dimensionCount - (runs perm).length, ?_⟩
  have sizes : ((sortedRuns perm).map fun r => (runProd shape r : Int)).map Int.toNat =
      (sortedRuns perm).map (runProd shape) := by simp
  simp only [SimpleTranspose.axes, computeStrides_ok isPerm some_ lt, bind, Except.bind,
    length_map, sizes]
  rw [zipWith_append (by simp), zipWith_replicate, zipWith_map, zipWith_self]
  simp

end Axes

end TfDml.Transpose
