import TfDml.Kernels.MatrixDiag
import TfDml.Kernels.SliceStrides
import Mathlib.Tactic.IntervalCases

/-! # The band of MatrixDiag

What the table has for a diagonal, and what `dml::MatrixDiag` makes of it for a band of
diagonals. The helper does not ask whether the band is inside the matrix: for one that is not,
the table is read outside.
-/

namespace TfDml.MatrixDiag

open Lib List Option
open ScatterNd (Refusal requires dimSize requires_eq_ok dimSize_eq_ok)
open NoOpKernel (isNoOpKernel)
open StridedSlice (IndexTensor i32 i32_of_bounds i32_bounds)
open DmlTensorDesc

def diagLen (rows cols : Nat) (k : Int) : Int := min (rows + min k 0) (cols - max k 0)

def maxLen (rows cols : Nat) (kMin kMax : Int) : Int := min (rows + min kMax 0) (cols - max kMin 0)

section Table

variable {rows cols : Nat}

variable (rows cols) in
theorem diagLen_of_nonneg {k : Int} (natural : 0 ≤ k) :
    diagLen rows cols k = min (rows : Int) (cols - k) := by
  rw [diagLen, min_eq_right natural, max_eq_left natural, Int.add_zero]

variable (rows cols) in
theorem diagLen_of_nonpos {k : Int} (negative : k ≤ 0) :
    diagLen rows cols k = min (rows + k) (cols : Int) := by
  rw [diagLen, min_eq_left negative, max_eq_right negative, Int.sub_zero]

variable (rows cols) in
theorem diagLen_le_maxLen {kMin k kMax : Int} (above : kMin ≤ k) (below : k ≤ kMax) :
    diagLen rows cols k ≤ maxLen rows cols kMin kMax :=
  min_le_min (Int.add_le_add_left (min_le_min_right 0 below) _)
    (Int.sub_le_sub_left (max_le_max_right 0 above) _)

theorem diagLen_nearest {kMin kMax : Int} (ordered : kMin ≤ kMax) :
    diagLen rows cols (max kMin (min 0 kMax)) = maxLen rows cols kMin kMax := by
  rcases le_total 0 kMin with above | notAbove
  · rw [min_eq_left (Int.le_trans above ordered), max_eq_left above, diagLen, maxLen,
      min_eq_right above, min_eq_right (Int.le_trans above ordered)]
  rcases le_total kMax 0 with below | notBelow
  · rw [min_eq_right below, max_eq_right ordered, diagLen, maxLen, max_eq_right below,
      max_eq_right notAbove]
  · rw [min_eq_left notBelow, max_eq_right notAbove, diagLen, maxLen, min_eq_right notBelow,
      max_eq_right notAbove, min_self, max_self]

theorem length_kLensCpu (tall : 0 < rows) (wide : 0 < cols) :
    (kLensCpu rows cols).length = rows + cols - 1 := by
  simp only [kLensCpu, length_append, length_map, length_range, length_replicate]
  omega

theorem getElem?_kLensCpu (tall : 0 < rows) (wide : 0 < cols) {i : Nat}
    (inside : i < rows + cols - 1) :
    (kLensCpu rows cols)[i]? = some (min (i + 1) (min (min rows cols) (rows + cols - 1 - i))) := by
  simp only [kLensCpu, getElem?_append, length_append, length_map,
    length_range, length_replicate, getElem?_map, getElem?_replicate]
  by_cases left : i < min rows cols - 1
  · rw [if_pos (by omega), if_pos left, getElem?_range left, map_some]
    congr 1
    omega
  by_cases middle : i < min rows cols - 1 + (max rows cols - min rows cols + 1)
  · rw [if_pos middle, if_neg left, if_pos (by omega)]
    congr 1
    omega
  · rw [if_neg middle, getElem?_range (by omega), map_some]
    congr 1
    rcases le_total rows cols with broad | narrow
    · rw [min_eq_left broad, max_eq_right broad] at *
      omega
    · rw [min_eq_right narrow, max_eq_left narrow] at *
      omega

theorem readAt_eq_none {table : List Nat} {i : Int} (outside : i < 0 ∨ (table.length : Int) ≤ i) :
    readAt table i = none := by
  unfold readAt
  split
  case isTrue => rw [getElem?_eq_none (by omega)]
  case isFalse => rfl

theorem readAt_kLensCpu {k : Int} (tall : 0 < rows) (wide : 0 < cols) (above : -(rows : Int) < k)
    (below : k < cols) :
    readAt (kLensCpu rows cols) (k + rows - 1) = some (diagLen rows cols k).toNat := by
  rw [readAt, if_pos (by omega), getElem?_kLensCpu tall wide (by omega)]
  congr 1
  rcases le_total 0 k with superdiagonal | subdiagonal
  · rw [diagLen_of_nonneg rows cols superdiagonal]
    omega
  · rw [diagLen_of_nonpos rows cols subdiagonal]
    omega

def lens (rows cols : Nat) (k : Int) (count : Nat) : List Nat :=
  (range count).map fun s : Nat => (diagLen rows cols (k + s)).toNat

theorem readRange_kLensCpu {k stop : Int} (tall : 0 < rows) (wide : 0 < cols)
    (above : -(rows : Int) < k) (below : stop ≤ cols) :
    readRange (kLensCpu rows cols) (k + rows - 1) (stop + rows - 1) =
      some (lens rows cols k (stop - k).toNat) := by
  have count : (stop + rows - 1 - (k + rows - 1)).toNat = (stop - k).toNat := by omega
  rw [readRange, count, lens]
  apply mapM_eq_some
  intro s mem
  have less := mem_range.mp mem
  have position : k + rows - 1 + (s : Int) = k + s + rows - 1 := by omega
  rw [position, readAt_kLensCpu tall wide (by omega) (by omega)]

theorem readRange_eq_none {table : List Nat} {start stop i : Int} (first : start ≤ i)
    (last : i < stop) (outside : readAt table i = none) : readRange table start stop = none := by
  rw [readRange, eq_none_iff_forall_ne_some]
  intro read mapped
  obtain ⟨length, each⟩ := forall₂_iff_get.mp (forall₂_of_mapM mapped)
  have less : (i - start).toNat < (range (stop - start).toNat).length := by
    rw [length_range]
    omega
  have found := each (i - start).toNat less (length ▸ less)
  rw [get_eq_getElem, getElem_range] at found
  rw [show start + ((i - start).toNat : Int) = i by omega, outside] at found
  cases found

theorem lens_append (k : Int) (m n : Nat) :
    lens rows cols k m ++ lens rows cols (k + m) n = lens rows cols k (m + n) := by
  rw [lens, lens, lens, range_add, map_append, List.map_map]
  congr 1
  apply map_congr_left
  intro s _
  simp only [Function.comp_apply, Nat.cast_add, Int.add_assoc]

theorem lens_split {kMin stop : Int} (nonempty : kMin < stop) :
    lens rows cols kMin (min 0 stop - kMin).toNat ++
      lens rows cols (max 0 kMin) (stop - max 0 kMin).toNat =
        lens rows cols kMin (stop - kMin).toNat := by
  by_cases above : 0 ≤ kMin
  · rw [show (min 0 stop - kMin).toNat = 0 by omega, show max 0 kMin = kMin by omega]
    rfl
  · rw [show max 0 kMin = kMin + (min 0 stop - kMin).toNat + (0 - min 0 stop) by omega]
    by_cases below : stop ≤ 0
    · rw [show (stop - (kMin + (min 0 stop - kMin).toNat + (0 - min 0 stop))).toNat = 0 by omega,
        show min 0 stop = stop by omega, lens, lens, range_zero, map_nil, append_nil]
    · rw [show kMin + ((min 0 stop - kMin).toNat : Int) + (0 - min 0 stop) =
        kMin + ((min 0 stop - kMin).toNat : Int) by omega, lens_append]
      congr 1
      omega

theorem max?_lens {k : Int} {count : Nat} (nonempty : 0 < count) :
    (lens rows cols k count).max? = some (maxLen rows cols k (k + count - 1)).toNat := by
  rw [max?_eq_some_iff]
  constructor
  · rw [lens, List.mem_map]
    refine ⟨(max k (min 0 (k + count - 1)) - k).toNat, mem_range.mpr (by omega), ?_⟩
    have nearest : k + ((max k (min 0 (k + count - 1)) - k).toNat : Int) =
        max k (min 0 (k + count - 1)) := by omega
    rw [nearest, diagLen_nearest (by omega)]
  · intro length mem
    rw [lens, List.mem_map] at mem
    obtain ⟨s, less, rfl⟩ := mem
    rw [mem_range] at less
    exact Int.toNat_le_toNat (diagLen_le_maxLen rows cols (by omega) (by omega))

theorem head?_lens {k : Int} {count : Nat} (nonempty : 0 < count) :
    (lens rows cols k count).head? = some (diagLen rows cols k).toNat := by
  rw [lens, head?_eq_getElem?, getElem?_map, getElem?_range nonempty, map_some,
    Nat.cast_zero, Int.add_zero]

theorem getLast?_lens {k : Int} {count : Nat} (nonempty : 0 < count) :
    (lens rows cols k count).getLast? = some (diagLen rows cols (k + count - 1)).toNat := by
  rw [lens, getLast?_eq_getElem?, length_map, length_range, getElem?_map,
    getElem?_range (by omega), map_some]
  congr 3
  omega

theorem min?_kRange {kMin kMax : Int} (ordered : kMin ≤ kMax) :
    (kRange kMin kMax).min? = some (max 0 kMin + max 0 (-kMax)).toNat := by
  rw [min?_eq_some_iff]
  constructor
  · rw [kRange, List.mem_map]
    refine ⟨(max kMin (min 0 kMax) - kMin).toNat, mem_range.mpr (by omega), ?_⟩
    omega
  · intro distance mem
    rw [kRange, List.mem_map] at mem
    obtain ⟨s, less, rfl⟩ := mem
    rw [mem_range] at less
    omega

/-- The layout for the diagonals from `kMin` to `kMax`, of which the lengths are those below
    `stop`. -/
def bandLayout (diagDepth diagWidth rows cols : Nat) (kMin kMax stop : Int) : Layout :=
  let longest := maxLen rows cols kMin (stop - 1)
  let topPad := longest - diagLen rows cols (stop - 1)
  let btmPad := longest - diagLen rows cols kMin
  let newWidth := diagLen rows cols kMax + (kMax.natAbs - (max 0 kMin + max 0 (-kMax)))
  { kSubStt := kMin + rows - 1
    kSubLen := max 0 (min 0 stop - kMin)
    kSupStt := max 0 kMin + rows - 1
    kSupLen := max 0 (stop - max 0 kMin)
    topPad, btmPad
    rightPad := btmPad + diagWidth
    padLeftWidth := diagDepth + topPad + (btmPad + diagWidth) - topPad
    allWidth := diagDepth + (btmPad + diagWidth) - btmPad
    diagonalizeWidth := newWidth
    padTop := max 0 (-kMax)
    padLft := max 0 kMin
    padBtm := rows - diagWidth - max 0 (-kMax)
    padRht := cols - newWidth - max 0 kMin }

structure InRange (rows cols : Nat) (kMin kMax : Int) : Prop where
  tall : 0 < rows
  wide : 0 < cols
  ordered : kMin ≤ kMax
  above : -(rows : Int) < kMin
  below : kMax < cols

/-- The end of the superdiagonals is an `int`. If it does not fit, no superdiagonal is left. -/
def supStop (rows : Nat) (kMax : Int) : Int := if kMax + rows < 2 ^ 31 then kMax + 1 else 0

variable {kMin kMax : Int} {diagDepth diagWidth : Nat}

theorem toNat_diagLen {k : Int} (above : -(rows : Int) < k) (below : k < cols) :
    ((diagLen rows cols k).toNat : Int) = diagLen rows cols k := by
  rw [diagLen]
  omega

theorem toNat_maxLen (inRange : InRange rows cols kMin kMax) :
    ((maxLen rows cols kMin kMax).toNat : Int) = maxLen rows cols kMin kMax := by
  obtain ⟨-, -, ordered, above, below⟩ := inRange
  rw [maxLen]
  omega

theorem i32_index {k : Int} (above : -2 ^ 31 < k + rows) (below : k + rows ≤ 2 ^ 31) :
    i32 (k - (1 - rows)) = k + rows - 1 := by
  rw [i32_of_bounds (by omega) (by omega)]
  omega

theorem i32_supStop {start : Int} (natural : 0 ≤ start) (above : 0 ≤ kMax + rows)
    (reach : kMax + rows ≤ 2 ^ 31) : max (i32 (kMax + 1 - (1 - rows))) (start + rows - 1) =
      max (supStop rows kMax) start + rows - 1 := by
  unfold supStop
  split
  case isTrue fit =>
    rw [i32_of_bounds (by omega) (by omega)]
    omega
  case isFalse large =>
    have wrapped : i32 (kMax + 1 - (1 - rows)) = kMax + rows - 2 ^ 32 := by
      rw [i32, Int.bmod_def]
      omega
    rw [wrapped]
    omega

theorem supStop_bounds (inRange : InRange rows cols kMin kMax) (rowsFit : rows < 2 ^ 31)
    (fits : kMax + rows < 2 ^ 31 ∨ kMin < 0) :
    kMin < supStop rows kMax ∧ supStop rows kMax ≤ kMax + 1 ∧
      min 0 (kMax + 1) = min 0 (supStop rows kMax) := by
  obtain ⟨-, wide, ordered, above, below⟩ := inRange
  unfold supStop
  split
  case isTrue fit => omega
  case isFalse large => omega

theorem toNat_max_sub (a b : Int) : (max a b - b).toNat = (a - b).toNat := by omega

theorem readRange_subdiagonals (inRange : InRange rows cols kMin kMax) {stop : Int}
    (last : stop ≤ cols) :
    readRange (kLensCpu rows cols) (kMin + rows - 1) (max (min 0 stop) kMin + rows - 1) =
      some (lens rows cols kMin (min 0 stop - kMin).toNat) := by
  obtain ⟨tall, wide, ordered, above, below⟩ := inRange
  rw [readRange_kLensCpu tall wide above (by omega), toNat_max_sub]

theorem readRange_superdiagonals (inRange : InRange rows cols kMin kMax) {stop : Int}
    (last : stop ≤ cols) :
    readRange (kLensCpu rows cols) (max 0 kMin + rows - 1) (max stop (max 0 kMin) + rows - 1) =
      some (lens rows cols (max 0 kMin) (stop - max 0 kMin).toNat) := by
  obtain ⟨tall, wide, ordered, above, below⟩ := inRange
  rw [readRange_kLensCpu tall wide (by omega) (by omega), toNat_max_sub]

theorem layout_eq (inRange : InRange rows cols kMin kMax) (rowsFit : rows < 2 ^ 31)
    (colsFit : cols < 2 ^ 31) (reach : rows + cols ≤ 2 ^ 31 + 1)
    (fits : kMax + rows < 2 ^ 31 ∨ kMin < 0) : layout diagDepth diagWidth rows cols kMin kMax =
      some (bandLayout diagDepth diagWidth rows cols kMin kMax (supStop rows kMax)) := by
  obtain ⟨before, last, subLast⟩ := supStop_bounds inRange rowsFit fits
  generalize named : supStop rows kMax = stop at before last subLast ⊢
  have within : InRange rows cols kMin (stop - 1) :=
    ⟨inRange.tall, inRange.wide, by omega, inRange.above, by have := inRange.below; omega⟩
  have sub := readRange_subdiagonals inRange (show stop ≤ cols by have := inRange.below; omega)
  have sup := readRange_superdiagonals inRange (show stop ≤ cols by have := inRange.below; omega)
  have longest := toNat_maxLen within
  have minK2zero : ((max 0 kMin + max 0 (-kMax)).toNat : Int) = max 0 kMin + max 0 (-kMax) :=
    Int.toNat_of_nonneg (Int.add_nonneg (le_max_left _ _) (le_max_left _ _))
  obtain ⟨tall, wide, ordered, above, below⟩ := inRange
  have next : i32 (kMax + 1) = kMax + 1 := i32_of_bounds (by omega) (by omega)
  have kSupStt := @i32_index rows (max 0 kMin) (by omega) (by omega)
  have kSupEnd := @i32_supStop rows kMax _ (le_max_left 0 kMin) (by omega) (by omega)
  have kSubStt := @i32_index rows kMin (by omega) (by omega)
  have kSubEnd := @i32_index rows (min 0 stop) (by omega) (by omega)
  have kMaxIdx := @i32_index rows kMax (by omega) (by omega)
  have ends : max (min 0 stop + rows - 1) (kMin + rows - 1) =
      max (min 0 stop) kMin + rows - 1 := by omega
  have count : 0 < (stop - kMin).toNat := by omega
  have final : kMin + ((stop - kMin).toNat : Int) - 1 = stop - 1 := by omega
  have length (a b : Int) : max 0 (max a b + rows - 1 - (b + rows - 1)) = max 0 (a - b) := by omega
  rw [named] at kSupEnd
  simp only [layout, min?_kRange ordered, next, kSupStt, kSupEnd, kSubStt, subLast, kSubEnd, ends,
    kMaxIdx, sub, sup, lens_split before, max?_lens count, getLast?_lens count,
    head?_lens count, final, readAt_kLensCpu tall wide (show -(rows : Int) < kMax by omega) below,
    bind_eq_bind, bind_some, longest, minK2zero,
    toNat_diagLen (show -(rows : Int) < stop - 1 by omega) (show stop - 1 < cols by omega),
    toNat_diagLen above (show kMin < cols by omega),
    toNat_diagLen (show -(rows : Int) < kMax by omega) below, length, bandLayout]

theorem reads_of_layout {l : Layout}
    (laid : layout diagDepth diagWidth rows cols kMin kMax = some l) : ∃ kSub kSup kMaxLen,
      readRange (kLensCpu rows cols) (i32 (kMin - (1 - rows)))
        (max (i32 (min 0 (i32 (kMax + 1)) - (1 - rows))) (i32 (kMin - (1 - rows)))) = some kSub ∧
      readRange (kLensCpu rows cols) (i32 (max 0 kMin - (1 - rows)))
        (max (i32 (i32 (kMax + 1) - (1 - rows))) (i32 (max 0 kMin - (1 - rows)))) = some kSup ∧
      (kSub ++ kSup).max? ≠ none ∧
      readAt (kLensCpu rows cols) (i32 (kMax - (1 - rows))) = some kMaxLen := by
  simp only [layout, bind_eq_bind, bind_eq_some_iff] at laid
  obtain ⟨_, -, kSub, sub, kSup, sup, _, longest, _, -, _, -, kMaxLen, last, -⟩ := laid
  exact ⟨kSub, kSup, kMaxLen, sub, sup, by simp [longest], last⟩

theorem readRange_empty (table : List Nat) (start : Int) : readRange table start start = some [] := by
  rw [readRange, Int.sub_self]
  rfl

theorem below_of_layout (tall : 0 < rows) (wide : 0 < cols) (rowsFit : rows < 2 ^ 31)
    (fits : kMax < 2 ^ 31) {l : Layout}
    (laid : layout diagDepth diagWidth rows cols kMin kMax = some l) : kMax < cols := by
  by_contra beyond
  obtain ⟨-, -, kMaxLen, -, -, -, last⟩ := reads_of_layout laid
  have index : i32 (kMax - (1 - rows)) = kMax + rows - 1 ∨ i32 (kMax - (1 - rows)) < 0 := by
    by_cases small : kMax + rows ≤ 2 ^ 31
    · exact Or.inl (i32_index (by omega) small)
    · right
      rw [i32, Int.bmod_def]
      omega
  rw [readAt_eq_none] at last
  · cases last
  · rw [length_kLensCpu tall wide]
    omega

theorem above_of_layout (tall : 0 < rows) (ordered : kMin ≤ kMax) (below : kMax < cols)
    (rowsFit : rows < 2 ^ 31) (colsFit : cols < 2 ^ 31) (reach : rows + cols ≤ 2 ^ 31 + 1)
    (fits : -2 ^ 31 ≤ kMin) {l : Layout}
    (laid : layout diagDepth diagWidth rows cols kMin kMax = some l) : -(rows : Int) < kMin := by
  by_contra beyond
  obtain ⟨kSub, -, -, sub, -⟩ := reads_of_layout laid
  rw [i32_of_bounds (n := kMax + 1) (by omega) (by omega), i32_index (by omega) (by omega),
    i32_index (by omega) (by omega), readRange_eq_none (Int.le_refl (kMin + rows - 1)) (by omega)
      (readAt_eq_none (Or.inl (by omega)))] at sub
  cases sub

theorem fits_of_layout (inRange : InRange rows cols kMin kMax) (rowsFit : rows < 2 ^ 31)
    (colsFit : cols < 2 ^ 31) (reach : rows + cols ≤ 2 ^ 31 + 1) {l : Layout}
    (laid : layout diagDepth diagWidth rows cols kMin kMax = some l) :
    kMax + rows < 2 ^ 31 ∨ kMin < 0 := by
  obtain ⟨tall, wide, ordered, above, below⟩ := inRange
  by_contra wrapped
  rw [not_or, Int.not_lt, Int.not_lt] at wrapped
  obtain ⟨large, natural⟩ := wrapped
  obtain ⟨kSub, kSup, -, sub, sup, some_, -⟩ := reads_of_layout laid
  have supStop : supStop rows kMax = 0 := by rw [supStop, if_neg (by omega)]
  rw [i32_of_bounds (n := kMax + 1) (by omega) (by omega), max_eq_right natural,
    i32_index (by omega) (by omega), i32_supStop natural (by omega) (by omega), supStop,
    max_eq_right natural, readRange_empty] at sup
  rw [i32_of_bounds (n := kMax + 1) (by omega) (by omega), i32_index (by omega) (by omega),
    i32_index (by omega) (by omega),
    show max (min 0 (kMax + 1) + rows - 1) (kMin + rows - 1) = kMin + rows - 1 by omega,
    readRange_empty] at sub
  obtain rfl := some.inj sub
  obtain rfl := some.inj sup
  exact some_ rfl

theorem newWidth_eq (inRange : InRange rows cols kMin kMax) :
    diagLen rows cols kMax + (kMax.natAbs - (max 0 kMin + max 0 (-kMax))) =
      min (rows + kMax) cols - max 0 kMin := by
  obtain ⟨tall, wide, ordered, above, below⟩ := inRange
  rcases le_total 0 kMax with superdiagonal | subdiagonal
  · rw [diagLen_of_nonneg rows cols superdiagonal]
    omega
  · rw [diagLen_of_nonpos rows cols subdiagonal]
    omega

theorem bandLayout_sizes (inRange : InRange rows cols kMin kMax) {stop : Int}
    (before : kMin < stop) :
    (∀ size ∈ (bandLayout diagDepth diagWidth rows cols kMin kMax stop).sizes, 0 ≤ size) ↔
      (diagWidth : Int) - min kMax 0 ≤ rows := by
  have top : 0 ≤ maxLen rows cols kMin (stop - 1) - diagLen rows cols (stop - 1) :=
    Int.sub_nonneg_of_le (diagLen_le_maxLen rows cols (by omega) (Int.le_refl _))
  have btm : 0 ≤ maxLen rows cols kMin (stop - 1) - diagLen rows cols kMin :=
    Int.sub_nonneg_of_le (diagLen_le_maxLen rows cols (Int.le_refl _) (by omega))
  have width : 0 ≤ min (rows + kMax) (cols : Int) - max 0 kMin := by
    obtain ⟨tall, wide, ordered, above, below⟩ := inRange
    omega
  simp only [Layout.sizes, bandLayout, newWidth_eq inRange, forall_mem_cons,
    not_mem_nil, false_implies, implies_true, and_true, le_max_left, true_and]
  generalize maxLen rows cols kMin (stop - 1) - diagLen rows cols (stop - 1) = topPad at top ⊢
  generalize maxLen rows cols kMin (stop - 1) - diagLen rows cols kMin = btmPad at btm ⊢
  constructor
  · rintro ⟨-, -, -, -, -, -, bottom, -⟩
    omega
  · intro enough
    refine ⟨top, btm, by omega, by omega, by omega, width, by omega, ?_⟩
    have covered : min (rows + kMax) (cols : Int) ≤ cols := min_le_right _ _
    omega

end Table

structure Helped (diagonal : TensorShape) (init : Init) : Prop where
  ne : diagonal ≠ []
  ordered : init.lowerDiagIndex ≤ init.upperDiagIndex
  lowerFits : -2 ^ 31 ≤ init.lowerDiagIndex
  upperFits : init.upperDiagIndex < 2 ^ 31
  depth : init.lowerDiagIndex ≠ init.upperDiagIndex → ∃ provided : Nat,
    diagonal.reverse[1]? = some provided ∧
      provided = i32 (init.upperDiagIndex - init.lowerDiagIndex + 1)
  rowsFit : init.numRows < 2 ^ 31
  colsFit : init.numCols < 2 ^ 31
  rows_ge : i32 (diagonal.getLastD 0 - min init.upperDiagIndex 0) ≤ init.numRows
  cols_ge : i32 (diagonal.getLastD 0 + max init.lowerDiagIndex 0) ≤ init.numCols
  exact_ : (init.numRows : Int) = i32 (diagonal.getLastD 0 - min init.upperDiagIndex 0) ∨
    (init.numCols : Int) = i32 (diagonal.getLastD 0 + max init.lowerDiagIndex 0)
  leading : init.leading =
    if i32 (init.upperDiagIndex - init.lowerDiagIndex + 1) = 1 then diagonal.dropLast
    else diagonal.dropLast.dropLast

theorem diagIndices_ok {band : Option Band} {lower upper : Int}
    (ok : diagIndices band = .ok (lower, upper)) : -2 ^ 31 ≤ lower ∧ upper < 2 ^ 31 := by
  cases band with
  | none =>
    obtain ⟨rfl, rfl⟩ := Prod.mk.inj (Except.ok.inj ok)
    decide
  | some band =>
    have least (i : Nat) : -2 ^ 31 ≤ band.diagIndex.flat i := BitVec.le_toInt _
    have greatest (i : Nat) : band.diagIndex.flat i < 2 ^ 31 := BitVec.toInt_lt
    simp only [diagIndices, bind_eq_ok, requires_eq_ok, exists_const] at ok
    obtain ⟨-, ok⟩ := ok
    split at ok
    case isTrue vector =>
      simp only [bind_eq_ok, requires_eq_ok, exists_const, Except.ok.injEq, Prod.mk.injEq] at ok
      obtain ⟨-, rfl, rfl⟩ := ok
      refine ⟨least 0, ?_⟩
      split
      · exact greatest 1
      · exact greatest 0
    case isFalse scalar =>
      obtain ⟨rfl, rfl⟩ := Prod.mk.inj (Except.ok.inj ok)
      exact ⟨least 0, greatest 0⟩

theorem resolveDims_bounds {numRows numCols minNumRows minNumCols bound : Int}
    (rows_ge : numRows = -1 ∨ minNumRows ≤ numRows) (cols_ge : numCols = -1 ∨ minNumCols ≤ numCols)
    (rowsFit : numRows < bound) (colsFit : numCols < bound) (minRowsFit : minNumRows < bound)
    (minColsFit : minNumCols < bound) :
    minNumRows ≤ (resolveDims numRows numCols minNumRows minNumCols).1 ∧
      minNumCols ≤ (resolveDims numRows numCols minNumRows minNumCols).2 ∧
      (resolveDims numRows numCols minNumRows minNumCols).1 < bound ∧
      (resolveDims numRows numCols minNumRows minNumCols).2 < bound := by
  unfold resolveDims
  split
  case isTrue square => exact ⟨le_max_left _ _, le_max_right _ _, by omega, by omega⟩
  case isFalse =>
    split
    case isTrue => exact ⟨Int.le_refl _, by omega, minRowsFit, colsFit⟩
    case isFalse =>
      split
      case isTrue => exact ⟨by omega, Int.le_refl _, rowsFit, minColsFit⟩
      case isFalse => exact ⟨by omega, by omega, rowsFit, colsFit⟩

theorem outputDims_ok {maxDiagLen numRows numCols lower upper : Int} {rows cols : Nat}
    (ok : outputDims maxDiagLen numRows numCols lower upper = .ok (rows, cols))
    (rowsFit : numRows < 2 ^ 31) (colsFit : numCols < 2 ^ 31) : (rows < 2 ^ 31 ∧ cols < 2 ^ 31) ∧
      (i32 (maxDiagLen - min upper 0) ≤ rows ∧ i32 (maxDiagLen + max lower 0) ≤ cols) ∧
      ((rows : Int) = i32 (maxDiagLen - min upper 0) ∨
        (cols : Int) = i32 (maxDiagLen + max lower 0)) := by
  simp only [outputDims, bind_eq_ok, requires_eq_ok, exists_const, Bool.or_eq_true,
    decide_eq_true_eq] at ok
  obtain ⟨rows_ge, cols_ge, exact_, ok⟩ := ok
  have bounds := resolveDims_bounds rows_ge cols_ge rowsFit colsFit (i32_bounds _).2
    (i32_bounds _).2
  split at ok
  case isTrue natural =>
    obtain ⟨rfl, rfl⟩ := Prod.mk.inj (Except.ok.inj ok)
    omega
  case isFalse => cases ok

theorem helped_of_ok {diagonal : TensorShape} {band : Option Band} {init : Init}
    (accepted : initHelper diagonal band = .ok init) : Helped diagonal init := by
  simp only [initHelper, bind_eq_ok, requires_eq_ok, exists_const, Prod.exists, Except.ok.injEq,
    decide_eq_true_eq, TensorShape.isVectorOrHigher, Bool.not_eq_true',
    isEmpty_eq_false_iff] at accepted
  obtain ⟨lower, upper, indices, ne, ordered, _, checked, rows, cols, dims, rfl⟩ := accepted
  obtain ⟨lowerFits, upperFits⟩ := diagIndices_ok indices
  obtain ⟨⟨rowsFit, colsFit⟩, ⟨rows_ge, cols_ge⟩, exact_⟩ := outputDims_ok dims
    (by cases band with | none => decide | some band => exact BitVec.toInt_lt)
    (by cases band with | none => decide | some band => exact BitVec.toInt_lt)
  refine ⟨ne, ordered, lowerFits, upperFits, fun different => ?_, rowsFit, colsFit, rows_ge,
    cols_ge, exact_, rfl⟩
  rw [checkNumDiags, if_neg different] at checked
  simpa [bind_eq_ok, dimSize_eq_ok] using checked

theorem diagShape_vector (w : Nat) (kDepth : Int) :
    diagShape [w] kDepth = diagShape [1, w] kDepth := rfl

theorem missing_prod (n : Nat) (lead : List Nat) : (replicate n 1 ++ lead).prod = lead.prod := by
  rw [prod_append, prod_replicate, Nat.one_pow, one_mul]

theorem diagShape_same (lead : List Nat) {old : Nat} (w : Nat) {kDepth : Int}
    (same : kDepth = i32 old) : ∃ batch channels,
      diagShape (lead ++ [old, w]) kDepth = [batch, channels, old, w] ∧
        batch * channels = lead.prod := by
  have length : (lead ++ [old, w]).length = lead.length + 2 := by simp
  have isOld : (lead ++ [old, w]).getD lead.length 0 = old := by simp
  obtain ⟨front, channels, padded⟩ : ∃ front channels,
      replicate (4 - (lead.length + 2)) 1 ++ lead = front ++ [channels] := by
    have nonempty : replicate (4 - (lead.length + 2)) 1 ++ lead ≠ [] := by
      rw [← length_pos_iff, length_append, length_replicate]
      omega
    exact ⟨_, _, (dropLast_concat_getLast nonempty).symm⟩
  refine ⟨front.prod, channels, ?_, ?_⟩
  · have whole : replicate (4 - (lead.length + 2)) 1 ++ (lead ++ [old, w]) =
        front ++ [channels, old, w] := by
      rw [← append_assoc, padded, append_assoc]
      rfl
    have batchDims : (front ++ [channels, old, w]).length - 3 = front.length := by simp
    simp only [diagShape, length, show ¬lead.length + 2 = 1 by omega, if_false,
      Nat.add_sub_cancel, isOld, same, if_true, whole, batchDims, take_left, drop_left]
  · rw [← missing_prod (4 - (lead.length + 2)) lead, padded, prod_append, prod_singleton]

theorem insertIdx_append {β : Type} (front back : List β) (x : β) :
    (front ++ back).insertIdx front.length x = front ++ x :: back := by
  induction front with
  | nil => rfl
  | cons y front ih => rw [cons_append, length_cons, insertIdx_succ_cons, ih]; rfl

theorem diagShape_other (lead : List Nat) {old : Nat} (w : Nat) {kDepth : Int}
    (other : kDepth ≠ i32 old) : diagShape (lead ++ [old, w]) kDepth = [lead.prod, old, 1, w] := by
  have length : (lead ++ [old, w]).length = lead.length + 2 := by simp
  have isOld : (lead ++ [old, w]).getD lead.length 0 = old := by simp
  generalize missing : 4 - (lead.length + 2) - 1 = n
  have split : replicate n 1 ++ (lead ++ [old, w]) =
      (replicate n 1 ++ lead ++ [old]) ++ [w] := by simp
  have whole : (replicate n 1 ++ (lead ++ [old, w])).insertIdx
      ((replicate n 1 ++ (lead ++ [old, w])).length - 1) 1 =
        (replicate n 1 ++ lead) ++ [old, 1, w] := by
    have index : ((replicate n 1 ++ lead ++ [old]) ++ [w]).length - 1 =
        (replicate n 1 ++ lead ++ [old]).length := by simp
    rw [split, index, insertIdx_append, append_assoc]
    rfl
  have batchDims : ((replicate n 1 ++ lead) ++ [old, 1, w]).length - 3 =
      (replicate n 1 ++ lead).length := by
    simp only [length_append, length_cons, length_nil]
    omega
  simp only [diagShape, length, show ¬lead.length + 2 = 1 by omega, if_false, Nat.add_sub_cancel,
    isOld, other, missing, whole, batchDims, take_left, drop_left, missing_prod]

theorem diagShape_width {diagonal : TensorShape} (ne : diagonal ≠ []) (kDepth : Int) :
    (diagShape diagonal kDepth).getD 3 0 = diagonal.getLastD 0 := by
  obtain ⟨lead, old, w, pair, last⟩ : ∃ lead old w,
      diagShape diagonal kDepth = diagShape (lead ++ [old, w]) kDepth ∧
        diagonal.getLastD 0 = w := by
    obtain ⟨front, w, rfl⟩ : ∃ front w, diagonal = front ++ [w] :=
      ⟨_, _, (dropLast_concat_getLast ne).symm⟩
    cases front using reverseRecOn with
    | nil => exact ⟨[], 1, w, rfl, rfl⟩
    | append_singleton lead old => exact ⟨lead, old, w, by simp, by simp⟩
  rw [pair, last]
  by_cases same : kDepth = i32 old
  · obtain ⟨batch, channels, shape, -⟩ := diagShape_same lead w same
    rw [shape]
    rfl
  · rw [diagShape_other lead w same]
    rfl

structure DiagCall where
  diagonal : TensorShape
  band : Option Band
  align : Option Align
  init : Init
  accepted : initHelper diagonal band = .ok init
  runs : isNoOpKernel [diagonal] [init.outputShape] = false

namespace DiagCall

variable (c : DiagCall)

def rows : Nat := c.init.numRows

def cols : Nat := c.init.numCols

def kMin : Int := c.init.lowerDiagIndex

def kMax : Int := c.init.upperDiagIndex

def maxDiagLen : Nat := c.diagonal.getLastD 0

def shape : TensorShape := diagShape c.diagonal (i32 (c.kMax + 1 - c.kMin))

def outElements : Nat := c.init.outputShape.numElements

theorem helped : Helped c.diagonal c.init := helped_of_ok c.accepted

theorem nonempty : c.diagonal.numElements ≠ 0 ∧ c.outElements ≠ 0 := by
  have runs := c.runs
  rw [← Bool.not_eq_true, NoOpKernel.isNoOpKernel_iff] at runs
  simpa [outElements, not_or] using runs

theorem outElements_eq : c.outElements = c.init.leading.prod * (c.rows * c.cols) := by
  rw [outElements, Init.outputShape, TensorShape.numElements, prod_append, rows, cols]
  simp

theorem tall : 0 < c.rows ∧ 0 < c.cols := by
  have nonzero := c.nonempty.2
  rw [outElements_eq] at nonzero
  have product := right_ne_zero_of_mul nonzero
  exact ⟨Nat.pos_of_ne_zero (left_ne_zero_of_mul product),
    Nat.pos_of_ne_zero (right_ne_zero_of_mul product)⟩

theorem matrix_le : c.rows * c.cols ≤ c.outElements := by
  rw [outElements_eq]
  exact Nat.le_mul_of_pos_left _ (Nat.pos_of_ne_zero (left_ne_zero_of_mul
    (outElements_eq c ▸ c.nonempty.2)))

theorem reach (small : c.outElements < 2 ^ 32) : c.rows + c.cols ≤ 2 ^ 31 + 1 := by
  have product := lt_of_le_of_lt c.matrix_le small
  have rowsFit : c.rows < 2 ^ 31 := c.helped.rowsFit
  have colsFit : c.cols < 2 ^ 31 := c.helped.colsFit
  obtain ⟨tall, wide⟩ := c.tall
  by_cases single : c.rows = 1 ∨ c.cols = 1
  · omega
  · obtain ⟨r, rows_eq⟩ : ∃ r, c.rows = r + 2 := ⟨c.rows - 2, by omega⟩
    obtain ⟨s, cols_eq⟩ : ∃ s, c.cols = s + 2 := ⟨c.cols - 2, by omega⟩
    rw [rows_eq, cols_eq] at product ⊢
    have expand : (r + 2) * (s + 2) = r * s + 2 * (r + s) + 4 := by ring
    omega

end DiagCall

/-- An invocation with descriptors for its input and its output: without one, the process ends
    before `dml::MatrixDiag` is called. -/
structure DescribedCall extends DiagCall where
  inputDescribed : (create toDiagCall.shape toDiagCall.shape).isSome
  outputDescribed : (create [toDiagCall.outElements] [toDiagCall.outElements]).isSome

namespace DescribedCall

variable (c : DescribedCall)

/-- All accesses are inside the table, and no padding or slice has a negative size. -/
def Safe : Prop :=
  ∃ l, layout (c.shape.getD 2 0) (c.shape.getD 3 0) c.rows c.cols c.kMin c.kMax = some l ∧
    ∀ size ∈ l.sizes, 0 ≤ size

/-- The band is inside the matrix, with enough rows for the longest diagonal, and the last
    position in the table is an `int`. -/
structure Inside : Prop where
  above : -(c.rows : Int) < c.kMin
  below : c.kMax < c.cols
  enoughRows : (c.maxDiagLen : Int) - min c.kMax 0 ≤ c.rows
  fits : c.kMax + c.rows < 2 ^ 31 ∨ c.kMin < 0

theorem outElements_lt : c.outElements < 2 ^ 32 := by
  obtain ⟨desc, created⟩ := isSome_iff_exists.mp c.outputDescribed
  exact (create_self_eq_some.mp created).1.dims _ (mem_singleton.mpr rfl)

/-- The helper accepts some bands with which the table is read outside. -/
theorem safe_iff_inside : c.Safe ↔ c.Inside := by
  have helped := c.helped
  have rowsFit : c.rows < 2 ^ 31 := helped.rowsFit
  have colsFit : c.cols < 2 ^ 31 := helped.colsFit
  have reach := c.reach c.outElements_lt
  obtain ⟨tall, wide⟩ := c.tall
  have width : c.shape.getD 3 0 = c.maxDiagLen := diagShape_width helped.ne _
  rw [Safe, width]
  constructor
  · rintro ⟨l, laid, sizes⟩
    have below := below_of_layout tall wide rowsFit helped.upperFits laid
    have above := above_of_layout tall helped.ordered below rowsFit colsFit reach
      helped.lowerFits laid
    have inRange : InRange c.rows c.cols c.kMin c.kMax := ⟨tall, wide, helped.ordered, above, below⟩
    have fits := fits_of_layout inRange rowsFit colsFit reach laid
    rw [layout_eq inRange rowsFit colsFit reach fits, Option.some.injEq] at laid
    subst laid
    have before := (supStop_bounds inRange rowsFit fits).1
    exact ⟨above, below, (bandLayout_sizes inRange before).mp sizes, fits⟩
  · rintro ⟨above, below, enoughRows, fits⟩
    have inRange : InRange c.rows c.cols c.kMin c.kMax := ⟨tall, wide, helped.ordered, above, below⟩
    have before := (supStop_bounds inRange rowsFit fits).1
    exact ⟨_, layout_eq inRange rowsFit colsFit reach fits,
      (bandLayout_sizes inRange before).mpr enoughRows⟩

def sixBand : Band := ⟨⟨[2], [0, 5], rfl⟩, BitVec.ofInt 32 (-1), BitVec.ofInt 32 (-1)⟩

/-- Six diagonals with one element each, for an output with one row and one column. -/
def sixDiagonals : DescribedCall where
  diagonal := [6, 1]
  band := some sixBand
  align := none
  init := ⟨[], 1, 1, 0, 5⟩
  accepted := rfl
  runs := rfl
  inputDescribed := isSome_iff_exists.mpr
    ⟨_, create_self_eq_some.mpr ⟨⟨by decide, by decide⟩, rfl⟩⟩
  outputDescribed := rfl

theorem sixDiagonals_not_safe : ¬sixDiagonals.Safe := by
  rintro ⟨l, laid, -⟩
  exact absurd (below_of_layout (by decide) (by decide) (by decide) (by decide) laid) (by decide)

end DescribedCall

end TfDml.MatrixDiag
