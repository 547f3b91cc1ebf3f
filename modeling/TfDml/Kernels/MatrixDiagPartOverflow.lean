import TfDml.Kernels.MatrixDiagPartReference

/-! # MatrixDiagPart in 32 bits

The bounds of the indices have the square of the number of columns, whatever the number of rows
is. The indices are those without a bound if and only if this square, the padded matrix without
its last row and the largest index of a subdiagonal are `int32_t`.
-/

namespace TfDml.MatrixDiagPart

open Lib Option
open MatrixDiag (Attributes InRange diagLen maxLen diagLen_of_nonneg diagLen_of_nonpos
  diagLen_le_maxLen toNat_diagLen toNat_maxLen)
open StridedSlice (i32 i32_of_bounds)

def IsInt32 (x : Int) : Prop := -2 ^ 31 ≤ x ∧ x < 2 ^ 31

theorem checked_eq_some {x y : Int} : checked x = some y ↔ IsInt32 x ∧ y = x := by
  rw [checked, ite_none_right_eq_some, Option.some.injEq, eq_comm (a := x)]
  rfl

theorem checked_of_isInt32 (x : Int) (fits : IsInt32 x) : checked x = some x :=
  checked_eq_some.mpr ⟨fits, rfl⟩

theorem wrapping_of_isInt32 (x : Int) (fits : IsInt32 x) : wrapping x = some x :=
  congrArg some (i32_of_bounds fits.1 fits.2)

section Runs

variable {rows cols : Nat} {k0 k1 : Int} {attr : Attributes}

theorem bounds_checked {b : Bounds} (made : bounds checked cols rows = some b) :
    BoundsFit IsInt32 rows cols ∧ b = exactBounds rows cols := by
  simp only [bounds, bind_eq_bind, bind_eq_some_iff, checked_eq_some, Option.some.injEq] at made
  obtain ⟨_, ⟨xlenp, rfl⟩, _, ⟨stride, rfl⟩, _, ⟨xmax0, rfl⟩, _, ⟨xmax1, rfl⟩, _, ⟨xmax, rfl⟩, _,
    ⟨ymax0, rfl⟩, _, ⟨ymax, rfl⟩, rfl⟩ := made
  exact ⟨⟨xlenp, stride, xmax0, xmax1, xmax, ymax0, ymax⟩, rfl⟩

theorem lowest_checked (inRange : InRange rows cols k0 k1) (rowsFit : rows < 2 ^ 31)
    (colsFit : cols < 2 ^ 31) (neg : k0 < 0) {indices : List (List Int)}
    (made : diagsIndices checked cols rows k0 k1 attr = some indices) :
    IsInt32 (k0.natAbs * (cols + 1) +
      (cols + 1 + 1) * ((maxLen rows cols k0 k1).toNat - 1 : Nat)) := by
  have lt := inRange.ordered
  have band := descending_band lt
  have long := toNat_maxLen inRange
  have pos : 0 < maxLen rows cols k0 k1 := by
    obtain ⟨tall, wide, -, above, below⟩ := inRange
    rw [maxLen]
    omega
  simp only [diagsIndices, bind_eq_bind, bind_eq_some_iff] at made
  obtain ⟨b, isBounds, xsize, isXsize, ysize, isYsize, maxsize, isMaxsize, xdiags, -, ydiags,
    isYdiags, -⟩ := made
  obtain ⟨-, rfl⟩ := bounds_checked isBounds
  have xsize_eq : xsize = (descending k1 (k1 - (max 0 k0 - 1)).toNat).map (diagLen rows cols) := by
    refine some.inj (isXsize.symm.trans (mapM_eq_some fun k mem => ?_))
    rw [mem_descending] at mem
    have above := inRange.above
    exact diagSize_of_nonneg checked_of_isInt32 (by omega) ⟨by have := inRange.below; omega,
      by omega⟩
  have ysize_eq : ysize = (descending (min (-1) k1) (min (-1) k1 - (k0 - 1)).toNat).map
      (diagLen rows cols) := by
    refine some.inj (isYsize.symm.trans (mapM_eq_some fun k mem => ?_))
    rw [mem_descending] at mem
    exact diagSize_of_nonpos checked_of_isInt32 (by omega) ⟨by have := inRange.above; omega,
      by omega⟩
  rw [xsize_eq, ysize_eq, ← List.map_append, band, max?_sizes inRange, Option.some.injEq]
    at isMaxsize
  subst isMaxsize
  have mem : k0 ∈ descending (min (-1) k1) (min (-1) k1 - (k0 - 1)).toNat := by
    rw [mem_descending]
    omega
  obtain ⟨row, isRow⟩ := exists_of_mapM isYdiags mem
  have last : (maxLen rows cols k0 k1).toNat - 1 ∈ List.range (maxLen rows cols k0 k1).toNat := by
    rw [List.mem_range]
    omega
  obtain ⟨p, isIndex⟩ := exists_of_mapM isRow last
  simp only [ydiag, bind_eq_bind, bind_eq_some_iff, checked_eq_some] at isIndex
  obtain ⟨_, ⟨-, rfl⟩, _, ⟨-, rfl⟩, _, ⟨fits, -⟩, -⟩ := isIndex
  exact fits

end Runs

section Fits

variable {rows cols : Nat} {k0 k1 : Int}

/-- What has to be an `int32_t` beyond the number of elements. -/
structure Representable (rows cols : Nat) (k0 k1 : Int) : Prop where
  /-- For `xmax`. -/
  xmax : (cols + 1) * (cols + 1) < 2 ^ 31
  /-- For `ymax`. -/
  ymax : (cols + 1) * rows < 2 ^ 31
  /-- For the last element of the lowest diagonal in `ydiags`, before it is bounded. -/
  ydiags : k0 < 0 →
    k0.natAbs * (cols + 1) + (cols + 2) * ((maxLen rows cols k0 k1).toNat - 1) < 2 ^ 31

theorem boundsFit_of_representable (representable : Representable rows cols k0 k1)
    (tall : 0 < rows) : BoundsFit IsInt32 rows cols := by
  obtain ⟨square, height, -⟩ := representable
  have width : cols + 1 ≤ (cols + 1) * (cols + 1) := Nat.le_mul_of_pos_left _ (Nat.succ_pos _)
  have least : cols + 1 ≤ (cols + 1) * rows := Nat.le_mul_of_pos_right _ tall
  have expand : (cols + 1) * (cols + 1) = cols * (cols + 1) + (cols + 1) := by ring
  have xmax : (cols : Int) * (cols + 1) = (cols * (cols + 1) : Nat) := by push_cast; ring
  have ymax : ((cols : Int) + 1) * rows = ((cols + 1) * rows : Nat) := by push_cast; ring
  refine ⟨?_, ?_, ?_, ?_, ?_, ?_, ?_⟩
  · exact ⟨by omega, by omega⟩
  · by_cases single : cols = 0
    · subst single
      exact ⟨by omega, by omega⟩
    · have two : (cols + 1) * 2 ≤ (cols + 1) * (cols + 1) := Nat.mul_le_mul_left _ (by omega)
      exact ⟨by omega, by omega⟩
  · rw [xmax]
    exact ⟨by omega, by omega⟩
  · rw [xmax]
    exact ⟨by omega, by omega⟩
  · rw [xmax]
    exact ⟨by omega, by omega⟩
  · rw [ymax]
    exact ⟨by omega, by omega⟩
  · rw [ymax]
    exact ⟨by omega, by omega⟩

theorem indexFits_of_bound {long k : Int} {start last n : Nat}
    (length : 0 < diagLen rows cols k) (shorter : diagLen rows cols k ≤ long)
    (isLast : (last : Int) = long - 1) (less : (n : Int) < long)
    (reach : start + (cols + 2) * last < 2 ^ 31) : IndexFits IsInt32 rows cols long k start n := by
  obtain ⟨move, isMove⟩ := Int.eq_ofNat_of_zero_le (Int.sub_nonneg_of_le shorter)
  have smallMove : move ≤ last := by omega
  have distance := Nat.mul_le_mul_left (cols + 2) (show n ≤ last by omega)
  have moved := Nat.mul_le_mul_left (cols + 2) smallMove
  have least : move ≤ (cols + 2) * move := Nat.le_mul_of_pos_left _ (Nat.succ_pos _)
  have isDistance : ((cols : Int) + 1 + 1) * n = ((cols + 2) * n : Nat) := by push_cast; ring
  have isOffset : offset rows cols long k = ((cols + 2) * move : Nat) := by
    rw [offset, isMove]
    push_cast
    ring
  refine ⟨?_, ?_, ?_, ?_, ?_, ?_⟩
  · rw [isDistance]
    exact ⟨by omega, by omega⟩
  · exact ⟨by omega, by omega⟩
  · rw [isDistance]
    exact ⟨by omega, by omega⟩
  · rw [isMove]
    exact ⟨by omega, by omega⟩
  · rw [isOffset]
    exact ⟨by omega, by omega⟩
  · rw [isDistance, isOffset]
    exact ⟨by omega, by omega⟩

theorem fits_of_representable (inRange : InRange rows cols k0 k1)
    (representable : Representable rows cols k0 k1) : Fits IsInt32 rows cols k0 k1 := by
  have bounds := boundsFit_of_representable representable inRange.tall
  obtain ⟨square, height, lowest⟩ := representable
  have lt := inRange.ordered
  have long := toNat_maxLen inRange
  have length {k : Int} (above : k0 ≤ k) (below : k ≤ k1) :
      0 < diagLen rows cols k ∧ diagLen rows cols k ≤ maxLen rows cols k0 k1 := by
    refine ⟨?_, diagLen_le_maxLen rows cols above below⟩
    obtain ⟨tall, wide, -, first, last⟩ := inRange
    rw [diagLen]
    omega
  have shorter : (maxLen rows cols k0 k1).toNat ≤ cols := by
    rw [maxLen]
    omega
  have pos : 0 < (maxLen rows cols k0 k1).toNat := by
    have both := length (Int.le_refl k0) lt
    omega
  obtain ⟨last, isLast⟩ : ∃ last, (maxLen rows cols k0 k1).toNat = last + 1 :=
    ⟨(maxLen rows cols k0 k1).toNat - 1, by omega⟩
  rw [isLast, Nat.add_sub_cancel] at lowest
  have rowsFit : rows < 2 ^ 31 :=
    lt_of_le_of_lt (Nat.le_mul_of_pos_left _ (Nat.succ_pos cols)) height
  have colsFit : cols + 1 < 2 ^ 31 :=
    lt_of_le_of_lt (Nat.le_mul_of_pos_left _ (Nat.succ_pos cols)) square
  have first := inRange.above
  have final := inRange.below
  -- A superdiagonal starts in the first row.
  have xreach {k : Nat} (below : (k : Int) ≤ k1) : k + (cols + 2) * last < 2 ^ 31 := by
    have product := Nat.mul_le_mul_left (cols + 2) (show last ≤ cols - 1 by omega)
    obtain ⟨c, isCols⟩ : ∃ c, cols = c + 1 := ⟨cols - 1, by have := inRange.wide; omega⟩
    rw [isCols, Nat.add_sub_cancel] at product
    rw [isCols] at square ⊢
    have expand : (c + 1 + 1) * (c + 1 + 1) = (c + 1 + 2) * c + (c + 4) := by ring
    omega
  -- The row of a subdiagonal is at most the lowest one.
  have yreach {k : Int} (above : k0 ≤ k) (neg : k < 0) :
      k.natAbs * (cols + 1) + (cols + 2) * last < 2 ^ 31 := by
    have product := Nat.mul_le_mul_right (cols + 1) (show k.natAbs ≤ k0.natAbs by omega)
    have reach := lowest (by omega)
    omega
  refine ⟨bounds, fun k above below nat => ⟨by omega, by omega⟩,
    fun k above below neg => ⟨by omega, by omega⟩, fun k above below nat n less => ?_,
    fun k above below nat => ?_, fun k above below nat => ?_, fun k above below neg n less => ?_⟩
  · obtain ⟨start, rfl⟩ := Int.eq_ofNat_of_zero_le nat
    obtain ⟨some_, le⟩ := length above below
    exact indexFits_of_bound some_ le (by omega) less (xreach below)
  · obtain ⟨start, rfl⟩ := Int.eq_ofNat_of_zero_le nat
    have product := Nat.mul_le_mul_right (cols + 1) (show start ≤ cols + 1 by omega)
    rw [show (start : Int) * (cols + 1) = (start * (cols + 1) : Nat) by push_cast; ring]
    exact ⟨by omega, by omega⟩
  · obtain ⟨start, rfl⟩ := Int.eq_ofNat_of_zero_le nat
    have product := Nat.mul_le_mul_right (cols + 1) (show start ≤ cols by omega)
    have difference : (exactBounds rows cols).xmax - start * (cols + 1) =
        ((cols + 1) * (cols + 1) : Nat) - 1 - (start * (cols + 1) : Nat) := by
      simp only [exactBounds]
      push_cast
      ring
    have expand : (cols + 1) * (cols + 1) = cols * (cols + 1) + (cols + 1) := by ring
    rw [difference]
    exact ⟨by omega, by omega⟩
  · obtain ⟨some_, le⟩ := length above below
    have fits := indexFits_of_bound some_ le (by omega) less (yreach above neg)
    rwa [show ((k.natAbs * (cols + 1) : Nat) : Int) = k.natAbs * (cols + 1) by push_cast; ring]
      at fits

end Fits

structure SmallCall extends PartCall where
  small : toPartCall.rows * toPartCall.cols < 2 ^ 31

namespace SmallCall

variable (c : SmallCall)

/-- No result is beyond 32 bits, so that the indices are those without a bound. -/
def NoOverflow : Prop :=
  (diagsIndices checked c.cols c.rows c.k0 c.k1 c.attr).isSome = true ∧
    diagsIndices wrapping c.cols c.rows c.k0 c.k1 c.attr =
      diagsIndices exact c.cols c.rows c.k0 c.k1 c.attr

theorem xmax_of_noOverflow (noOverflow : c.NoOverflow) : (c.cols + 1) * (c.cols + 1) < 2 ^ 31 := by
  obtain ⟨indices, made⟩ := isSome_iff_exists.mp noOverflow.1
  simp only [diagsIndices, bind_eq_bind, bind_eq_some_iff] at made
  obtain ⟨b, isBounds, -⟩ := made
  have fits := (bounds_checked isBounds).1.xmax1.2
  rw [show (c.cols : Int) * (c.cols + 1) + (c.cols + 1) = ((c.cols + 1) * (c.cols + 1) : Nat) by
    push_cast; ring] at fits
  exact_mod_cast fits

theorem representable_of_noOverflow (noOverflow : c.NoOverflow) :
    Representable c.rows c.cols c.k0 c.k1 := by
  have square := c.xmax_of_noOverflow noOverflow
  obtain ⟨indices, made⟩ := isSome_iff_exists.mp noOverflow.1
  obtain ⟨-, tall, wide⟩ := c.positive
  have lt := c.small
  have rowsFit : c.rows < 2 ^ 31 := lt_of_le_of_lt (Nat.le_mul_of_pos_right _ wide) lt
  have colsFit : c.cols < 2 ^ 31 := lt_of_le_of_lt (Nat.le_mul_of_pos_left _ tall) lt
  refine ⟨square, ?_, fun neg => ?_⟩
  · have unfolded := made
    simp only [diagsIndices, bind_eq_bind, bind_eq_some_iff] at unfolded
    obtain ⟨b, isBounds, -⟩ := unfolded
    have fits := (bounds_checked isBounds).1.ymax0.2
    rw [show ((c.cols : Int) + 1) * c.rows = ((c.cols + 1) * c.rows : Nat) by push_cast; ring]
      at fits
    exact_mod_cast fits
  · have fits := (lowest_checked c.inRange rowsFit colsFit neg made).2
    have isIndex : (c.k0.natAbs : Int) * (c.cols + 1) +
        (c.cols + 1 + 1) * ((maxLen c.rows c.cols c.k0 c.k1).toNat - 1 : Nat) =
        (c.k0.natAbs * (c.cols + 1) +
          (c.cols + 2) * ((maxLen c.rows c.cols c.k0 c.k1).toNat - 1) : Nat) := by
      push_cast
      ring
    rw [isIndex] at fits
    exact_mod_cast fits

theorem noOverflow_of_representable (representable : Representable c.rows c.cols c.k0 c.k1) :
    c.NoOverflow := by
  have fits := fits_of_representable c.inRange representable
  have agrees (x : Int) : True → exact x = some x := fun _ => rfl
  rw [NoOverflow, diagsIndices_eq checked_of_isInt32 c.attr c.inRange fits,
    diagsIndices_eq wrapping_of_isInt32 c.attr c.inRange fits,
    diagsIndices_eq agrees c.attr c.inRange (fits_exact _ _ _ _)]
  exact ⟨rfl, rfl⟩

theorem noOverflow_iff_representable : c.NoOverflow ↔ Representable c.rows c.cols c.k0 c.k1 :=
  ⟨c.representable_of_noOverflow, c.noOverflow_of_representable⟩

def wideRow : SmallCall where
  input := [1, 46341]
  diagIndex := none
  align := none
  init := ⟨[1], 0, 0⟩
  accepted := rfl
  runs := rfl
  sized := by decide
  small := by decide

theorem wideRow_not_noOverflow : ¬wideRow.NoOverflow := fun noOverflow =>
  absurd (wideRow.xmax_of_noOverflow noOverflow) (by decide)

end SmallCall

end TfDml.MatrixDiagPart
