import TfDml.Kernels.MatrixDiagPart

/-! # The indices of MatrixDiagPart

The index of an element of a diagonal in closed form. It is what is computed as long as no result
is beyond the arithmetic. The element of the padded matrix at the index is the one of the
diagonal, or padding for a position beyond it.
-/

namespace TfDml.MatrixDiagPart

open Lib List Option
open MatrixDiag (Attributes InRange diagLen maxLen diagLen_of_nonneg diagLen_of_nonpos
  diagLen_le_maxLen diagLen_nearest toNat_diagLen toNat_maxLen)

variable {α : Type}

section ClosedForms

variable (rows cols : Nat)

def exactBounds : Bounds where
  xlenp := cols + 1
  stride := cols + 1 + 1
  xmax := cols * (cols + 1) + (cols + 1) - 1
  ymax := (cols + 1) * rows - 1

variable (longest : Int) (k : Int) (n : Nat)

/-- How far a diagonal is moved if it is aligned to the right. -/
def offset : Int := (longest - diagLen rows cols k) * (cols + 1 + 1)

def xIndex (alignSupLeft : Bool) : Int :=
  let index : Int := k + (cols + 1 + 1) * n
  if alignSupLeft then min index ((exactBounds rows cols).xmax - k * (cols + 1))
  else if index - offset rows cols longest k < k then (exactBounds rows cols).ymax
  else index - offset rows cols longest k

def yIndex (alignSubLeft : Bool) : Int :=
  let start : Int := k.natAbs * (cols + 1)
  let index : Int := start + (cols + 1 + 1) * n
  if alignSubLeft then min index (exactBounds rows cols).ymax
  else if index - offset rows cols longest k < start then (exactBounds rows cols).ymax
  else index - offset rows cols longest k

end ClosedForms

section Arithmetic

variable {arith : Arithmetic} {ok : Int → Prop} (agrees : ∀ x, ok x → arith x = some x)
  {rows cols : Nat} {longest k : Int} {n : Nat}

structure BoundsFit (ok : Int → Prop) (rows cols : Nat) : Prop where
  xlenp : ok (cols + 1)
  stride : ok (cols + 1 + 1)
  xmax0 : ok (cols * (cols + 1))
  xmax1 : ok (cols * (cols + 1) + (cols + 1))
  xmax : ok (cols * (cols + 1) + (cols + 1) - 1)
  ymax0 : ok ((cols + 1) * rows)
  ymax : ok ((cols + 1) * rows - 1)

/-- The results that an index needs, on a diagonal that starts at the index `start`. -/
structure IndexFits (ok : Int → Prop) (rows cols : Nat) (longest k start : Int) (n : Nat) :
    Prop where
  distance : ok ((cols + 1 + 1) * n)
  first : ok start
  index : ok (start + (cols + 1 + 1) * n)
  move : ok (longest - diagLen rows cols k)
  offset : ok (offset rows cols longest k)
  aligned : ok (start + (cols + 1 + 1) * n - MatrixDiagPart.offset rows cols longest k)

include agrees

theorem bounds_eq (fits : BoundsFit ok rows cols) :
    bounds arith cols rows = some (exactBounds rows cols) := by
  simp only [bounds, agrees _ fits.xlenp, agrees _ fits.stride, agrees _ fits.xmax0,
    agrees _ fits.xmax1, agrees _ fits.xmax, agrees _ fits.ymax0, agrees _ fits.ymax,
    bind_eq_bind, bind_some, exactBounds]

theorem diagSize_of_nonneg (nat : 0 ≤ k) (fits : ok (cols - k)) :
    diagSize arith (min cols rows) cols (-k) = some (diagLen rows cols k) := by
  have length : min ((cols : Int) + -k) (min cols rows : Nat) = diagLen rows cols k := by
    rw [diagLen_of_nonneg rows cols nat]
    omega
  rw [diagSize, show (cols : Int) + -k = cols - k from rfl, agrees _ fits, bind_eq_bind,
    bind_some, ← length]
  rfl

theorem diagSize_of_nonpos (neg : k ≤ 0) (fits : ok (rows + k)) :
    diagSize arith (min cols rows) rows k = some (diagLen rows cols k) := by
  have length : min ((rows : Int) + k) (min cols rows : Nat) = diagLen rows cols k := by
    rw [diagLen_of_nonpos rows cols neg]
    omega
  rw [diagSize, agrees _ fits, bind_eq_bind, bind_some, ← length]

theorem rightAlign_eq {start maxval : Int}
    (fits : IndexFits ok rows cols longest k start n) :
    rightAlign arith longest (cols + 1 + 1) (diagLen rows cols k)
        (start + (cols + 1 + 1) * n) start maxval =
      some (if start + (cols + 1 + 1) * n - offset rows cols longest k < start then maxval
        else start + (cols + 1 + 1) * n - offset rows cols longest k) := by
  have move := agrees _ fits.offset
  have aligned := agrees _ fits.aligned
  rw [offset] at move aligned
  simp only [rightAlign, agrees _ fits.move, move, aligned, bind_eq_bind, bind_some, offset]
  rfl

theorem xdiag_eq (alignSupLeft : Bool) (nat : 0 ≤ k) (size : ok (cols - k))
    (fits : IndexFits ok rows cols longest k k n) (scaled : ok (k * (cols + 1)))
    (xmax : ok ((exactBounds rows cols).xmax - k * (cols + 1))) :
    xdiag arith (exactBounds rows cols) (min cols rows) cols longest alignSupLeft k n =
      some (xIndex rows cols longest k n alignSupLeft) := by
  have distance : arith ((exactBounds rows cols).stride * n) = _ := agrees _ fits.distance
  have index : arith (k + (exactBounds rows cols).stride * n) = _ := agrees _ fits.index
  have scaled' : arith (k * (exactBounds rows cols).xlenp) = _ := agrees _ scaled
  have bound : arith ((exactBounds rows cols).xmax - k * (exactBounds rows cols).xlenp) = _ :=
    agrees _ xmax
  simp only [xdiag, distance, index, bind_eq_bind, bind_some]
  cases alignSupLeft with
  | true =>
    rw [if_pos rfl, scaled', bind_some, bound]
    rfl
  | false =>
    rw [if_neg (by decide), diagSize_of_nonneg agrees nat size, bind_some]
    exact rightAlign_eq agrees fits

theorem ydiag_eq (alignSubLeft : Bool) (neg : k ≤ 0) (size : ok (rows + k))
    (fits : IndexFits ok rows cols longest k (k.natAbs * (cols + 1)) n) :
    ydiag arith (exactBounds rows cols) (min cols rows) rows longest alignSubLeft k n =
      some (yIndex rows cols longest k n alignSubLeft) := by
  have distance : arith ((exactBounds rows cols).stride * n) = _ := agrees _ fits.distance
  have start : arith (k.natAbs * (exactBounds rows cols).xlenp) = _ := agrees _ fits.first
  have index : arith (k.natAbs * (exactBounds rows cols).xlenp +
    (exactBounds rows cols).stride * n) = _ := agrees _ fits.index
  simp only [ydiag, distance, start, index, bind_eq_bind, bind_some]
  cases alignSubLeft with
  | true => rfl
  | false =>
    rw [if_neg (by decide), diagSize_of_nonpos agrees neg size, bind_some]
    exact rightAlign_eq agrees fits

end Arithmetic

def flatIndex (rows cols : Nat) (attr : Attributes) (longest k : Int) (n : Nat) : Int :=
  if 0 ≤ k then xIndex rows cols longest k n attr.alignSupLeft
  else yIndex rows cols longest k n attr.alignSubLeft

theorem descending_append (first : Int) (m n : Nat) :
    descending first m ++ descending (first - m) n = descending first (m + n) := by
  rw [descending, descending, descending, range_add, map_append, List.map_map]
  congr 1
  apply map_congr_left
  intro s _
  simp only [Function.comp_apply]
  omega

theorem mem_descending {first k : Int} {count : Nat} :
    k ∈ descending first count ↔ first - count < k ∧ k ≤ first := by
  rw [descending, List.mem_map]
  constructor
  · rintro ⟨s, less, rfl⟩
    rw [mem_range] at less
    omega
  · rintro ⟨above, below⟩
    exact ⟨(first - k).toNat, mem_range.mpr (by omega), by omega⟩

section Band

variable {rows cols : Nat} {k0 k1 : Int}

theorem descending_band (lt : k0 ≤ k1) : descending k1 (k1 - (max 0 k0 - 1)).toNat ++
      descending (min (-1) k1) (min (-1) k1 - (k0 - 1)).toNat =
        descending k1 (k1 + 1 - k0).toNat := by
  by_cases nat : 0 ≤ k0
  · rw [show (min (-1) k1 - (k0 - 1)).toNat = 0 by omega,
      show (k1 - (max 0 k0 - 1)).toNat = (k1 + 1 - k0).toNat by omega]
    exact append_nil _
  by_cases neg : k1 < 0
  · rw [show (k1 - (max 0 k0 - 1)).toNat = 0 by omega, show min (-1) k1 = k1 by omega,
      show (k1 - (k0 - 1)).toNat = (k1 + 1 - k0).toNat by omega]
    exact nil_append _
  · rw [show min (-1) k1 = k1 - (k1 - (max 0 k0 - 1)).toNat by omega, descending_append]
    congr 1
    omega

theorem max?_sizes (inRange : InRange rows cols k0 k1) :
    ((descending k1 (k1 + 1 - k0).toNat).map (diagLen rows cols)).max? =
      some (maxLen rows cols k0 k1) := by
  rw [max?_eq_some_iff]
  have lt := inRange.ordered
  constructor
  · rw [List.mem_map]
    exact ⟨max k0 (min 0 k1), mem_descending.mpr (by omega), diagLen_nearest lt⟩
  · intro length mem
    obtain ⟨k, inBand, rfl⟩ := List.mem_map.mp mem
    rw [mem_descending] at inBand
    exact diagLen_le_maxLen rows cols (by omega) inBand.2

structure Fits (ok : Int → Prop) (rows cols : Nat) (k0 k1 : Int) : Prop where
  bounds : BoundsFit ok rows cols
  xsize : ∀ k, k0 ≤ k → k ≤ k1 → 0 ≤ k → ok (cols - k)
  ysize : ∀ k, k0 ≤ k → k ≤ k1 → k < 0 → ok (rows + k)
  xindex : ∀ k, k0 ≤ k → k ≤ k1 → 0 ≤ k → ∀ n : Nat, n < maxLen rows cols k0 k1 →
    IndexFits ok rows cols (maxLen rows cols k0 k1) k k n
  xscaled : ∀ k, k0 ≤ k → k ≤ k1 → 0 ≤ k → ok (k * (cols + 1))
  xmax : ∀ k, k0 ≤ k → k ≤ k1 → 0 ≤ k → ok ((exactBounds rows cols).xmax - k * (cols + 1))
  yindex : ∀ k, k0 ≤ k → k ≤ k1 → k < 0 → ∀ n : Nat, n < maxLen rows cols k0 k1 →
    IndexFits ok rows cols (maxLen rows cols k0 k1) k (k.natAbs * (cols + 1)) n

theorem diagsIndices_eq {arith : Arithmetic} {ok : Int → Prop}
    (agrees : ∀ x, ok x → arith x = some x) (attr : Attributes)
    (inRange : InRange rows cols k0 k1) (fits : Fits ok rows cols k0 k1) :
    diagsIndices arith cols rows k0 k1 attr = some ((descending k1 (k1 + 1 - k0).toNat).map fun k =>
        (List.range (maxLen rows cols k0 k1).toNat).map
          (flatIndex rows cols attr (maxLen rows cols k0 k1) k)) := by
  have lt := inRange.ordered
  have band := descending_band lt
  generalize isSup : descending k1 (k1 - (max 0 k0 - 1)).toNat = sup at band
  generalize isSub : descending (min (-1) k1) (min (-1) k1 - (k0 - 1)).toNat = sub at band
  have supBand {k : Int} (mem : k ∈ sup) : k0 ≤ k ∧ k ≤ k1 ∧ 0 ≤ k := by
    rw [← isSup, mem_descending] at mem
    omega
  have subBand {k : Int} (mem : k ∈ sub) : k0 ≤ k ∧ k ≤ k1 ∧ k < 0 := by
    rw [← isSub, mem_descending] at mem
    omega
  have longest := toNat_maxLen inRange
  have xsize : sup.mapM (fun start => diagSize arith (min cols rows) cols (-start)) =
      some (sup.map (diagLen rows cols)) := mapM_eq_some fun k mem => by
    obtain ⟨above, below, nat⟩ := supBand mem
    exact diagSize_of_nonneg agrees nat (fits.xsize k above below nat)
  have ysize : sub.mapM (fun start => diagSize arith (min cols rows) rows start) =
      some (sub.map (diagLen rows cols)) := mapM_eq_some fun k mem => by
    obtain ⟨above, below, neg⟩ := subBand mem
    exact diagSize_of_nonpos agrees (Int.le_of_lt neg) (fits.ysize k above below neg)
  have xdiags : (sup.mapM fun start => (List.range (maxLen rows cols k0 k1).toNat).mapM
      (xdiag arith (exactBounds rows cols) (min cols rows) cols (maxLen rows cols k0 k1)
        attr.alignSupLeft start)) =
      some (sup.map fun k => (List.range (maxLen rows cols k0 k1).toNat).map
        (flatIndex rows cols attr (maxLen rows cols k0 k1) k)) := mapM_eq_some fun k mem => by
    obtain ⟨above, below, nat⟩ := supBand mem
    refine mapM_eq_some fun n less => ?_
    rw [mem_range] at less
    rw [flatIndex, if_pos nat]
    exact xdiag_eq agrees attr.alignSupLeft nat (fits.xsize k above below nat)
      (fits.xindex k above below nat n (by omega)) (fits.xscaled k above below nat)
      (fits.xmax k above below nat)
  have ydiags : (sub.mapM fun start => (List.range (maxLen rows cols k0 k1).toNat).mapM
      (ydiag arith (exactBounds rows cols) (min cols rows) rows (maxLen rows cols k0 k1)
        attr.alignSubLeft start)) =
      some (sub.map fun k => (List.range (maxLen rows cols k0 k1).toNat).map
        (flatIndex rows cols attr (maxLen rows cols k0 k1) k)) := mapM_eq_some fun k mem => by
    obtain ⟨above, below, neg⟩ := subBand mem
    refine mapM_eq_some fun n less => ?_
    rw [mem_range] at less
    rw [flatIndex, if_neg (Int.not_le.mpr neg)]
    exact ydiag_eq agrees attr.alignSubLeft (Int.le_of_lt neg)
      (fits.ysize k above below neg) (fits.yindex k above below neg n (by omega))
  simp only [diagsIndices, bounds_eq agrees fits.bounds, isSup, isSub, xsize, ysize, bind_eq_bind,
    bind_some, ← map_append, band, max?_sizes inRange, xdiags, ydiags]

end Band

def element (left : Bool) (longest length n : Nat) : Option Nat :=
  if left then if n < length then some n else none
  else if longest ≤ n + length then some (n + length - longest) else none

/-- An index in a padded matrix, for an element of the diagonal `k` or for padding. -/
def Selects (rows cols : Nat) (k : Int) (found : Option Nat) (p : Int) : Prop :=
  ∃ i j : Nat, p = i * (cols + 1) + j ∧ i ≤ rows ∧ j ≤ cols ∧ match found with
    | some m => i < rows ∧ j < cols ∧ (j : Int) - i = k ∧ min i j = m
    | none => i = rows ∨ j = cols

section Selection

variable {rows cols : Nat} {longest k : Int} {n : Nat}

theorem ymax_selects (tall : 0 < rows) (k : Int) :
    Selects rows cols k none (exactBounds rows cols).ymax := by
  refine ⟨rows - 1, cols, ?_, Nat.sub_le _ _, le_refl _, Or.inr rfl⟩
  obtain ⟨r, rfl⟩ : ∃ r, rows = r + 1 := ⟨rows - 1, by omega⟩
  simp only [exactBounds, Nat.add_sub_cancel]
  push_cast
  ring

theorem superdiagonal_selects (m : Nat) (nat : 0 ≤ k) (lt : m < diagLen rows cols k) :
    Selects rows cols k (some m) (k + (cols + 1 + 1) * m) := by
  rw [diagLen_of_nonneg rows cols nat] at lt
  refine ⟨m, m + k.toNat, ?_, by omega, by omega, by omega, by omega, by omega, by omega⟩
  push_cast
  rw [Int.toNat_of_nonneg nat]
  ring

theorem subdiagonal_selects (m : Nat) (neg : k ≤ 0) (lt : m < diagLen rows cols k) :
    Selects rows cols k (some m) (k.natAbs * (cols + 1) + (cols + 1 + 1) * m) := by
  rw [diagLen_of_nonpos rows cols neg] at lt
  refine ⟨m + k.natAbs, m, ?_, by omega, by omega, by omega, by omega, by omega, by omega⟩
  push_cast
  ring

theorem right_selects {base length : Int} (tall : 0 < rows) (nat : 0 ≤ length)
    (less : n < longest) (selects : ∀ m : Nat, (m : Int) < length →
      Selects rows cols k (some m) (base + (cols + 1 + 1) * m)) :
    Selects rows cols k (element false longest.toNat length.toNat n)
      (if base + (cols + 1 + 1) * (n + length - longest) < base then (exactBounds rows cols).ymax
        else base + (cols + 1 + 1) * (n + length - longest)) := by
  rw [element, if_neg (by decide)]
  by_cases lt : longest ≤ n + length
  · have product : 0 ≤ ((cols : Int) + 1 + 1) * (n + length - longest) :=
      Int.mul_nonneg (by omega) (by omega)
    have position : (n : Int) + length - longest = (n + length.toNat - longest.toNat : Nat) := by
      omega
    rw [if_neg (Int.not_lt.mpr (Int.le_add_of_nonneg_right product)),
      if_pos (show longest.toNat ≤ n + length.toNat by omega), position]
    exact selects _ (by omega)
  · have product : ((cols : Int) + 1 + 1) * (n + length - longest) < 0 :=
      Int.mul_neg_of_pos_of_neg (by omega) (by omega)
    rw [if_pos (add_lt_of_neg_right _ product),
      if_neg (show ¬longest.toNat ≤ n + length.toNat by omega)]
    exact ymax_selects tall k

theorem xIndex_selects (alignSupLeft : Bool) (tall : 0 < rows) (nat : 0 ≤ k) (below : k < cols)
    (length : diagLen rows cols k ≤ longest) (shorter : longest ≤ min (rows : Int) cols)
    (less : n < longest) : Selects rows cols k
      (element alignSupLeft longest.toNat (diagLen rows cols k).toNat n)
      (xIndex rows cols longest k n alignSupLeft) := by
  have isLength := toNat_diagLen (show -(rows : Int) < k by omega) below
  have index : k + ((cols : Int) + 1 + 1) * n = n * (cols + 1) + (n + k) := by ring
  cases alignSupLeft with
  | true =>
    have bound : (exactBounds rows cols).xmax - k * (cols + 1) =
        (cols - k) * (cols + 1) + cols := by
      simp only [exactBounds]
      ring
    rw [xIndex, if_pos rfl, bound, element, if_pos rfl]
    by_cases lt : (n : Int) < diagLen rows cols k
    · rw [if_pos (by omega)]
      have smaller : k + ((cols : Int) + 1 + 1) * n ≤ (cols - k) * (cols + 1) + cols := by
        rw [diagLen_of_nonneg rows cols nat] at lt
        have product : (n : Int) * (cols + 1) ≤ (cols - k) * (cols + 1) :=
          Int.mul_le_mul_of_nonneg_right (by omega) (by omega)
        omega
      rw [min_eq_left smaller]
      exact superdiagonal_selects n nat lt
    · rw [if_neg (by omega)]
      rw [diagLen_of_nonneg rows cols nat] at lt
      have larger : (cols - k) * (cols + 1) + cols ≤ k + ((cols : Int) + 1 + 1) * n := by
        have product : (cols - k) * (cols + 1) ≤ (n : Int) * (cols + 1) :=
          Int.mul_le_mul_of_nonneg_right (by omega) (by omega)
        omega
      rw [min_eq_right larger]
      refine ⟨(cols - k).toNat, cols, ?_, by omega, le_refl _, Or.inr rfl⟩
      rw [Int.toNat_of_nonneg (by omega)]
  | false =>
    have moved : k + ((cols : Int) + 1 + 1) * n - offset rows cols longest k =
        k + (cols + 1 + 1) * (n + diagLen rows cols k - longest) := by
      rw [offset]
      ring
    rw [xIndex, if_neg (by decide), moved]
    exact right_selects tall (by omega) less fun m lt => superdiagonal_selects m nat lt

theorem yIndex_selects (alignSubLeft : Bool) (neg : k ≤ 0) (above : -(rows : Int) < k)
    (wide : 0 < cols) (shorter : longest ≤ min (rows : Int) cols) (less : n < longest) :
    Selects rows cols k
      (element alignSubLeft longest.toNat (diagLen rows cols k).toNat n)
      (yIndex rows cols longest k n alignSubLeft) := by
  have tall : 0 < rows := by omega
  have isLength := toNat_diagLen above (show k < cols by omega)
  have distance : (k.natAbs : Int) = -k := by omega
  cases alignSubLeft with
  | true =>
    have bound : (exactBounds rows cols).ymax = (rows - 1) * (cols + 1) + cols := by
      simp only [exactBounds]
      ring
    have index : (k.natAbs : Int) * (cols + 1) + (cols + 1 + 1) * n = (n - k) * (cols + 1) + n := by
      rw [distance]
      ring
    rw [yIndex, if_pos rfl, element, if_pos rfl]
    by_cases lt : (n : Int) < diagLen rows cols k
    · rw [if_pos (by omega)]
      have smaller : (k.natAbs : Int) * (cols + 1) + (cols + 1 + 1) * n ≤
          (exactBounds rows cols).ymax := by
        rw [diagLen_of_nonpos rows cols neg] at lt
        have product : ((n : Int) - k) * (cols + 1) ≤ (rows - 1) * (cols + 1) :=
          Int.mul_le_mul_of_nonneg_right (by omega) (by omega)
        omega
      rw [min_eq_left smaller]
      exact subdiagonal_selects n neg lt
    · rw [if_neg (by omega)]
      have larger : (exactBounds rows cols).ymax ≤
          (k.natAbs : Int) * (cols + 1) + (cols + 1 + 1) * n := by
        rw [diagLen_of_nonpos rows cols neg] at lt
        have product : (rows : Int) * (cols + 1) ≤ (n - k) * (cols + 1) :=
          Int.mul_le_mul_of_nonneg_right (by omega) (by omega)
        have one : (rows : Int) * (cols + 1) = (rows - 1) * (cols + 1) + (cols + 1) := by ring
        omega
      rw [min_eq_right larger]
      exact ymax_selects tall k
  | false =>
    have moved : (k.natAbs : Int) * (cols + 1) + (cols + 1 + 1) * n - offset rows cols longest k =
        k.natAbs * (cols + 1) + (cols + 1 + 1) * (n + diagLen rows cols k - longest) := by
      rw [offset]
      ring
    rw [yIndex, if_neg (by decide), moved]
    exact right_selects tall (by omega) less fun m lt => subdiagonal_selects m neg lt

def alignLeft (attr : Attributes) (k : Int) : Bool :=
  if 0 ≤ k then attr.alignSupLeft else attr.alignSubLeft

theorem flatIndex_selects {k0 k1 : Int} (attr : Attributes) (inRange : InRange rows cols k0 k1)
    (above : k0 ≤ k) (below : k ≤ k1) (less : n < maxLen rows cols k0 k1) : Selects rows cols k
      (element (alignLeft attr k) (maxLen rows cols k0 k1).toNat (diagLen rows cols k).toNat n)
      (flatIndex rows cols attr (maxLen rows cols k0 k1) k n) := by
  have length := diagLen_le_maxLen rows cols above below
  have shorter : maxLen rows cols k0 k1 ≤ min (rows : Int) cols := by
    rw [maxLen]
    omega
  obtain ⟨tall, wide, lt, first, last⟩ := inRange
  rw [alignLeft, flatIndex]
  split
  case isTrue nat => exact xIndex_selects _ tall nat (by omega) length shorter less
  case isFalse neg => exact yIndex_selects _ (by omega) (by omega) wide shorter less

end Selection

end TfDml.MatrixDiagPart
