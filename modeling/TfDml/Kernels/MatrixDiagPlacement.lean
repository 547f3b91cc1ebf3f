import TfDml.Kernels.MatrixDiagBand
import TfDml.Kernels.MatrixDiagGraph

/-! # Where MatrixDiag puts an element

The element of a matrix in row `i` and column `j` is on the diagonal `j - i`. The graph puts it
there unless the band starts below the main diagonal and the matrix is too tall: then all
diagonals are too far on the right.
-/

namespace TfDml.MatrixDiag

open Lib Option
open NoOpKernel (isNoOpKernel)
open StridedSlice (i32 i32_of_bounds)

variable {α : Type}

section Lengths

variable {rows cols : Nat} {kMin kMax : Int}

theorem kLens_spec (tall : 0 < rows) (wide : 0 < cols) {lens : Rows Int}
    (made : kLens (min rows cols) (max rows cols - min rows cols) = some lens) :
    2 ≤ min rows cols ∧ lens.count = 1 ∧ lens.width = rows + cols - 1 ∧
      ∀ k : Int, -(rows : Int) < k → k < cols →
        lens.entry 0 (k + rows - 1).toNat = diagLen rows cols k := by
  simp only [kLens, bind_eq_bind, bind_eq_some_iff, sequence_eq_some,
    scalarTensor_eq_some, tensor_eq_some] at made
  obtain ⟨_, ⟨⟨many, -⟩, rfl⟩, _, ⟨-, rfl⟩, _, ⟨-, rfl⟩, -, rfl⟩ := made
  refine ⟨by omega, rfl, ?_, fun k above below => ?_⟩
  · simp only [Rows.beside]
    omega
  · have length : diagLen rows cols k = min (k + rows) (min (min (rows : Int) cols) (cols - k)) := by
      rcases le_total 0 k with superdiagonal | subdiagonal
      · rw [diagLen_of_nonneg rows cols superdiagonal]
        omega
      · rw [diagLen_of_nonpos rows cols subdiagonal]
        omega
    rw [length]
    rcases le_total rows cols with broad | narrow
    · simp only [Rows.beside, min_eq_left broad, max_eq_right broad]
      split_ifs
      · omega
      · omega
      · omega
    · simp only [Rows.beside, min_eq_right narrow, max_eq_left narrow]
      split_ifs
      · omega
      · omega
      · omega

theorem kLens_some (many : 2 ≤ min rows cols) (lt : rows + cols ≤ 2 ^ 32) :
    ∃ lens, kLens (min rows cols) (max rows cols - min rows cols) = some lens := by
  simp only [kLens, bind_eq_bind, bind_eq_some_iff, sequence_eq_some,
    scalarTensor_eq_some, tensor_eq_some]
  refine ⟨_, _, ⟨⟨by omega, by omega⟩, rfl⟩, _, ⟨⟨by omega, by omega⟩, rfl⟩, _,
    ⟨⟨by omega, by omega⟩, rfl⟩, ?_, rfl⟩
  simp only [Rows.beside, Rows.size]
  omega

/-- The graph has the lengths of the diagonals if the matrix has several rows and columns. -/
def Available (rows cols : Nat) (lens : Option (Rows Int)) : Prop :=
  ∃ row, lens = some row ∧ row.count = 1 ∧ row.width = rows + cols - 1 ∧
    ∀ k : Int, -(rows : Int) < k → k < cols → row.entry 0 (k + rows - 1).toNat = diagLen rows cols k

theorem available_of_ne_none (tall : 0 < rows) (wide : 0 < cols)
    (made : kLens (min rows cols) (max rows cols - min rows cols) ≠ none) :
    Available rows cols (kLens (min rows cols) (max rows cols - min rows cols)) := by
  obtain ⟨lens, isMade⟩ := ne_none_iff_exists'.mp made
  exact ⟨lens, isMade, (kLens_spec tall wide isMade).2⟩

theorem available_kLens (many : 2 ≤ min rows cols) (lt : rows + cols ≤ 2 ^ 32) :
    Available rows cols (kLens (min rows cols) (max rows cols - min rows cols)) := by
  obtain ⟨lens, made⟩ := kLens_some many lt
  exact available_of_ne_none (by omega) (by omega) (ne_none_iff_exists'.mpr ⟨lens, made⟩)

def revLen1 (rows cols diagWidth : Nat) (attr : Attributes) (k : Int) : Int :=
  if 0 ≤ k then if attr.alignSupLeft then 1 else diagWidth
  else if attr.alignSubLeft then diagLen rows cols k else 1

def revLen2 (rows cols diagWidth : Nat) (attr : Attributes) (k : Int) : Int :=
  if 0 ≤ k then if attr.alignSupLeft then 1 else diagLen rows cols k
  else if attr.alignSubLeft then diagWidth else 1

structure RevLens (rows cols diagWidth : Nat) (attr : Attributes) (k : Int) (count : Nat)
    (lens : Rows Int × Rows Int) : Prop where
  count1 : lens.1.count = 1
  count2 : lens.2.count = 1
  width1 : lens.1.width = count
  width2 : lens.2.width = count
  entry1 : ∀ j < count, lens.1.entry 0 j = revLen1 rows cols diagWidth attr (k + j)
  entry2 : ∀ j < count, lens.2.entry 0 j = revLen2 rows cols diagWidth attr (k + j)

variable {lens : Option (Rows Int)} {diagWidth : Nat} {attr : Attributes} {k : Int} {count : Nat}

theorem revLens_some (keep : Bool) (diagWidth : Nat) (pos : 0 < count) (above : -(rows : Int) < k)
    (below : k + count ≤ cols) (lt : count < 2 ^ 32)
    (available : keep = false → Available rows cols lens) :
    ∃ full partly, revLens lens keep diagWidth (k + rows - 1).toNat count = some (full, partly) ∧
      full.count = 1 ∧ full.width = count ∧ partly.count = 1 ∧ partly.width = count ∧
      ∀ j < count, full.entry 0 j = (if keep then 1 else (diagWidth : Int)) ∧
        partly.entry 0 j = if keep then 1 else diagLen rows cols (k + j) := by
  cases keep with
  | true =>
    refine ⟨⟨1, count, fun _ _ => 1⟩, ⟨1, count, fun _ _ => 1⟩, ?_, rfl, rfl, rfl, rfl,
      fun j less => ⟨rfl, rfl⟩⟩
    have ones : scalarTensor 1 1 count = some ⟨1, count, fun _ _ => 1⟩ :=
      scalarTensor_eq_some.mpr ⟨by omega, rfl⟩
    simp [revLens, ones]
  | false =>
    obtain ⟨row, rfl, isRow, width, entry⟩ := available rfl
    have full : scalarTensor diagWidth 1 count = some ⟨1, count, fun _ _ => (diagWidth : Int)⟩ :=
      scalarTensor_eq_some.mpr ⟨by omega, rfl⟩
    have partly : sliceColumns row (k + rows - 1).toNat count =
        some (row.columns (k + rows - 1).toNat count) :=
      sliceColumns_eq_some.mpr ⟨⟨by omega, by rw [isRow]; omega, by rw [isRow]; omega⟩, rfl⟩
    refine ⟨⟨1, count, fun _ _ => diagWidth⟩, row.columns (k + rows - 1).toNat count, ?_, rfl,
      rfl, isRow, rfl, fun j less => ⟨rfl, ?_⟩⟩
    · simp only [revLens, Bool.false_eq_true, if_false, full, partly, bind_eq_bind, bind_some]
    · rw [if_neg (by decide), ← entry _ (by omega) (by omega)]
      simp only [Rows.columns]
      congr 1
      omega

theorem sup_revLens (diagWidth : Nat) (k : Int) (count : Nat) (pos : 0 < count) (nat : 0 ≤ k) (above : -(rows : Int) < k)
    (below : k + count ≤ cols) (lt : count < 2 ^ 32)
    (available : attr.alignSupLeft = false → Available rows cols lens) :
    ∃ made, revLens lens attr.alignSupLeft diagWidth (k + rows - 1).toNat count = some made ∧
      RevLens rows cols diagWidth attr k count made := by
  obtain ⟨full, partly, made, count1, width1, count2, width2, xs⟩ :=
    revLens_some attr.alignSupLeft diagWidth pos above below lt available
  refine ⟨(full, partly), made, count1, count2, width1, width2, fun j less => ?_, fun j less => ?_⟩
  · rw [(xs j less).1, revLen1, if_pos (show 0 ≤ k + (j : Int) by omega)]
  · rw [(xs j less).2, revLen2, if_pos (show 0 ≤ k + (j : Int) by omega)]

theorem sub_revLens (diagWidth : Nat) (k : Int) (count : Nat) (pos : 0 < count) (above : -(rows : Int) < k) (neg : k + count ≤ 0)
    (lt : count < 2 ^ 32) (available : attr.alignSubLeft = true → Available rows cols lens) :
    ∃ made, revLens lens (!attr.alignSubLeft) diagWidth (k + rows - 1).toNat count = some made ∧
      RevLens rows cols diagWidth attr k count made.swap := by
  obtain ⟨full, partly, made, count1, width1, count2, width2, xs⟩ :=
    revLens_some (!attr.alignSubLeft) diagWidth pos above (by omega : k + count ≤ cols) lt
      (by simpa using available)
  refine ⟨(full, partly), made, count2, count1, width2, width1, fun j less => ?_, fun j less => ?_⟩
  · rw [Prod.fst_swap, (xs j less).2, revLen1, if_neg (show ¬0 ≤ k + (j : Int) by omega)]
    cases attr.alignSubLeft with
    | true => rfl
    | false => rfl
  · rw [Prod.snd_swap, (xs j less).1, revLen2, if_neg (show ¬0 ≤ k + (j : Int) by omega)]
    cases attr.alignSubLeft with
    | true => rfl
    | false => rfl

theorem RevLens.beside {m n : Nat} {sub sup : Rows Int × Rows Int}
    (first : RevLens rows cols diagWidth attr k m sub)
    (snd : RevLens rows cols diagWidth attr (k + m) n sup) :
    RevLens rows cols diagWidth attr k (m + n) (sub.1.beside sup.1, sub.2.beside sup.2) := by
  have position {j : Nat} (beyond : ¬j < m) : k + (m : Int) + (j - m : Nat) = k + j := by omega
  refine ⟨first.count1, first.count2, ?_, ?_, fun j less => ?_, fun j less => ?_⟩
  · simp only [Rows.beside, first.width1, snd.width1]
  · simp only [Rows.beside, first.width2, snd.width2]
  · simp only [Rows.beside, first.width1]
    split
    case isTrue lt => exact first.entry1 j lt
    case isFalse beyond => rw [snd.entry1 _ (by omega), position beyond]
  · simp only [Rows.beside, first.width2]
    split
    case isTrue lt => exact first.entry2 j lt
    case isFalse beyond => rw [snd.entry2 _ (by omega), position beyond]

section Cases

variable (lens attr diagWidth) (diagDepth : Nat) {l : Layout}

theorem cntRevLens_superdiagonals (none_ : l.kSubLen = 0) : cntRevLens lens attr diagWidth l =
      revLens lens attr.alignSupLeft diagWidth l.kSupStt.toNat l.kSupLen.toNat := by
  rw [cntRevLens, if_pos none_]

theorem cntRevLens_subdiagonals (some_ : l.kSubLen ≠ 0) (none_ : l.kSupLen = 0) :
    cntRevLens lens attr diagWidth l =
      (revLens lens (!attr.alignSubLeft) diagWidth l.kSubStt.toNat l.kSubLen.toNat).map
        Prod.swap := by
  rw [cntRevLens, if_neg some_, if_pos none_, map_eq_bind]
  rfl

theorem cntRevLens_across (some_ : l.kSubLen ≠ 0) (some' : l.kSupLen ≠ 0)
    {sub sup : Rows Int × Rows Int}
    (isSub : revLens lens (!attr.alignSubLeft) diagWidth l.kSubStt.toNat l.kSubLen.toNat = some sub)
    (isSup : revLens lens attr.alignSupLeft diagWidth l.kSupStt.toNat l.kSupLen.toNat = some sup) :
    cntRevLens lens attr diagWidth l = do
      return (← tensor (sub.2.beside sup.1), ← tensor (sub.1.beside sup.2)) := by
  rw [cntRevLens, if_neg some_, if_neg some', isSub, isSup]
  rfl

end Cases

theorem cntRevLens_some (diagDepth : Nat) (inRange : InRange rows cols kMin kMax)
    (small : rows + cols ≤ 2 ^ 32)
    (subAvailable : attr.alignSubLeft = true → kMin < 0 → Available rows cols lens)
    (supAvailable : attr.alignSupLeft = false → 0 ≤ kMax → Available rows cols lens) :
    ∃ made, cntRevLens lens attr diagWidth
        (bandLayout diagDepth diagWidth rows cols kMin kMax (kMax + 1)) = some made ∧
      RevLens rows cols diagWidth attr kMin (kMax + 1 - kMin).toNat made := by
  obtain ⟨tall, wide, lt, above, below⟩ := inRange
  by_cases nat : 0 ≤ kMin
  · have noSub : max 0 (min 0 (kMax + 1) - kMin) = 0 := by omega
    have supStt : max 0 kMin + rows - 1 = kMin + rows - 1 := by rw [max_eq_right nat]
    have supLen : max 0 (kMax + 1 - max 0 kMin) = kMax + 1 - kMin := by omega
    rw [cntRevLens_superdiagonals _ _ _ noSub]
    simp only [bandLayout, supStt, supLen]
    exact sup_revLens diagWidth kMin _ (by omega) nat above (by omega) (by omega)
      fun right => supAvailable right (by omega)
  by_cases neg : kMax < 0
  · have subLen : max 0 (min 0 (kMax + 1) - kMin) = kMax + 1 - kMin := by omega
    have some_ : max 0 (min 0 (kMax + 1) - kMin) ≠ 0 := by rw [subLen]; omega
    have noSup : max 0 (kMax + 1 - max 0 kMin) = 0 := by omega
    obtain ⟨made, isMade, lengths⟩ := sub_revLens diagWidth kMin (kMax + 1 - kMin).toNat
      (by omega) above (by omega) (by omega) fun left => subAvailable left (by omega)
    rw [cntRevLens_subdiagonals _ _ _ some_ noSup]
    simp only [bandLayout, subLen, isMade]
    exact ⟨made.swap, rfl, lengths⟩
  · have subLen : max 0 (min 0 (kMax + 1) - kMin) = -kMin := by omega
    have subSome : max 0 (min 0 (kMax + 1) - kMin) ≠ 0 := by rw [subLen]; omega
    have supStt : max 0 kMin = 0 := max_eq_left (by omega)
    have supLen : max 0 (kMax + 1 - max 0 kMin) = kMax + 1 := by rw [supStt]; omega
    have supSome : max 0 (kMax + 1 - max 0 kMin) ≠ 0 := by rw [supLen]; omega
    obtain ⟨sub, isSub, subLengths⟩ := sub_revLens diagWidth kMin (-kMin).toNat (by omega) above
      (by omega) (by omega) fun left => subAvailable left (by omega)
    obtain ⟨sup, isSup, supLengths⟩ := sup_revLens diagWidth 0 (kMax + 1).toNat (by omega)
      (Int.le_refl 0) (by omega : -(rows : Int) < 0) (by omega : 0 + ((kMax + 1).toNat : Int) ≤ cols)
      (by omega) fun right => supAvailable right (by omega)
    rw [show (0 : Int) = kMin + (-kMin).toNat by omega] at supLengths
    have lengths := subLengths.beside supLengths
    rw [show (-kMin).toNat + (kMax + 1).toNat = (kMax + 1 - kMin).toNat by omega] at lengths
    have first : (sub.2.beside sup.1).size = (kMax + 1 - kMin).toNat :=
      (congrArg₂ (· * ·) lengths.count1 lengths.width1).trans (one_mul _)
    have snd : (sub.1.beside sup.2).size = (kMax + 1 - kMin).toNat :=
      (congrArg₂ (· * ·) lengths.count2 lengths.width2).trans (one_mul _)
    rw [cntRevLens_across _ _ _ subSome supSome
      (by simp only [bandLayout, subLen]; exact isSub)
      (by simp only [bandLayout, supLen]; simp only [supStt]; exact isSup)]
    refine ⟨_, ?_, lengths⟩
    simp only [bind_eq_bind, bind_eq_some_iff, tensor_eq_some]
    exact ⟨_, ⟨by omega, rfl⟩, _, ⟨by omega, rfl⟩, rfl⟩

theorem revLens_none (diagWidth start : Nat) : revLens none false diagWidth start count = none := by
  simp only [revLens, Bool.false_eq_true, if_false, bind_eq_bind, bind_none, bind_fun_none]

theorem ne_none_of_cntRevLens {l : Layout} {made : Rows Int × Rows Int}
    (isMade : cntRevLens lens attr diagWidth l = some made)
    (needed : attr.alignSubLeft = true ∧ l.kSubLen ≠ 0 ∨
      attr.alignSupLeft = false ∧ l.kSupLen ≠ 0) : lens ≠ none := by
  rintro rfl
  by_cases noSub : l.kSubLen = 0
  · obtain ⟨right, -⟩ := needed.resolve_left fun left => left.2 noSub
    rw [cntRevLens_superdiagonals _ _ _ noSub, right, revLens_none] at isMade
    cases isMade
  by_cases noSup : l.kSupLen = 0
  · obtain ⟨left, -⟩ := needed.resolve_right fun right => right.2 noSup
    rw [cntRevLens_subdiagonals _ _ _ noSub noSup, left, Bool.not_true, revLens_none] at isMade
    cases isMade
  rw [cntRevLens, if_neg noSub, if_neg noSup] at isMade
  simp only [bind_eq_bind, bind_eq_some_iff] at isMade
  obtain ⟨_, isSub, _, isSup, -⟩ := isMade
  rcases needed with ⟨left, -⟩ | ⟨right, -⟩
  · rw [left, Bool.not_true, revLens_none] at isSub
    cases isSub
  · rw [right, revLens_none] at isSup
    cases isSup

theorem revLens_of_cntRevLens {diagDepth : Nat} (inRange : InRange rows cols kMin kMax)
    (small : rows + cols ≤ 2 ^ 32) {made : Rows Int × Rows Int}
    (isMade : cntRevLens (kLens (min rows cols) (max rows cols - min rows cols)) attr diagWidth
      (bandLayout diagDepth diagWidth rows cols kMin kMax (kMax + 1)) = some made) :
    RevLens rows cols diagWidth attr kMin (kMax + 1 - kMin).toNat made := by
  have lt := inRange.ordered
  have subSome (neg : kMin < 0) : max 0 (min 0 (kMax + 1) - kMin) ≠ 0 := by omega
  have supSome (nat : 0 ≤ kMax) : max 0 (kMax + 1 - max 0 kMin) ≠ 0 := by omega
  obtain ⟨made', isMade', lengths⟩ : ∃ made', _ = some made' ∧ _ :=
    cntRevLens_some diagDepth inRange small
      (fun left neg => available_of_ne_none inRange.tall inRange.wide
        (ne_none_of_cntRevLens isMade (Or.inl ⟨left, subSome neg⟩)))
      (fun right nat => available_of_ne_none inRange.tall inRange.wide
        (ne_none_of_cntRevLens isMade (Or.inr ⟨right, supSome nat⟩)))
  rw [isMade] at isMade'
  rwa [some.inj isMade']

end Lengths

section Matrices

variable {rows cols batches diagDepth : Nat} {kMin kMax : Int} {attr : Attributes}
  {diag out : Rows α} {value : α}

theorem steps_of_matrixDiag
    (made : matrixDiag diag batches diagDepth kMin kMax value rows cols attr = some out) :
    ∃ l lens sorted left right sheared, layout diagDepth diag.width rows cols kMin kMax = some l ∧
      (∀ size ∈ l.sizes, 0 ≤ size) ∧
      cntRevLens (kLens (min rows cols) (max rows cols - min rows cols)) attr diag.width l =
        some lens ∧ sortedDiag diag lens.1 lens.2 = some sorted ∧
      padLeft (sorted.transpose diagDepth) value batches diag.width l.topPad.toNat
        l.rightPad.toNat = some left ∧
      padRight left batches diag.width l.btmPad.toNat l.rightPad.toNat = some right ∧
      rev2 right batches diagDepth diag.width l.btmPad.toNat = some sheared ∧
      l.diagonalizeWidth.toNat ≤ sheared.width ∧
      out = (sheared.columns 0 l.diagonalizeWidth.toNat).surround value diag.width l.padTop.toNat
        l.padLft.toNat l.padBtm.toNat l.padRht.toNat := by
  simp only [matrixDiag, bind_eq_bind, bind_eq_some_iff] at made
  obtain ⟨l, laid, made⟩ := made
  split at made
  case isFalse => cases made
  case isTrue sizes =>
    simp only [bind_eq_some_iff, tensor_eq_some, sliceColumns_eq_some] at made
    obtain ⟨lens, isLens, sorted, isSorted, _, ⟨-, rfl⟩, left, isLeft, right, isRight, sheared,
      isSheared, _, ⟨⟨lt, -⟩, rfl⟩, -, rfl⟩ := made
    refine ⟨l, lens, sorted, left, right, sheared, laid, ?_, isLens, isSorted, isLeft, isRight,
      isSheared, by omega, rfl⟩
    simpa using sizes

theorem layout_fields {diagWidth : Nat} {l : Layout}
    (laid : layout diagDepth diagWidth rows cols kMin kMax = some l) :
    l.rightPad = l.btmPad + diagWidth ∧ l.padTop = max 0 (-kMax) ∧ l.padLft = max 0 kMin ∧
      l.padBtm = rows - diagWidth - max 0 (-kMax) ∧
      l.padRht = cols - l.diagonalizeWidth - max 0 kMin := by
  simp only [layout, bind_eq_bind, bind_eq_some_iff] at laid
  obtain ⟨_, -, _, -, _, -, _, -, _, -, _, -, _, -, isLayout⟩ := laid
  obtain rfl := some.inj isLayout
  exact ⟨rfl, rfl, rfl, rfl, rfl⟩

/-- An element of the matrix, in the rows that are sorted. -/
def placed (sorted : Rows α) (value : α) (diagDepth diagWidth topPad btmPad b p q : Nat) : α :=
  if p ≤ q + btmPad ∧ q + btmPad < diagDepth + p ∧
      topPad + q + btmPad + 1 < diagDepth + diagWidth then
    sorted.entry (b * diagDepth + (diagDepth + p - btmPad - 1 - q)) p
  else value

theorem matrixDiag_entry (pos : 0 < diag.width) (depth : 0 < diagDepth)
    (count : diag.count = batches * diagDepth) (some_ : 0 < batches)
    (made : matrixDiag diag batches diagDepth kMin kMax value rows cols attr = some out) :
    ∃ l lens sorted, layout diagDepth diag.width rows cols kMin kMax = some l ∧
      (∀ size ∈ l.sizes, 0 ≤ size) ∧
      cntRevLens (kLens (min rows cols) (max rows cols - min rows cols)) attr diag.width l =
        some lens ∧ sortedDiag diag lens.1 lens.2 = some sorted ∧
      batches * diag.width * (l.topPad.toNat + diagDepth + l.rightPad.toNat) < 2 ^ 32 ∧
      out.count = batches * rows ∧ out.width = cols ∧
      ∀ b, ∀ i < rows, ∀ j < cols, out.entry (b * rows + i) j =
        if l.padTop.toNat ≤ i ∧ i < l.padTop.toNat + diag.width ∧ l.padLft.toNat ≤ j ∧
            j < l.padLft.toNat + l.diagonalizeWidth.toNat then
          placed sorted value diagDepth diag.width l.topPad.toNat l.btmPad.toNat b
            (i - l.padTop.toNat) (j - l.padLft.toNat)
        else value := by
  obtain ⟨l, lens, sorted, left, right, sheared, laid, sizes, isLens, isSorted, isLeft, isRight,
    isSheared, lt, rfl⟩ := steps_of_matrixDiag made
  obtain ⟨sortedCount, sortedWidth⟩ := sortedDiag_spec isSorted
  obtain ⟨rightPad, padTop, padLft, padBtm, padRht⟩ := layout_fields laid
  have tranCount : (sorted.transpose diagDepth).count = batches * diag.width := by
    simp only [Rows.transpose, sortedCount, sortedWidth, count, Nat.mul_div_cancel _ depth]
  have nat : 0 ≤ l.topPad ∧ 0 ≤ l.btmPad ∧ 0 ≤ l.diagonalizeWidth ∧ 0 ≤ l.padBtm ∧
      0 ≤ l.padRht := by
    simp only [Layout.sizes, List.forall_mem_cons] at sizes
    exact ⟨sizes.2.2.1, sizes.2.2.2.1, sizes.2.2.2.2.2.2.2.1, sizes.2.2.2.2.2.2.2.2.2.2.1,
      sizes.2.2.2.2.2.2.2.2.2.2.2.1⟩
  obtain ⟨shearedCount, shearedWidth, shearedEntry⟩ := sheared_entry pos
    (tranCount ▸ mul_pos some_ pos) (by omega) isLeft isRight isSheared
  have small := (padLeft_spec pos isLeft).1
  rw [tranCount] at small
  have height : l.padTop.toNat + diag.width + l.padBtm.toNat = rows := by omega
  refine ⟨l, lens, sorted, laid, sizes, isLens, isSorted, small, ?_, ?_, ?_⟩
  · simp only [Rows.surround, Rows.columns, height, shearedCount, tranCount,
      Nat.mul_div_cancel _ pos]
  · simp only [Rows.surround, Rows.columns]
    omega
  · intro b i row j column
    have position : b * rows + i =
        b * (l.padTop.toNat + diag.width + l.padBtm.toNat) + i := by rw [height]
    have columns : (sheared.columns 0 l.diagonalizeWidth.toNat).width =
        l.diagonalizeWidth.toNat := rfl
    rw [position, Rows.surround_entry _ _ _ _ (by omega), columns]
    by_cases covered : l.padTop.toNat ≤ i ∧ i < l.padTop.toNat + diag.width ∧ l.padLft.toNat ≤ j ∧
        j < l.padLft.toNat + l.diagonalizeWidth.toNat
    · have less : i - l.padTop.toNat < diag.width := by omega
      have inRow : (b * diag.width + (i - l.padTop.toNat)) % diag.width = i - l.padTop.toNat :=
        Nat.mul_add_mod_of_lt less
      have matrix : (b * diag.width + (i - l.padTop.toNat)) / diag.width = b := by
        rw [add_comm, Nat.add_mul_div_right _ _ pos, Nat.div_eq_of_lt less, zero_add]
      rw [if_pos covered, if_pos covered]
      change sheared.entry _ (0 + (j - l.padLft.toNat)) = _
      rw [zero_add, shearedEntry _ _ (by omega), placed, inRow,
        Rows.transpose_entry _ _ _ _ (sortedWidth ▸ pos), sortedWidth, inRow, matrix]
      rfl
    · rw [if_neg covered, if_neg covered]

theorem maxLen_sub_diagLen (lt : kMin ≤ kMax) :
    maxLen rows cols kMin kMax - diagLen rows cols kMin ≤ kMax - kMin := by
  have first : min kMax 0 - min kMin 0 ≤ kMax - kMin := by omega
  rw [maxLen, diagLen]
  generalize min kMax 0 = upper at *
  generalize min kMin 0 = lower at *
  generalize (cols : Int) - max kMin 0 = columns
  omega

theorem band_lengths {diagWidth : Nat} {lens : Rows Int × Rows Int} (pos : 0 < diagWidth)
    (inRange : InRange rows cols kMin kMax) (long : maxLen rows cols kMin kMax ≤ diagWidth)
    (lengths : RevLens rows cols diagWidth attr kMin (kMax + 1 - kMin).toNat lens) :
    BandLengths lens.1 (kMax + 1 - kMin).toNat diagWidth ∧
      BandLengths lens.2 (kMax + 1 - kMin).toNat diagWidth := by
  have length (s : Nat) (less : s < (kMax + 1 - kMin).toNat) :
      0 ≤ diagLen rows cols (kMin + s) ∧ diagLen rows cols (kMin + s) ≤ diagWidth := by
    have below := diagLen_le_maxLen rows cols
      (by omega : kMin ≤ kMin + s) (by omega : kMin + s ≤ kMax)
    obtain ⟨tall, wide, lt, above, top⟩ := inRange
    have nat := @toNat_diagLen rows cols (kMin + s) (by omega) (by omega)
    omega
  refine ⟨⟨lengths.count1, lengths.width1, fun s less => ?_⟩,
    ⟨lengths.count2, lengths.width2, fun s less => ?_⟩⟩
  · have bounds := length s less
    rw [lengths.entry1 s less, revLen1]
    split_ifs
    all_goals omega
  · have bounds := length s less
    rw [lengths.entry2 s less, revLen2]
    split_ifs
    all_goals omega

/-- The padding at the top and the one at the bottom, with the diagonals between them. -/
def paddedWidth (rows cols diagWidth : Nat) (kMin kMax : Int) : Int :=
  (maxLen rows cols kMin kMax - diagLen rows cols kMax) + (kMax + 1 - kMin) +
    (maxLen rows cols kMin kMax - diagLen rows cols kMin + diagWidth)

theorem newWidth_bounds {diagWidth : Nat} (inRange : InRange rows cols kMin kMax)
    (long : maxLen rows cols kMin kMax ≤ diagWidth) :
    0 < min (rows + kMax) (cols : Int) - max 0 kMin ∧
      min (rows + kMax) (cols : Int) - max 0 kMin ≤ kMax + 1 - kMin + diagWidth ∧
      min (rows + kMax) (cols : Int) ≤ cols := by
  obtain ⟨tall, wide, lt, above, below⟩ := inRange
  rw [maxLen] at long
  omega

theorem bandLayout_pads (diagWidth : Nat) (lt : InRange rows cols kMin kMax) :
    ∃ topPad btmPad : Nat,
      (bandLayout diagDepth diagWidth rows cols kMin kMax (kMax + 1)).topPad = topPad ∧
      (bandLayout diagDepth diagWidth rows cols kMin kMax (kMax + 1)).btmPad = btmPad ∧
      (bandLayout diagDepth diagWidth rows cols kMin kMax (kMax + 1)).rightPad =
        (btmPad + diagWidth : Nat) ∧
      (topPad : Int) = maxLen rows cols kMin kMax - diagLen rows cols kMax ∧
      (btmPad : Int) = maxLen rows cols kMin kMax - diagLen rows cols kMin := by
  have top := diagLen_le_maxLen rows cols lt.ordered (Int.le_refl kMax)
  have btm := diagLen_le_maxLen rows cols (Int.le_refl kMin) lt.ordered
  refine ⟨_, _, ?_, ?_, ?_, Int.toNat_of_nonneg (Int.sub_nonneg_of_le top),
    Int.toNat_of_nonneg (Int.sub_nonneg_of_le btm)⟩
  · simp only [bandLayout, Int.add_sub_cancel]
    omega
  · simp only [bandLayout, Int.add_sub_cancel]
    omega
  · simp only [bandLayout, Int.add_sub_cancel]
    omega

theorem matrixDiag_some (inRange : InRange rows cols kMin kMax) (rowsFit : rows < 2 ^ 31)
    (colsFit : cols < 2 ^ 31) (reach : rows + cols ≤ 2 ^ 31 + 1) (fits : kMax + rows < 2 ^ 31)
    (enoughRows : (diag.width : Int) - min kMax 0 ≤ rows) (pos : 0 < diag.width)
    (some_ : 0 < batches) (depth : (diagDepth : Int) = kMax + 1 - kMin)
    (count : diag.count = batches * diagDepth)
    (long : maxLen rows cols kMin kMax ≤ diag.width)
    (subAvailable : attr.alignSubLeft = true → kMin < 0 → 2 ≤ min rows cols)
    (supAvailable : attr.alignSupLeft = false → 0 ≤ kMax → 2 ≤ min rows cols)
    (padded : (batches * diag.width : Nat) * paddedWidth rows cols diag.width kMin kMax < 2 ^ 32)
    (output : batches * rows * cols < 2 ^ 32) :
    ∃ out, matrixDiag diag batches diagDepth kMin kMax value rows cols attr = some out := by
  have ordered := inRange.ordered
  have laid : layout diagDepth diag.width rows cols kMin kMax =
      some (bandLayout diagDepth diag.width rows cols kMin kMax (kMax + 1)) := by
    rw [layout_eq inRange rowsFit colsFit reach (Or.inl fits), supStop, if_pos fits]
  have sizes : ∀ size ∈ (bandLayout diagDepth diag.width rows cols kMin kMax (kMax + 1)).sizes,
      0 ≤ size := (bandLayout_sizes inRange (by omega)).mpr enoughRows
  obtain ⟨lens, isLens, lengths⟩ : ∃ lens, cntRevLens _ attr diag.width _ = some lens ∧ _ :=
    cntRevLens_some diagDepth inRange (by omega)
      (fun left neg => available_kLens (subAvailable left neg) (by omega))
      (fun right nat => available_kLens (supAvailable right nat) (by omega))
  obtain ⟨first, snd⟩ := band_lengths pos inRange long lengths
  rw [show (kMax + 1 - kMin).toNat = diagDepth by omega] at first snd
  obtain ⟨topPad, btmPad, isTop, isBtm, isRight, top, btm⟩ :
    ∃ topPad btmPad : Nat, (bandLayout diagDepth diag.width _ _ _ _ _).topPad = topPad ∧ _ :=
    bandLayout_pads diag.width inRange
  have isWidth : (bandLayout diagDepth diag.width rows cols kMin kMax (kMax + 1)).diagonalizeWidth =
      min (rows + kMax) cols - max 0 kMin := newWidth_eq inRange
  have isSurround :
      (bandLayout diagDepth diag.width rows cols kMin kMax (kMax + 1)).padTop = max 0 (-kMax) ∧
      (bandLayout diagDepth diag.width rows cols kMin kMax (kMax + 1)).padLft = max 0 kMin ∧
      (bandLayout diagDepth diag.width rows cols kMin kMax (kMax + 1)).padBtm =
        rows - diag.width - max 0 (-kMax) ∧
      (bandLayout diagDepth diag.width rows cols kMin kMax (kMax + 1)).padRht =
        cols - (min (rows + kMax) cols - max 0 kMin) - max 0 kMin := by
    obtain ⟨-, padTop, padLft, padBtm, padRht⟩ := layout_fields laid
    exact ⟨padTop, padLft, padBtm, isWidth ▸ padRht⟩
  generalize bandLayout diagDepth diag.width rows cols kMin kMax (kMax + 1) = l at *
  have small : batches * diag.width * (topPad + diagDepth + (btmPad + diag.width)) < 2 ^ 32 := by
    have width : paddedWidth rows cols diag.width kMin kMax =
        (topPad + diagDepth + (btmPad + diag.width) : Nat) := by
      rw [paddedWidth, ← top, ← btm, ← depth]
      omega
    rw [width] at padded
    exact_mod_cast padded
  have topLen : 0 ≤ diagLen rows cols kMax := by
    have nat := @toNat_diagLen rows cols kMax (by have := inRange.above; omega) inRange.below
    omega
  have bottom := @maxLen_sub_diagLen rows cols kMin kMax ordered
  have lt {width : Nat} (le : width ≤ topPad + diagDepth + (btmPad + diag.width)) :
      batches * diag.width * width < 2 ^ 32 :=
    lt_of_le_of_lt (Nat.mul_le_mul_left _ le) small
  have xs : batches * diagDepth ≤ batches * diag.width * diagDepth :=
    Nat.mul_le_mul_right _ (Nat.le_mul_of_pos_right _ pos)
  have transposed : batches * diag.width * diagDepth < 2 ^ 32 := lt (by omega)
  obtain ⟨sorted, isSorted⟩ : ∃ sorted, sortedDiag diag lens.1 lens.2 = some sorted :=
    ⟨_, sortedDiag_some some_ (by omega) count first snd (by omega)⟩
  obtain ⟨sortedCount, sortedWidth⟩ := sortedDiag_spec isSorted
  have tranCount : (sorted.transpose diagDepth).count = batches * diag.width := by
    simp only [Rows.transpose, sortedCount, sortedWidth, count,
      Nat.mul_div_cancel _ (by omega : 0 < diagDepth)]
  have rowsPositive : 0 < batches * diag.width := mul_pos some_ pos
  have isTran : tensor (sorted.transpose diagDepth) = some (sorted.transpose diagDepth) := by
    rw [tensor_eq_some, Rows.size, tranCount]
    exact ⟨⟨mul_pos rowsPositive (by omega : 0 < diagDepth), transposed⟩, rfl⟩
  obtain ⟨left, right, sheared, isLeft, isRight', isSheared⟩ := sheared_some value pos some_
    tranCount rfl (by omega : topPad ≤ btmPad + diag.width) (by omega : btmPad < diagDepth)
    (by rw [tranCount]; exact small)
  obtain ⟨shearedCount, shearedWidth, -⟩ := sheared_entry pos (by omega) rfl isLeft isRight'
    isSheared
  have isSliced : sliceColumns sheared 0 l.diagonalizeWidth.toNat =
      some (sheared.columns 0 l.diagonalizeWidth.toNat) := by
    have covered := newWidth_bounds inRange long
    have width : (sorted.transpose diagDepth).width = diagDepth := rfl
    have fit : l.diagonalizeWidth.toNat ≤ diagDepth + diag.width := by omega
    rw [sliceColumns_eq_some, shearedCount, shearedWidth, tranCount, width]
    exact ⟨⟨by omega, mul_pos rowsPositive (by omega), lt (by omega)⟩, rfl⟩
  refine ⟨(sheared.columns 0 l.diagonalizeWidth.toNat).surround value diag.width l.padTop.toNat
    l.padLft.toNat l.padBtm.toNat l.padRht.toNat, ?_⟩
  simp only [matrixDiag, bind_eq_bind, laid, bind_some]
  rw [if_pos (by simpa using sizes)]
  simp only [isLens, bind_some, isSorted, isTran, isTop, isBtm, isRight, Int.toNat_natCast,
    isLeft, isRight']
  rw [show rev2 right batches diagDepth diag.width btmPad = some sheared from isSheared,
    bind_some, isSliced, bind_some, tensor_eq_some]
  refine ⟨?_, rfl⟩
  have height : l.padTop.toNat + diag.width + l.padBtm.toNat = rows := by omega
  have width : l.padLft.toNat + l.diagonalizeWidth.toNat + l.padRht.toNat = cols := by
    have covered := newWidth_bounds inRange long
    omega
  simp only [Rows.size, Rows.surround, Rows.columns, height, width, shearedCount, tranCount,
    Nat.mul_div_cancel _ pos]
  exact ⟨mul_pos (mul_pos some_ inRange.tall) inRange.wide, output⟩

theorem sorted_entry {lens : Rows Int × Rows Int} {sorted : Rows α} (some_ : 0 < batches)
    (inRange : InRange rows cols kMin kMax) (depth : (diagDepth : Int) = kMax + 1 - kMin)
    (count : diag.count = batches * diagDepth) (small : diag.count < 2 ^ 32)
    (long : maxLen rows cols kMin kMax ≤ diag.width) (pos : 0 < diag.width)
    (lengths : RevLens rows cols diag.width attr kMin diagDepth lens)
    (isSorted : sortedDiag diag lens.1 lens.2 = some sorted) {k : Int} (above : kMin ≤ k)
    (below : k ≤ kMax) {length n : Nat} (isLength : (length : Int) = diagLen rows cols k)
    (lt : n < length) (b : Nat) : sorted.entry (b * diagDepth + (kMax - k).toNat)
        (if 0 ≤ k then n else n + diag.width - length) =
      diag.entry (b * diagDepth + (kMax - k).toNat)
        (if (if 0 ≤ k then attr.alignSupLeft else attr.alignSubLeft) then n
          else n + diag.width - length) := by
  have isDepth : (kMax + 1 - kMin).toNat = diagDepth := by omega
  obtain ⟨first, snd⟩ := band_lengths pos inRange long (isDepth.symm ▸ lengths)
  rw [isDepth] at first snd
  have most : length ≤ diag.width := by
    have := diagLen_le_maxLen rows cols above below
    omega
  have row : (b * diagDepth + (kMax - k).toNat) % diagDepth = (kMax - k).toNat :=
    Nat.mul_add_mod_of_lt (by omega)
  have bottom : kMin + (diagDepth - 1 - (kMax - k).toNat : Nat) = k := by omega
  have length1 := lengths.entry1 (diagDepth - 1 - (kMax - k).toNat) (by omega)
  have length2 := lengths.entry2 (diagDepth - 1 - (kMax - k).toNat) (by omega)
  rw [bottom, revLen1, ← isLength] at length1
  rw [bottom, revLen2, ← isLength] at length2
  rw [sortedDiag_some some_ (by omega) count first snd small] at isSorted
  obtain rfl := some.inj isSorted
  generalize isFirst : (fun i => (lens.1.entry 0 (diagDepth - 1 - i % diagDepth)).toNat) = f1
  generalize isSecond : (fun i => (lens.2.entry 0 (diagDepth - 1 - i % diagDepth)).toNat) = f2
  have value1 : f1 (b * diagDepth + (kMax - k).toNat) =
      (lens.1.entry 0 (diagDepth - 1 - (kMax - k).toNat)).toNat := by
    simp only [← isFirst, row]
  have value2 : f2 (b * diagDepth + (kMax - k).toNat) =
      (lens.2.entry 0 (diagDepth - 1 - (kMax - k).toNat)).toNat := by
    simp only [← isSecond, row]
  rw [length1] at value1
  rw [length2] at value2
  generalize b * diagDepth + (kMax - k).toNat = i at value1 value2 ⊢
  clear length1 length2 isFirst isSecond first snd lengths row bottom
  -- What is reversed as a whole and then in part is moved; one element is not moved.
  by_cases superdiagonal : 0 ≤ k
  · simp only [superdiagonal, if_true] at value1 value2 ⊢
    cases left : attr.alignSupLeft with
    | true =>
      simp only [left, if_true, Int.toNat_one] at value1 value2 ⊢
      rw [Rows.reverse_entry_one _ value2, Rows.reverse_entry_one _ value1]
    | false =>
      simp only [left, if_false, Bool.false_eq_true, Int.toNat_natCast] at value1 value2 ⊢
      rw [Rows.reverse_reverse_entry _ (by omega) (by omega), value1, value2]
      congr 1
      omega
  · simp only [superdiagonal, if_false] at value1 value2 ⊢
    cases left : attr.alignSubLeft with
    | true =>
      simp only [left, if_true, Int.toNat_natCast] at value1 value2 ⊢
      rw [Rows.reverse_reverse_entry _ (by omega) (by omega), value1, value2]
      congr 1
      omega
    | false =>
      simp only [left, if_false, Bool.false_eq_true, Int.toNat_one] at value1 value2 ⊢
      rw [Rows.reverse_entry_one _ value2, Rows.reverse_entry_one _ value1]

/-- The band starts on or above the main diagonal or is a single diagonal, or the matrix is not
    too tall. -/
def Aligned (rows cols : Nat) (kMin kMax : Int) : Prop :=
  min kMax 0 ≤ kMin ∨ rows + min kMax 0 ≤ cols

theorem shift_of_aligned (inRange : InRange rows cols kMin kMax)
    (aligned : Aligned rows cols kMin kMax) :
    max 0 kMin - max 0 (-kMax) - (maxLen rows cols kMin kMax - diagLen rows cols kMin) = kMin := by
  obtain ⟨tall, wide, lt, above, below⟩ := inRange
  unfold Aligned at aligned
  rcases le_total 0 kMin with nat | negative
  · rw [maxLen, diagLen_of_nonneg rows cols nat]
    omega
  · rw [maxLen, diagLen_of_nonpos rows cols negative]
    omega

theorem subdiagonal_of_aligned (aligned : Aligned rows cols kMin kMax) {k : Int} (neg : k < 0)
    (above : kMin ≤ k) (below : k ≤ kMax) :
    maxLen rows cols kMin kMax - diagLen rows cols k = min kMax 0 - k := by
  unfold Aligned at aligned
  rw [maxLen, diagLen_of_nonpos rows cols (Int.le_of_lt neg)]
  omega

theorem min_lt_diagLen {i j : Nat} (row : i < rows) (column : j < cols) :
    ((min i j : Nat) : Int) < diagLen rows cols (j - i) := by
  rw [diagLen]
  omega

def slot (rows cols diagWidth : Nat) (attr : Attributes) (i j : Nat) : Nat :=
  let k : Int := j - i
  if (if 0 ≤ k then attr.alignSupLeft else attr.alignSubLeft) then min i j
  else min i j + diagWidth - (diagLen rows cols k).toNat

structure Place (rows cols diagDepth diagWidth topPad btmPad padTop padLft : Nat)
    (kMin kMax : Int) (i j : Nat) : Prop where
  below : padTop ≤ i
  above : i < padTop + diagWidth
  right : padLft ≤ j
  left : j < padLft + (min (rows + kMax) cols - padLft : Int).toNat
  shifted : i - padTop ≤ j - padLft + btmPad
  inBand : j - padLft + btmPad < diagDepth + (i - padTop)
  kept : topPad + (j - padLft) + btmPad + 1 < diagDepth + diagWidth
  diagonal : diagDepth + (i - padTop) - btmPad - 1 - (j - padLft) = (kMax - ((j : Int) - i)).toNat
  element : i - padTop = if 0 ≤ (j : Int) - i then min i j
    else min i j + diagWidth - (diagLen rows cols (j - i)).toNat

theorem place_of_band {diagWidth topPad btmPad padTop padLft i j : Nat}
    (inRange : InRange rows cols kMin kMax) (aligned : Aligned rows cols kMin kMax)
    (depth : (diagDepth : Int) = kMax + 1 - kMin)
    (long : maxLen rows cols kMin kMax ≤ diagWidth)
    (exact_ : kMin < 0 → maxLen rows cols kMin kMax = diagWidth)
    (top : (topPad : Int) = maxLen rows cols kMin kMax - diagLen rows cols kMax)
    (btm : (btmPad : Int) = maxLen rows cols kMin kMax - diagLen rows cols kMin)
    (isTop : (padTop : Int) = max 0 (-kMax)) (isLft : (padLft : Int) = max 0 kMin)
    (row : i < rows) (column : j < cols) (above : kMin ≤ (j : Int) - i)
    (below : (j : Int) - i ≤ kMax) :
    Place rows cols diagDepth diagWidth topPad btmPad padTop padLft kMin kMax i j := by
  have shift := shift_of_aligned inRange aligned
  rw [← btm, ← isTop, ← isLft] at shift
  have lt := min_lt_diagLen row column
  have length := diagLen_le_maxLen rows cols above below
  by_cases nat : 0 ≤ (j : Int) - i
  · have topLen := diagLen_of_nonneg rows cols (by omega : 0 ≤ kMax)
    rw [topLen] at top
    have isRow : min i j = i := by omega
    rw [isRow] at lt
    have noTop : padTop = 0 := by omega
    subst noTop
    refine ⟨?_, ?_, ?_, ?_, ?_, ?_, ?_, ?_, ?_⟩
    · omega
    · omega
    · omega
    · omega
    · omega
    · omega
    · omega
    · omega
    · rw [if_pos nat]
      omega
  · have isWidth := exact_ (by omega)
    have distance := subdiagonal_of_aligned aligned (by omega) above below
    have edge : (j : Int) + min kMax 0 < kMax + diagLen rows cols kMax := by
      rcases le_total 0 kMax with upper | lower
      · rw [diagLen_of_nonneg rows cols upper]
        omega
      · rw [diagLen_of_nonpos rows cols lower]
        omega
    have isColumn : min i j = j := by omega
    rw [isColumn] at lt
    have noLeft : padLft = 0 := by omega
    subst noLeft
    have isPad : (padTop : Int) = -min kMax 0 := by omega
    clear isTop
    refine ⟨?_, ?_, ?_, ?_, ?_, ?_, ?_, ?_, ?_⟩
    · omega
    · omega
    · omega
    · omega
    · omega
    · omega
    · omega
    · omega
    · rw [if_neg nat]
      omega

theorem matrixDiag_reference (inRange : InRange rows cols kMin kMax) (rowsFit : rows < 2 ^ 31)
    (colsFit : cols < 2 ^ 31) (reach : rows + cols ≤ 2 ^ 31 + 1) (fits : kMax + rows < 2 ^ 31)
    (aligned : Aligned rows cols kMin kMax) (pos : 0 < diag.width)
    (some_ : 0 < batches) (depth : (diagDepth : Int) = kMax + 1 - kMin)
    (count : diag.count = batches * diagDepth) (small : diag.count < 2 ^ 32)
    (long : maxLen rows cols kMin kMax ≤ diag.width)
    (exact_ : kMin < 0 → maxLen rows cols kMin kMax = diag.width)
    (made : matrixDiag diag batches diagDepth kMin kMax value rows cols attr = some out) (b : Nat)
    {i j : Nat} (row : i < rows) (column : j < cols) : out.entry (b * rows + i) j =
      if kMin ≤ (j : Int) - i ∧ (j : Int) - i ≤ kMax then
        diag.entry (b * diagDepth + (kMax - (j - i)).toNat) (slot rows cols diag.width attr i j)
      else value := by
  obtain ⟨l, lens, sorted, laid, -, isLens, isSorted, -, -, -, entry⟩ :=
    matrixDiag_entry pos (by have := inRange.ordered; omega) count some_ made
  rw [layout_eq inRange rowsFit colsFit reach (Or.inl fits), supStop, if_pos fits,
    Option.some.injEq] at laid
  subst laid
  have lengths := revLens_of_cntRevLens inRange (by omega) isLens
  rw [show (kMax + 1 - kMin).toNat = diagDepth by omega] at lengths
  obtain ⟨topPad, btmPad, isTop, isBtm, -, top, btm⟩ :
    ∃ topPad btmPad : Nat, (bandLayout diagDepth diag.width _ _ _ _ _).topPad = topPad ∧ _ :=
    bandLayout_pads diag.width inRange
  have isWidth : (bandLayout diagDepth diag.width rows cols kMin kMax (kMax + 1)).diagonalizeWidth =
      min (rows + kMax) cols - max 0 kMin := newWidth_eq inRange
  have isPadTop : (bandLayout diagDepth diag.width rows cols kMin kMax (kMax + 1)).padTop =
      max 0 (-kMax) := rfl
  have isPadLft : (bandLayout diagDepth diag.width rows cols kMin kMax (kMax + 1)).padLft =
      max 0 kMin := rfl
  rw [entry b i row j column, isTop, isBtm, isWidth, isPadTop, isPadLft, Int.toNat_natCast,
    Int.toNat_natCast]
  obtain ⟨padTop, isTop'⟩ := Int.eq_ofNat_of_zero_le (le_max_left 0 (-kMax))
  obtain ⟨padLft, isLft'⟩ := Int.eq_ofNat_of_zero_le (le_max_left 0 kMin)
  rw [isTop', isLft', Int.toNat_natCast, Int.toNat_natCast]
  clear isTop isBtm isWidth isPadTop isPadLft entry
  by_cases band : kMin ≤ (j : Int) - i ∧ (j : Int) - i ≤ kMax
  · have place := place_of_band inRange aligned depth long exact_ top btm isTop'.symm
      isLft'.symm row column band.1 band.2
    have length : (((diagLen rows cols (j - i)).toNat : Nat) : Int) = diagLen rows cols (j - i) :=
      toNat_diagLen (by omega) (by omega)
    have lt := min_lt_diagLen row column
    rw [if_pos band, if_pos ⟨place.below, place.above, place.right, place.left⟩, placed,
      if_pos ⟨place.shifted, place.inBand, place.kept⟩, place.diagonal, place.element]
    exact sorted_entry some_ inRange depth count small long pos lengths isSorted
      band.1 band.2 length (by omega) b
  · rw [if_neg band]
    have shift := shift_of_aligned inRange aligned
    rw [← btm, isTop', isLft'] at shift
    by_cases covered : padTop ≤ i ∧ i < padTop + diag.width ∧ padLft ≤ j ∧
        j < padLft + (min (rows + kMax) cols - padLft : Int).toNat
    · rw [if_pos covered, placed, if_neg]
      rintro ⟨shifted, inBand, -⟩
      omega
    · rw [if_neg covered]

theorem blank_of_not_aligned (lt : InRange rows cols kMin kMax) (rowsFit : rows < 2 ^ 31)
    (colsFit : cols < 2 ^ 31) (reach : rows + cols ≤ 2 ^ 31 + 1)
    (notAligned : ¬Aligned rows cols kMin kMax) (pos : 0 < diag.width) (depth : 0 < diagDepth)
    (some_ : 0 < batches) (count : diag.count = batches * diagDepth)
    (made : matrixDiag diag batches diagDepth kMin kMax value rows cols attr = some out) :
    out.entry (-kMin).toNat 0 = value := by
  rw [Aligned, not_or, Int.not_le, Int.not_le] at notAligned
  obtain ⟨lower, tall⟩ := notAligned
  have neg : kMin < 0 := by omega
  obtain ⟨l, lens, sorted, laid, -, -, -, -, -, -, entry⟩ :=
    matrixDiag_entry pos depth count some_ made
  rw [layout_eq lt rowsFit colsFit reach (Or.inr neg), Option.some.injEq] at laid
  subst laid
  have edge : maxLen rows cols kMin (supStop rows kMax - 1) - diagLen rows cols kMin <
      min kMax 0 - kMin := by
    have most : maxLen rows cols kMin (supStop rows kMax - 1) ≤ cols - max kMin 0 :=
      min_le_right _ _
    rw [diagLen_of_nonpos rows cols (Int.le_of_lt neg)]
    omega
  have first := entry 0 (-kMin).toNat (by have := lt.above; omega) 0 lt.wide
  rw [zero_mul, zero_add] at first
  have btmPad : (bandLayout diagDepth diag.width rows cols kMin kMax (supStop rows kMax)).btmPad =
      maxLen rows cols kMin (supStop rows kMax - 1) - diagLen rows cols kMin := rfl
  have padTop : (bandLayout diagDepth diag.width rows cols kMin kMax (supStop rows kMax)).padTop =
      max 0 (-kMax) := rfl
  have padLft : (bandLayout diagDepth diag.width rows cols kMin kMax (supStop rows kMax)).padLft =
      max 0 kMin := rfl
  rw [btmPad, padTop, padLft, placed] at first
  rw [first]
  split
  case isTrue covered => exact if_neg fun both => absurd both.1 (by omega)
  case isFalse => rfl

end Matrices

end TfDml.MatrixDiag
