import TfDml.Kernels.MatrixDiag

/-! # The graph of MatrixDiag

What the operators compute, entry by entry. Three steps move each row to the right of the one
above: only that is left of the reversals.
-/

namespace TfDml.MatrixDiag

open Lib Option

variable {α : Type}

theorem tensor_eq_some {t u : Rows α} :
    tensor t = some u ↔ (0 < t.size ∧ t.size < 2 ^ 32) ∧ u = t := by
  rw [tensor, ite_none_right_eq_some, Option.some.injEq, eq_comm (a := t)]

theorem sequence_eq_some {start step : Int} {count : Nat} {t : Rows Int} :
    sequence start step count = some t ↔
      (0 < count ∧ count < 2 ^ 32) ∧ t = ⟨1, count, fun _ j => start + step * j⟩ := by
  rw [sequence, tensor_eq_some, Rows.size, one_mul]

theorem scalarTensor_eq_some {value : Int} {count width : Nat} {t : Rows Int} :
    scalarTensor value count width = some t ↔
      (0 < count * width ∧ count * width < 2 ^ 32) ∧ t = ⟨count, width, fun _ _ => value⟩ := by
  rw [scalarTensor, tensor_eq_some, Rows.size]

theorem sliceColumns_eq_some {t u : Rows α} {start width : Nat} :
    sliceColumns t start width = some u ↔
      (start + width ≤ t.width ∧ 0 < t.count * width ∧ t.count * width < 2 ^ 32) ∧
        u = t.columns start width := by
  rw [sliceColumns, ite_none_right_eq_some, tensor_eq_some, ← and_assoc]
  rfl

/-- A length for each row, within the row. -/
structure Lengths (t : Rows α) (lengths : Rows Int) : Prop where
  count : lengths.count = t.count
  valid : ∀ i < t.count, 0 ≤ lengths.entry i 0 ∧ lengths.entry i 0 ≤ t.width

theorem reverseSubsequences_eq_some {t u : Rows α} {lens : Rows Int} :
    reverseSubsequences t lens = some u ↔
      Lengths t lens ∧ u = t.reverse fun i => (lens.entry i 0).toNat := by
  rw [reverseSubsequences, ite_none_right_eq_some, Option.some.injEq, List.all_eq_true,
    eq_comm (b := u)]
  simp only [List.mem_range, Bool.and_eq_true, decide_eq_true_eq]
  exact and_congr_left fun _ => ⟨fun both => ⟨both.1, both.2⟩, fun both => ⟨both.1, both.2⟩⟩

theorem columns_all (t : Rows α) : t.columns 0 t.width = t := by simp [Rows.columns]

theorem dropColumns_spec {t u : Rows α} {n : Nat} (dropped : dropColumns t n = some u) :
    n ≤ t.width ∧ u = t.columns n (t.width - n) := by
  unfold dropColumns at dropped
  split at dropped
  case isTrue pos =>
    obtain ⟨⟨lt, -⟩, rfl⟩ := sliceColumns_eq_some.mp dropped
    exact ⟨by omega, rfl⟩
  case isFalse zero =>
    obtain rfl := some.inj dropped
    obtain rfl : n = 0 := by omega
    exact ⟨Nat.zero_le _, (columns_all t).symm⟩

theorem dropColumns_of_lt {t : Rows α} {n : Nat} (less : n < t.width) (some_ : 0 < t.count)
    (small : t.size < 2 ^ 32) : dropColumns t n = some (t.columns n (t.width - n)) := by
  unfold dropColumns
  split
  case isTrue pos =>
    have lt : t.count * (t.width - n) ≤ t.size := Nat.mul_le_mul_left _ (Nat.sub_le _ _)
    exact sliceColumns_eq_some.mpr ⟨⟨by omega, mul_pos some_ (by omega), by omega⟩, rfl⟩
  case isFalse zero =>
    obtain rfl : n = 0 := by omega
    exact congrArg some (columns_all t).symm

section Order

variable {diag sorted : Rows α} {c c1 c2 e : Rows Int} {rows : Nat}

theorem descending_spec (made : descending c = some e) : e.count = c.count ∧ e.width = c.width ∧
      ∀ j < c.width, e.entry 0 j = c.entry 0 (c.width - 1 - j) := by
  simp only [descending] at made
  split at made
  case isTrue many =>
    simp only [bind_eq_bind, bind_eq_some_iff, scalarTensor_eq_some,
      reverseSubsequences_eq_some] at made
    obtain ⟨_, ⟨-, rfl⟩, -, rfl⟩ := made
    exact ⟨rfl, rfl, fun j less => Rows.reverse_entry_of_lt c less⟩
  case isFalse single =>
    obtain rfl := some.inj made
    refine ⟨rfl, rfl, fun j less => ?_⟩
    rw [show c.width - 1 - j = j by omega]

theorem descending_some (isRow : c.count = 1) : ∃ e, descending c = some e := by
  simp only [descending]
  split
  case isTrue many =>
    simp only [bind_eq_bind, bind_eq_some_iff, scalarTensor_eq_some, reverseSubsequences_eq_some]
    refine ⟨_, _, ⟨by decide, rfl⟩, ⟨isRow.symm, fun i _ => ?_⟩, rfl⟩
    simp
  case isFalse single => exact ⟨c, rfl⟩

theorem expRevLen_spec (made : expRevLen c rows = some e) :
    0 < c.width ∧ e.count = rows / c.width * c.width ∧
      ∀ i, e.entry i 0 = c.entry 0 (c.width - 1 - i % c.width) := by
  simp only [expRevLen, bind_eq_bind, bind_eq_some_iff] at made
  obtain ⟨row, reversed, below⟩ := made
  obtain ⟨⟨pos, -⟩, rfl⟩ := tensor_eq_some.mp below
  obtain ⟨-, width, entry⟩ := descending_spec reversed
  have some_ : 0 < c.width := by
    rw [← width]
    exact Nat.pos_of_mul_pos_left (Nat.pos_of_mul_pos_right pos)
  refine ⟨some_, by rw [← width]; rfl, fun i => ?_⟩
  change row.entry 0 (i % row.width) = _
  rw [width, entry _ (Nat.mod_lt i some_)]

theorem expRevLen_some (isRow : c.count = 1) (pos : 0 < c.width) {copies : Nat}
    (some_ : 0 < copies) (isRows : rows = copies * c.width) (lt : rows < 2 ^ 32) :
    ∃ e, expRevLen c rows = some e := by
  have width : c.width ≤ rows := isRows ▸ Nat.le_mul_of_pos_left _ some_
  obtain ⟨row, reversed⟩ := descending_some isRow
  have rowWidth := (descending_spec reversed).2.1
  refine ⟨row.column (rows / c.width), ?_⟩
  rw [expRevLen, reversed, bind_eq_bind, bind_some, tensor_eq_some, Rows.size]
  refine ⟨?_, rfl⟩
  simp only [Rows.column, rowWidth, isRows, Nat.mul_div_cancel _ pos]
  exact ⟨mul_pos (mul_pos some_ pos) one_pos, by omega⟩

theorem sortedDiag_spec (made : sortedDiag diag c1 c2 = some sorted) :
    sorted.count = diag.count ∧ sorted.width = diag.width := by
  simp only [sortedDiag, bind_eq_bind, bind_eq_some_iff, reverseSubsequences_eq_some] at made
  obtain ⟨_, -, _, ⟨-, rfl⟩, _, -, -, rfl⟩ := made
  exact ⟨rfl, rfl⟩

/-- The lengths of the diagonals of a band, from the bottom one, are within the rows. -/
structure BandLengths (c : Rows Int) (diagDepth diagWidth : Nat) : Prop where
  count : c.count = 1
  width : c.width = diagDepth
  valid : ∀ s < diagDepth, 0 ≤ c.entry 0 s ∧ c.entry 0 s ≤ diagWidth

variable {batches diagDepth : Nat}

theorem sortedDiag_some (some_ : 0 < batches) (pos : 0 < diagDepth)
    (count : diag.count = batches * diagDepth) (first : BandLengths c1 diagDepth diag.width)
    (snd : BandLengths c2 diagDepth diag.width) (lt : diag.count < 2 ^ 32) : sortedDiag diag c1 c2 =
      some ((diag.reverse fun i => (c1.entry 0 (diagDepth - 1 - i % diagDepth)).toNat).reverse
        fun i => (c2.entry 0 (diagDepth - 1 - i % diagDepth)).toNat) := by
  have length {c : Rows Int} (band : BandLengths c diagDepth diag.width) :
      ∃ e, expRevLen c diag.count = some e ∧ e.count = diag.count ∧
        ∀ i, e.entry i 0 = c.entry 0 (diagDepth - 1 - i % diagDepth) := by
    obtain ⟨isRow, rfl, -⟩ := band
    obtain ⟨e, made⟩ := expRevLen_some isRow pos some_ count lt
    obtain ⟨-, isRows, entry⟩ := expRevLen_spec made
    exact ⟨e, made, by rw [isRows, count, Nat.mul_div_cancel _ pos], entry⟩
  obtain ⟨e1, made1, count1, entry1⟩ := length first
  obtain ⟨e2, made2, count2, entry2⟩ := length snd
  have row (i : Nat) : diagDepth - 1 - i % diagDepth < diagDepth := by omega
  simp only [sortedDiag, made1, made2, bind_eq_bind, bind_eq_some_iff,
    reverseSubsequences_eq_some, Option.some.injEq]
  refine ⟨e1, rfl, _, ⟨⟨count1, fun i _ => ?_⟩, rfl⟩, e2, rfl, ⟨count2, fun i _ => ?_⟩, ?_⟩
  · rw [entry1]
    exact first.valid _ (row i)
  · rw [entry2]
    exact snd.valid _ (row i)
  · simp only [entry1, entry2]

end Order

section Shear

variable {tranDiag left right sheared : Rows α} {value : α}
  {batches diagDepth diagWidth topPad btmPad rightPad : Nat}

theorem padLeft_spec (pos : 0 < diagWidth)
    (made : padLeft tranDiag value batches diagWidth topPad rightPad = some left) :
    tranDiag.count * (topPad + tranDiag.width + rightPad) < 2 ^ 32 ∧
      left.count = tranDiag.count ∧ left.width = tranDiag.width + rightPad ∧ ∀ i x, left.entry i x =
        if topPad + i % diagWidth < x + diagWidth ∧ x < tranDiag.width then tranDiag.entry i x
        else value := by
  simp only [padLeft, bind_eq_bind, bind_eq_some_iff, tensor_eq_some,
    sequence_eq_some, reverseSubsequences_eq_some] at made
  obtain ⟨_, ⟨⟨-, lt⟩, rfl⟩, _, ⟨-, rfl⟩, _, ⟨-, rfl⟩, _, ⟨-, rfl⟩, dropped⟩ := made
  obtain ⟨-, rfl⟩ := dropColumns_spec dropped
  refine ⟨lt, rfl, ?_, fun i x => ?_⟩
  · simp only [Rows.columns, Rows.reverse, Rows.pad]
    omega
  · have less := Nat.mod_lt i pos
    rw [Rows.columns_reverse_pad]
    · simp only [Rows.map, Rows.column]
      exact if_congr (by omega) rfl rfl
    · simp only [Rows.map, Rows.column]
      omega

theorem padLeft_some (value : α) (pos : 0 < diagWidth) (some_ : 0 < batches)
    (count : tranDiag.count = batches * diagWidth) (depth : 0 < tranDiag.width)
    (enough : topPad ≤ rightPad)
    (lt : tranDiag.count * (topPad + tranDiag.width + rightPad) < 2 ^ 32) :
    ∃ left, padLeft tranDiag value batches diagWidth topPad rightPad = some left := by
  have rows : 0 < tranDiag.count := count ▸ mul_pos some_ pos
  have least : tranDiag.count ≤ tranDiag.count * (topPad + tranDiag.width + rightPad) :=
    Nat.le_mul_of_pos_right _ (by omega)
  have width : diagWidth ≤ tranDiag.count := count ▸ Nat.le_mul_of_pos_left _ some_
  simp only [padLeft, bind_eq_bind, bind_eq_some_iff, tensor_eq_some,
    sequence_eq_some, reverseSubsequences_eq_some]
  refine ⟨_, _, ⟨⟨mul_pos rows ?_, lt⟩, rfl⟩, _, ⟨⟨pos, ?_⟩, rfl⟩, _, ⟨?_, rfl⟩, _,
    ⟨⟨count.symm, fun i _ => ?_⟩, rfl⟩, dropColumns_of_lt ?_ rows lt⟩
  · simp only [Rows.pad]
    omega
  · omega
  · simp only [Rows.size, Rows.column, Rows.map]
    omega
  · have less := Nat.mod_lt i pos
    simp only [Rows.column, Rows.map, Rows.pad]
    omega
  · simp only [Rows.reverse, Rows.pad]
    omega

theorem padRight_spec (pos : 0 < diagWidth) (isRight : rightPad = btmPad + diagWidth)
    (width : left.width = diagDepth + rightPad)
    (blank : ∀ i, ∀ x ≥ diagDepth, left.entry i x = value)
    (made : padRight left batches diagWidth btmPad rightPad = some right) :
    right.count = left.count ∧ right.width = diagDepth + diagWidth ∧
      ∀ i, ∀ x < diagDepth + diagWidth, right.entry i x =
        if x + btmPad < diagDepth + i % diagWidth then left.entry i x else value := by
  simp only [padRight, bind_eq_bind, bind_eq_some_iff, tensor_eq_some,
    sequence_eq_some, scalarTensor_eq_some, reverseSubsequences_eq_some] at made
  obtain ⟨_, ⟨-, rfl⟩, _, ⟨-, rfl⟩, _, ⟨-, rfl⟩, _, ⟨-, rfl⟩, _, ⟨-, rfl⟩, _, dropped, _,
    ⟨-, rfl⟩, -, rfl⟩ := made
  obtain ⟨lt, rfl⟩ := dropColumns_spec dropped
  have rest : left.width - btmPad = diagDepth + diagWidth := by omega
  refine ⟨rfl, rest, fun i x less => ?_⟩
  have row := Nat.mod_lt i pos
  have entry := left.reverse_columns_reverse (fun _ => (left.width : Int).toNat)
    (fun i => (rightPad + btmPad + -1 * ((i % diagWidth : Nat) : Int)).toNat)
    (fun _ => ((left.width - btmPad : Nat) : Int).toNat) lt rfl rfl (blank i)
    (by omega : _ ≤ _) (by omega : x < _)
  exact entry.trans (if_congr (by omega) rfl rfl)

theorem padRight_some (pos : 0 < diagWidth) (some_ : 0 < batches)
    (isRight : rightPad = btmPad + diagWidth) (count : left.count = batches * diagWidth)
    (width : left.width = diagDepth + rightPad) (less : btmPad < diagDepth)
    (lt : left.size < 2 ^ 32) :
    ∃ right, padRight left batches diagWidth btmPad rightPad = some right := by
  have rows : 0 < left.count := count ▸ mul_pos some_ pos
  have cols : 0 < left.width := by omega
  have least : left.count ≤ left.size := Nat.le_mul_of_pos_right _ cols
  have most : left.width ≤ left.size := Nat.le_mul_of_pos_left _ rows
  have rowWidth : diagWidth ≤ left.count := count ▸ Nat.le_mul_of_pos_left _ some_
  simp only [padRight, bind_eq_bind, bind_eq_some_iff, tensor_eq_some,
    sequence_eq_some, scalarTensor_eq_some, reverseSubsequences_eq_some]
  refine ⟨_, _, ⟨⟨?_, ?_⟩, rfl⟩, _, ⟨⟨rfl, fun i _ => ?_⟩, rfl⟩, _, ⟨⟨pos, ?_⟩, rfl⟩, _,
    ⟨?_, rfl⟩, _, ⟨⟨count.symm, fun i _ => ?_⟩, rfl⟩, _, dropColumns_of_lt ?_ rows lt, _,
    ⟨⟨?_, ?_⟩, rfl⟩, ⟨rfl, fun i _ => ?_⟩, rfl⟩
  · omega
  · omega
  · simp only []
    omega
  · omega
  · simp only [Rows.size, Rows.column]
    omega
  · have row := Nat.mod_lt i pos
    simp only [Rows.column, Rows.reverse]
    omega
  · simp only [Rows.reverse]
    omega
  · simp only [Rows.columns, Rows.reverse]
    omega
  · simp only [Rows.columns, Rows.reverse]
    omega
  · simp only [Rows.columns, Rows.reverse]
    omega

theorem rev2_spec (some_ : 0 < right.count)
    (made : rev2 right batches diagDepth diagWidth btmPad = some sheared) :
    btmPad ≤ diagDepth ∧ sheared.count = right.count ∧ sheared.width = right.width ∧
      ∀ i q, sheared.entry i q = if q + btmPad < diagDepth + i % diagWidth then
          right.entry i (diagDepth + i % diagWidth - btmPad - 1 - q)
        else right.entry i q := by
  simp only [rev2, bind_eq_bind, bind_eq_some_iff, tensor_eq_some,
    sequence_eq_some, reverseSubsequences_eq_some] at made
  obtain ⟨_, ⟨-, rfl⟩, _, ⟨-, rfl⟩, ⟨count, valid⟩, rfl⟩ := made
  have first := (valid 0 some_).1
  simp only [Rows.column, Nat.zero_mod] at first
  have less : btmPad ≤ diagDepth := by omega
  refine ⟨less, rfl, rfl, fun i q => ?_⟩
  have length : ((diagDepth : Int) - btmPad + 1 * ((i % diagWidth : Nat) : Int)).toNat =
      diagDepth + i % diagWidth - btmPad := by omega
  simp only [Rows.reverse, Rows.column, length]
  exact if_congr (by omega) rfl rfl

theorem rev2_some (pos : 0 < diagWidth) (some_ : 0 < batches)
    (count : right.count = batches * diagWidth) (width : right.width = diagDepth + diagWidth)
    (less : btmPad ≤ diagDepth) (lt : right.size < 2 ^ 32) :
    ∃ sheared, rev2 right batches diagDepth diagWidth btmPad = some sheared := by
  have least : right.count ≤ right.size := Nat.le_mul_of_pos_right _ (by omega)
  have rowWidth : diagWidth ≤ right.count := count ▸ Nat.le_mul_of_pos_left _ some_
  have rows : 0 < right.count := count ▸ mul_pos some_ pos
  simp only [rev2, bind_eq_bind, bind_eq_some_iff, tensor_eq_some,
    sequence_eq_some, reverseSubsequences_eq_some]
  refine ⟨_, _, ⟨⟨pos, ?_⟩, rfl⟩, _, ⟨?_, rfl⟩, ⟨count.symm, fun i _ => ?_⟩, rfl⟩
  · omega
  · simp only [Rows.size, Rows.column]
    omega
  · have row := Nat.mod_lt i pos
    simp only [Rows.column]
    omega

theorem sheared_entry (pos : 0 < diagWidth) (some_ : 0 < tranDiag.count)
    (isRight : rightPad = btmPad + diagWidth)
    (madeLeft : padLeft tranDiag value batches diagWidth topPad rightPad = some left)
    (madeRight : padRight left batches diagWidth btmPad rightPad = some right)
    (made : rev2 right batches tranDiag.width diagWidth btmPad = some sheared) :
    sheared.count = tranDiag.count ∧ sheared.width = tranDiag.width + diagWidth ∧
      ∀ i, ∀ q < tranDiag.width + diagWidth, sheared.entry i q =
        if i % diagWidth ≤ q + btmPad ∧ q + btmPad < tranDiag.width + i % diagWidth ∧
            topPad + q + btmPad + 1 < tranDiag.width + diagWidth then
          tranDiag.entry i (tranDiag.width + i % diagWidth - btmPad - 1 - q)
        else value := by
  obtain ⟨-, leftCount, leftWidth, leftEntry⟩ := padLeft_spec pos madeLeft
  obtain ⟨rightCount, rightWidth, rightEntry⟩ := padRight_spec pos isRight leftWidth
    (fun i x beyond => by rw [leftEntry, if_neg (by omega)]) madeRight
  obtain ⟨less, count, width, entry⟩ := rev2_spec (by omega) made
  refine ⟨by omega, by omega, fun i q lt => ?_⟩
  have row := Nat.mod_lt i pos
  rw [entry]
  by_cases moved : q + btmPad < tranDiag.width + i % diagWidth
  · rw [if_pos moved, rightEntry _ _ (by omega), if_pos (by omega), leftEntry]
    exact if_congr (by omega) rfl rfl
  · rw [if_neg moved, rightEntry _ _ lt, if_neg (by omega), if_neg (by omega)]

theorem sheared_some (value : α) (pos : 0 < diagWidth) (some_ : 0 < batches)
    (count : tranDiag.count = batches * diagWidth) (isRight : rightPad = btmPad + diagWidth)
    (above : topPad ≤ rightPad) (below : btmPad < tranDiag.width)
    (small : tranDiag.count * (topPad + tranDiag.width + rightPad) < 2 ^ 32) : ∃ left right sheared,
      padLeft tranDiag value batches diagWidth topPad rightPad = some left ∧
      padRight left batches diagWidth btmPad rightPad = some right ∧
      rev2 right batches tranDiag.width diagWidth btmPad = some sheared := by
  have lt {width : Nat} (le : width ≤ topPad + tranDiag.width + rightPad) :
      tranDiag.count * width < 2 ^ 32 := lt_of_le_of_lt (Nat.mul_le_mul_left _ le) small
  obtain ⟨left, isLeft⟩ := padLeft_some value pos some_ count (by omega) above
    small
  obtain ⟨-, leftCount, leftWidth, leftEntry⟩ := padLeft_spec pos isLeft
  obtain ⟨right, isRight'⟩ := padRight_some pos some_ isRight (leftCount.trans count)
    leftWidth below (by rw [Rows.size, leftCount, leftWidth]; exact lt (by omega))
  obtain ⟨rightCount, rightWidth, -⟩ := padRight_spec pos isRight leftWidth
    (fun i x beyond => by rw [leftEntry, if_neg (by omega)]) isRight'
  obtain ⟨sheared, isSheared⟩ := rev2_some pos some_
    (rightCount.trans (leftCount.trans count)) rightWidth (Nat.le_of_lt below)
    (by rw [Rows.size, rightCount, leftCount, rightWidth]; exact lt (by omega))
  exact ⟨left, right, sheared, isLeft, isRight', isSheared⟩

end Shear

end TfDml.MatrixDiag
