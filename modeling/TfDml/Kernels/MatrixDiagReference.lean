import TfDml.Kernels.MatrixDiagPlacement
import Mathlib.Tactic.Linarith

/-! # MatrixDiag and its reference

The reference looks for each element of a matrix whether it is on a diagonal of the band. The
kernel has the same matrices if the diagonals are where they belong and all tensors of the graph
exist. A matrix with one row or one column has no table of lengths.
-/

namespace TfDml.MatrixDiag

open Lib List
open StridedSlice (i32 i32_of_bounds)
open TensorShape

variable {α : Type}

theorem diagShape_four {diagonal : TensorShape} (ne : diagonal ≠ []) (kDepth : Int) :
    ∃ batch channels depth, diagShape diagonal kDepth = [batch, channels, depth,
        diagonal.getLastD 0] ∧
      batch * channels * depth * diagonal.getLastD 0 = diagonal.numElements := by
  obtain ⟨lead, old, w, pair, last, elements⟩ : ∃ lead old w,
      diagShape diagonal kDepth = diagShape (lead ++ [old, w]) kDepth ∧
        diagonal.getLastD 0 = w ∧ diagonal.numElements = lead.prod * old * w := by
    obtain ⟨front, w, rfl⟩ : ∃ front w, diagonal = front ++ [w] :=
      ⟨_, _, (dropLast_concat_getLast ne).symm⟩
    cases front using reverseRecOn with
    | nil => exact ⟨[], 1, w, rfl, rfl, by simp [numElements]⟩
    | append_singleton lead old =>
      exact ⟨lead, old, w, by simp, by simp, by simp [numElements, mul_assoc]⟩
  rw [pair, last, elements]
  by_cases same : kDepth = i32 old
  · obtain ⟨batch, channels, shape, product⟩ := diagShape_same lead w same
    exact ⟨batch, channels, old, shape, by rw [product]⟩
  · exact ⟨lead.prod, old, 1, diagShape_other lead w same, by rw [mul_one]⟩

structure BandCall extends DiagCall where
  above : -(toDiagCall.rows : Int) < toDiagCall.kMin
  below : toDiagCall.kMax < toDiagCall.cols

namespace BandCall

variable (c : BandCall)

def depth : Nat := (c.kMax - c.kMin + 1).toNat

def batches : Nat := c.init.leading.prod

def attr : Attributes := attributes c.align

/-- The kernel, on a buffer with the diagonals. -/
def kernel (values : Nat → α) (padding : α) : Option (Rows α) :=
  diagonalizeComplexMatrix c.diagonal c.init c.attr values padding

/-- An element of the matrix `b`, from the same buffer. -/
def reference (values : Nat → α) (padding : α) (b i j : Nat) : α :=
  if c.kMin ≤ (j : Int) - i ∧ (j : Int) - i ≤ c.kMax then
    values ((b * c.depth + (c.kMax - (j - i)).toNat) * c.maxDiagLen +
      slot c.rows c.cols c.maxDiagLen c.attr i j)
  else padding

variable (α) in
/-- The kernel has the matrices of the reference, for all diagonals and each padding value. -/
def EqualsReference : Prop :=
  ∀ (values : Nat → α) (padding : α), ∃ out, c.kernel values padding = some out ∧
    out.count = c.batches * c.rows ∧ out.width = c.cols ∧
    ∀ b < c.batches, ∀ i < c.rows, ∀ j < c.cols,
      out.entry (b * c.rows + i) j = c.reference values padding b i j

/-- The diagonals are where they belong, and the graph can be built. -/
structure Placeable : Prop where
  aligned : Aligned c.rows c.cols c.kMin c.kMax
  enoughRows : (c.maxDiagLen : Int) - min c.kMax 0 ≤ c.rows
  fits : c.kMax + c.rows < 2 ^ 31
  /-- No length is read of the table if it does not exist. -/
  lengths : min c.rows c.cols = 1 →
    (c.attr.alignSubLeft = true → 0 ≤ c.kMin) ∧ (c.attr.alignSupLeft = false → c.kMax < 0)
  output : c.outElements < 2 ^ 32
  padded : (c.batches * c.maxDiagLen : Nat) *
    paddedWidth c.rows c.cols c.maxDiagLen c.kMin c.kMax < 2 ^ 32

theorem inRange : InRange c.rows c.cols c.kMin c.kMax :=
  ⟨c.tall.1, c.tall.2, c.helped.ordered, c.above, c.below⟩

theorem depth_eq : (c.depth : Int) = c.kMax + 1 - c.kMin := by
  have ordered := c.inRange.ordered
  rw [depth]
  omega

theorem several (different : c.kMin ≠ c.kMax) : i32 (c.kMax - c.kMin + 1) = c.depth ∧
    ∃ lead w, c.diagonal = lead ++ [c.depth, w] := by
  obtain ⟨provided, isProvided, matches_⟩ := c.helped.depth different
  have rowsFit : c.rows < 2 ^ 31 := c.helped.rowsFit
  have colsFit : c.cols < 2 ^ 31 := c.helped.colsFit
  obtain ⟨-, -, ordered, above, below⟩ := c.inRange
  have small : c.kMax - c.kMin + 1 < 2 ^ 31 := by
    by_contra large
    have wrapped : i32 (c.kMax - c.kMin + 1) = c.kMax - c.kMin + 1 - 2 ^ 32 := by
      rw [i32, Int.bmod_def]
      omega
    change (provided : Int) = i32 (c.kMax - c.kMin + 1) at matches_
    omega
  have exact_ : i32 (c.kMax - c.kMin + 1) = c.kMax - c.kMin + 1 := i32_of_bounds (by omega) small
  have isDepth : provided = c.depth := by
    have depth := c.depth_eq
    change (provided : Int) = i32 (c.kMax - c.kMin + 1) at matches_
    omega
  refine ⟨by have := c.depth_eq; omega, ?_⟩
  subst isDepth
  generalize c.diagonal = diagonal at isProvided
  cases diagonal using reverseRecOn with
  | nil => simp at isProvided
  | append_singleton front w =>
    cases front using reverseRecOn with
    | nil => simp at isProvided
    | append_singleton lead old =>
      have isOld : old = c.depth := by simpa using isProvided
      exact ⟨lead, w, by simp [isOld]⟩

theorem leading_of_several (different : c.kMin ≠ c.kMax) {lead : List Nat} {w : Nat}
    (isDiagonal : c.diagonal = lead ++ [c.depth, w]) : c.init.leading = lead := by
  have depth := c.depth_eq
  have ordered := c.inRange.ordered
  have leading := c.helped.leading
  change c.init.leading = if i32 (c.kMax - c.kMin + 1) = 1 then _ else _ at leading
  rw [if_neg (by rw [(c.several different).1]; omega), isDiagonal] at leading
  simpa using leading

theorem leading_of_single (same : c.kMin = c.kMax) : c.init.leading = c.diagonal.dropLast := by
  have leading := c.helped.leading
  change c.init.leading = if i32 (c.kMax - c.kMin + 1) = 1 then _ else _ at leading
  rwa [same, Int.sub_self, Int.zero_add, if_pos (by decide)] at leading

theorem numElements_eq : c.diagonal.numElements = c.batches * (c.depth * c.maxDiagLen) := by
  by_cases same : c.kMin = c.kMax
  · have depth : c.depth = 1 := by
      have := c.depth_eq
      omega
    rw [batches, c.leading_of_single same, depth, DiagCall.maxDiagLen]
    have ne := c.helped.ne
    generalize c.diagonal = diagonal at ne
    cases diagonal using reverseRecOn with
    | nil => exact absurd rfl ne
    | append_singleton front w => simp [numElements]
  · obtain ⟨-, lead, w, isDiagonal⟩ := c.several same
    rw [batches, c.leading_of_several same isDiagonal, DiagCall.maxDiagLen]
    generalize c.depth = depth at isDiagonal
    rw [isDiagonal]
    simp [numElements]

theorem positive : 0 < c.batches ∧ 0 < c.depth ∧ 0 < c.maxDiagLen := by
  have nonzero := c.nonempty.1
  rw [numElements_eq] at nonzero
  have inner := right_ne_zero_of_mul nonzero
  exact ⟨Nat.pos_of_ne_zero (left_ne_zero_of_mul nonzero),
    Nat.pos_of_ne_zero (left_ne_zero_of_mul inner), Nat.pos_of_ne_zero (right_ne_zero_of_mul inner)⟩

theorem shape_eq (small : c.diagonal.numElements < 2 ^ 32) : ∃ batch channels,
    c.shape = [batch, channels, c.depth, c.maxDiagLen] ∧ batch * channels = c.batches := by
  by_cases same : c.kMin = c.kMax
  · have depth : c.depth = 1 := by
      have := c.depth_eq
      omega
    have kDepth : i32 (c.kMax + 1 - c.kMin) = 1 := by
      rw [same, show c.kMax + 1 - c.kMax = 1 by omega]
      rfl
    rw [DiagCall.shape, kDepth, batches, c.leading_of_single same, depth, DiagCall.maxDiagLen]
    have nonzero := c.nonempty.1
    have ne := c.helped.ne
    generalize c.diagonal = diagonal at ne small nonzero
    cases diagonal using reverseRecOn with
    | nil => exact absurd rfl ne
    | append_singleton front w =>
      cases front using reverseRecOn with
      | nil =>
        obtain ⟨batch, channels, shape, product⟩ :=
          diagShape_same [] w (show (1 : Int) = i32 (1 : Nat) from rfl)
        exact ⟨batch, channels, (diagShape_vector w 1).trans shape, product⟩
      | append_singleton lead old =>
        rw [append_assoc, singleton_append]
        have isLast : (lead ++ [old, w]).getLastD 0 = w := by simp
        by_cases one : (1 : Int) = i32 old
        · have isOne : old = 1 := by
            have elements : numElements (lead ++ [old] ++ [w]) = 
                lead.prod * w * old := by
              simp only [numElements, prod_append, prod_singleton]
              ring
            rw [elements] at small nonzero
            have le : old ≤ lead.prod * w * old := Nat.le_mul_of_pos_left _
              (Nat.pos_of_ne_zero (left_ne_zero_of_mul nonzero))
            rw [i32, Int.bmod_def] at one
            omega
          obtain ⟨batch, channels, shape, product⟩ := diagShape_same lead w one
          refine ⟨batch, channels, ?_, ?_⟩
          · rw [shape, isLast, isOne]
          · rw [product, isOne]
            simp
        · refine ⟨lead.prod, old, ?_, ?_⟩
          · rw [diagShape_other lead w one, isLast]
          · simp
  · obtain ⟨isDepth, lead, w, isDiagonal⟩ := c.several same
    have natural : c.kMax + 1 - c.kMin = c.kMax - c.kMin + 1 := by omega
    have fits : i32 (c.depth : Int) = c.depth := by rw [← isDepth, i32, i32, Int.bmod_bmod]
    rw [DiagCall.shape, natural, isDepth, batches, c.leading_of_several same isDiagonal,
      DiagCall.maxDiagLen]
    generalize c.depth = depth at isDiagonal fits
    rw [isDiagonal]
    obtain ⟨batch, channels, shape, product⟩ := diagShape_same lead w fits.symm
    exact ⟨batch, channels, by rw [shape]; simp, product⟩

def diagonals (values : Nat → α) : Rows α :=
  ⟨c.batches * c.depth, c.maxDiagLen, fun i j => values (i * c.maxDiagLen + j)⟩

theorem kernel_eq_some {values : Nat → α} {padding : α} {out : Rows α} :
    c.kernel values padding = some out ↔ c.diagonal.numElements < 2 ^ 32 ∧ c.outElements < 2 ^ 32 ∧
        matrixDiag (c.diagonals values) c.batches c.depth c.kMin c.kMax padding c.rows c.cols
          c.attr = some out := by
  have outDescribed : DmlTensorDesc.Describable [c.outElements] ↔ c.outElements < 2 ^ 32 :=
    ⟨fun described => described.dims _ (mem_singleton.mpr rfl),
      fun small => ⟨by simp [DmlTensorDesc.maxDimensionCount], fun dim mem =>
        mem_singleton.mp mem ▸ small⟩⟩
  obtain ⟨batch, channels, depth, shape, elements⟩ :=
    diagShape_four c.helped.ne (i32 (c.kMax + 1 - c.kMin))
  have unfolded : c.kernel values padding = some out ↔
      DmlTensorDesc.Describable [batch, channels, depth, c.maxDiagLen] ∧
      DmlTensorDesc.Describable [c.outElements] ∧ (0 < batch * channels * depth * c.maxDiagLen ∧
        batch * channels * depth * c.maxDiagLen < 2 ^ 32) ∧
      matrixDiag ⟨batch * channels * depth, c.maxDiagLen,
          fun i j => values (i * c.maxDiagLen + j)⟩ (batch * channels) depth c.kMin c.kMax padding
        c.rows c.cols c.attr = some out := by
    change diagonalizeComplexMatrix _ _ _ _ _ = _ ↔ _
    simp only [diagonalizeComplexMatrix, Option.bind_eq_bind, Option.bind_eq_some_iff,
      DmlTensorDesc.create_self_eq_some, tensor_eq_some]
    change (∃ _, (DmlTensorDesc.Describable (diagShape c.diagonal _) ∧ _) ∧ _) ↔ _
    rw [show diagShape c.diagonal (i32 (c.init.upperDiagIndex + 1 - c.init.lowerDiagIndex)) =
      [batch, channels, depth, c.maxDiagLen] from shape]
    constructor
    · rintro ⟨_, ⟨input, -⟩, _, ⟨output, -⟩, _, ⟨size, rfl⟩, made⟩
      exact ⟨input, output, size, made⟩
    · rintro ⟨input, output, size, made⟩
      exact ⟨_, ⟨input, rfl⟩, _, ⟨output, rfl⟩, _, ⟨size, rfl⟩, made⟩
  change batch * channels * depth * c.maxDiagLen = c.diagonal.numElements at elements
  rw [unfolded, elements, outDescribed]
  constructor
  · rintro ⟨-, output, ⟨-, small⟩, made⟩
    obtain ⟨_, _, shape', product⟩ := c.shape_eq small
    rw [DiagCall.shape, shape] at shape'
    obtain ⟨rfl, rfl, rfl, -⟩ : batch = _ ∧ channels = _ ∧ depth = _ ∧ _ := by simpa using shape'
    rw [product] at made
    exact ⟨small, output, made⟩
  · rintro ⟨small, output, made⟩
    obtain ⟨_, _, shape', product⟩ := c.shape_eq small
    rw [DiagCall.shape, shape] at shape'
    obtain ⟨rfl, rfl, rfl, -⟩ : batch = _ ∧ channels = _ ∧ depth = _ ∧ _ := by simpa using shape'
    have nonzero : c.diagonal.numElements ≠ 0 := c.nonempty.1
    refine ⟨⟨by simp [DmlTensorDesc.maxDimensionCount], fun dim mem => ?_⟩, output,
      ⟨Nat.pos_of_ne_zero nonzero, small⟩, ?_⟩
    · have product : [batch, channels, c.depth, c.maxDiagLen].prod = c.diagonal.numElements := by
        rw [← elements]
        simp [mul_assoc]
      have divides := dvd_prod mem
      rw [product] at divides
      exact lt_of_le_of_lt (Nat.le_of_dvd (Nat.pos_of_ne_zero nonzero) divides) small
    · rw [product]
      exact made

theorem width_bounds (enoughRows : (c.maxDiagLen : Int) - min c.kMax 0 ≤ c.rows) :
    maxLen c.rows c.cols c.kMin c.kMax ≤ c.maxDiagLen ∧
      (c.kMin < 0 → maxLen c.rows c.cols c.kMin c.kMax = c.maxDiagLen) := by
  have rowsFit : c.rows < 2 ^ 31 := c.helped.rowsFit
  have colsFit : c.cols < 2 ^ 31 := c.helped.colsFit
  have cols_ge : i32 (c.maxDiagLen + max c.kMin 0) ≤ c.cols := c.helped.cols_ge
  have exact_ : (c.rows : Int) = i32 (c.maxDiagLen - min c.kMax 0) ∨
    (c.cols : Int) = i32 (c.maxDiagLen + max c.kMin 0) := c.helped.exact_
  obtain ⟨tall, wide, ordered, above, below⟩ := c.inRange
  rw [i32_of_bounds (n := c.maxDiagLen - min c.kMax 0) (by omega) (by omega)] at exact_
  rw [maxLen]
  by_cases small : (c.maxDiagLen : Int) + max c.kMin 0 < 2 ^ 31
  · rw [i32_of_bounds (by omega) small] at exact_ cols_ge
    omega
  · have wrapped : i32 (c.maxDiagLen + max c.kMin 0) = c.maxDiagLen + max c.kMin 0 - 2 ^ 32 := by
      rw [i32, Int.bmod_def]
      omega
    rw [wrapped] at exact_ cols_ge
    omega

theorem aligned_of_equalsReference [Nontrivial α] (equals : c.EqualsReference α) :
    Aligned c.rows c.cols c.kMin c.kMax := by
  obtain ⟨x, y, different⟩ := exists_pair_ne α
  obtain ⟨out, ran, -, -, entries⟩ := equals (fun _ => x) y
  obtain ⟨small, output, made⟩ := c.kernel_eq_some.mp ran
  obtain ⟨batches, depth, width⟩ := c.positive
  by_contra notAligned
  have blank := blank_of_not_aligned c.inRange c.helped.rowsFit c.helped.colsFit (c.reach output)
    notAligned width depth batches rfl made
  have lower : c.kMin < 0 := by
    rw [Aligned, not_or, Int.not_le] at notAligned
    omega
  have isLower : ((0 : Nat) : Int) - (-c.kMin).toNat = c.kMin := by omega
  have row : (-c.kMin).toNat < c.rows := by
    have above := c.above
    omega
  have entry := entries 0 batches _ row 0 c.inRange.wide
  rw [zero_mul, zero_add, blank, reference, isLower,
    if_pos ⟨Int.le_refl _, c.inRange.ordered⟩] at entry
  exact different entry.symm

theorem fits_of_small (small : c.diagonal.numElements < 2 ^ 32) (output : c.outElements < 2 ^ 32)
    (aligned : Aligned c.rows c.cols c.kMin c.kMax)
    (enoughRows : (c.maxDiagLen : Int) - min c.kMax 0 ≤ c.rows)
    (wrapped : c.kMax + c.rows < 2 ^ 31 ∨ c.kMin < 0) : c.kMax + c.rows < 2 ^ 31 := by
  by_contra large
  have negative := wrapped.resolve_left large
  have rowsFit : c.rows < 2 ^ 31 := c.helped.rowsFit
  have colsFit : c.cols < 2 ^ 31 := c.helped.colsFit
  have reach := c.reach output
  have depth := c.depth_eq
  have width := (c.width_bounds enoughRows).2 negative
  obtain ⟨tall, wide, ordered, above, below⟩ := c.inRange
  have elements : c.depth * c.maxDiagLen < 2 ^ 32 := by
    rw [numElements_eq] at small
    exact lt_of_le_of_lt (Nat.le_mul_of_pos_left _ c.positive.1) small
  have broad : c.rows ≤ c.cols := by
    unfold Aligned at aligned
    omega
  have isWidth : c.maxDiagLen = c.rows := by
    rw [maxLen] at width
    omega
  have isDepth : 2 ^ 31 + 2 ≤ c.depth + c.rows := by omega
  rw [isWidth] at elements
  obtain ⟨extra, isRows⟩ : ∃ extra, c.rows = extra + 2 := ⟨c.rows - 2, by omega⟩
  have least : 2 ^ 31 - extra ≤ c.depth := by omega
  have product := Nat.mul_le_mul_right c.rows least
  obtain ⟨rest, isRest⟩ : ∃ rest, 2 ^ 31 - extra = rest + 2 := ⟨2 ^ 31 - extra - 2, by omega⟩
  rw [isRest, isRows] at product
  rw [isRows] at elements
  have expand : (rest + 2) * (extra + 2) = rest * extra + 2 * (rest + extra) + 4 := by ring
  omega

theorem placeable_of_kernel {values : Nat → α} {padding : α} {out : Rows α}
    (ran : c.kernel values padding = some out) (aligned : Aligned c.rows c.cols c.kMin c.kMax) :
    c.Placeable := by
  obtain ⟨small, output, made⟩ := c.kernel_eq_some.mp ran
  obtain ⟨nonempty, depth, width⟩ := c.positive
  have rowsFit : c.rows < 2 ^ 31 := c.helped.rowsFit
  have colsFit : c.cols < 2 ^ 31 := c.helped.colsFit
  have reach := c.reach output
  obtain ⟨l, lens, -, laid, sizes, isLens, -, padded, -⟩ :=
    matrixDiag_entry width depth rfl nonempty made
  have wrapped := fits_of_layout c.inRange rowsFit colsFit reach laid
  rw [layout_eq c.inRange rowsFit colsFit reach wrapped, Option.some.injEq] at laid
  have before := (supStop_bounds c.inRange rowsFit wrapped).1
  have enoughRows : (c.maxDiagLen : Int) - min c.kMax 0 ≤ c.rows :=
    (bandLayout_sizes c.inRange before).mp (laid ▸ sizes)
  have fits := c.fits_of_small small output aligned enoughRows wrapped
  rw [supStop, if_pos fits] at laid
  subst laid
  refine ⟨aligned, enoughRows, fits, fun single => ⟨fun left => ?_, fun right => ?_⟩, output, ?_⟩
  · by_contra negative
    have needed : max 0 (min 0 (c.kMax + 1) - c.kMin) ≠ 0 := by
      have ordered := c.inRange.ordered
      omega
    obtain ⟨row, isRow⟩ := Option.ne_none_iff_exists'.mp
      (ne_none_of_cntRevLens isLens (Or.inl ⟨left, needed⟩))
    have several := (kLens_spec c.inRange.tall c.inRange.wide isRow).1
    omega
  · by_contra natural
    have needed : max 0 (c.kMax + 1 - max 0 c.kMin) ≠ 0 := by
      have ordered := c.inRange.ordered
      omega
    obtain ⟨row, isRow⟩ := Option.ne_none_iff_exists'.mp
      (ne_none_of_cntRevLens isLens (Or.inr ⟨right, needed⟩))
    have several := (kLens_spec c.inRange.tall c.inRange.wide isRow).1
    omega
  · obtain ⟨topPad, btmPad, isTop, -, isRight, top, btm⟩ :
      ∃ topPad btmPad : Nat, (bandLayout c.depth c.maxDiagLen _ _ _ _ _).topPad = topPad ∧ _ :=
      bandLayout_pads c.maxDiagLen c.inRange
    have isPadded : paddedWidth c.rows c.cols c.maxDiagLen c.kMin c.kMax =
        (topPad + c.depth + (btmPad + c.maxDiagLen) : Nat) := by
      rw [paddedWidth, ← top, ← btm, ← c.depth_eq]
      omega
    change c.batches * c.maxDiagLen * (Int.toNat (bandLayout c.depth c.maxDiagLen _ _ _ _ _).topPad +
      c.depth + Int.toNat (bandLayout c.depth c.maxDiagLen _ _ _ _ _).rightPad) < _ at padded
    rw [isTop, isRight, Int.toNat_natCast, Int.toNat_natCast] at padded
    rw [isPadded]
    exact_mod_cast padded

theorem placeable_of_equalsReference [Nontrivial α] (equals : c.EqualsReference α) :
    c.Placeable := by
  obtain ⟨x, -⟩ := exists_pair_ne α
  obtain ⟨out, ran, -⟩ := equals (fun _ => x) x
  exact c.placeable_of_kernel ran (c.aligned_of_equalsReference equals)

theorem equalsReference_of_placeable (placeable : c.Placeable) : c.EqualsReference α := by
  intro values padding
  obtain ⟨aligned, enoughRows, fits, lengths, output, padded⟩ := placeable
  obtain ⟨nonempty, depth, width⟩ := c.positive
  have rowsFit : c.rows < 2 ^ 31 := c.helped.rowsFit
  have colsFit : c.cols < 2 ^ 31 := c.helped.colsFit
  have reach := c.reach output
  obtain ⟨longest, exact_⟩ := c.width_bounds enoughRows
  have isDepth := c.depth_eq
  have inRange := c.inRange
  have elements : c.batches * c.maxDiagLen * c.depth < 2 ^ 32 := by
    have top := diagLen_le_maxLen c.rows c.cols inRange.ordered (Int.le_refl c.kMax)
    have btm := diagLen_le_maxLen c.rows c.cols (Int.le_refl c.kMin) inRange.ordered
    have most : (c.depth : Int) ≤ paddedWidth c.rows c.cols c.maxDiagLen c.kMin c.kMax := by
      rw [paddedWidth]
      omega
    have product := Int.mul_le_mul_of_nonneg_left most
      (Int.natCast_nonneg (c.batches * c.maxDiagLen))
    have bound := Int.lt_of_le_of_lt product padded
    exact_mod_cast bound
  have small : c.diagonal.numElements < 2 ^ 32 := by
    rw [numElements_eq, mul_comm c.depth, ← mul_assoc]
    exact elements
  have rowCount : c.batches * c.depth < 2 ^ 32 := by
    have le := Nat.mul_le_mul_right c.depth (Nat.le_mul_of_pos_right c.batches width)
    omega
  have several (needed : min c.rows c.cols ≠ 1) : 2 ≤ min c.rows c.cols := by
    obtain ⟨tall, wide, -⟩ := inRange
    omega
  obtain ⟨out, made⟩ : ∃ out, matrixDiag (c.diagonals values) c.batches c.depth c.kMin c.kMax
      padding c.rows c.cols c.attr = some out := matrixDiag_some inRange rowsFit colsFit reach fits enoughRows width nonempty isDepth rfl
    longest
    (fun left negative => several fun single =>
      absurd ((lengths single).1 left) (Int.not_le.mpr negative))
    (fun right natural => several fun single =>
      absurd ((lengths single).2 right) (Int.not_lt.mpr natural))
    padded (by rw [mul_assoc]; exact c.outElements_eq ▸ output)
  obtain ⟨-, -, -, -, -, -, -, -, count, outWidth, -⟩ :=
    matrixDiag_entry width depth rfl nonempty made
  refine ⟨out, c.kernel_eq_some.mpr ⟨small, output, made⟩, count, outWidth,
    fun b _ i row j column => ?_⟩
  exact matrixDiag_reference inRange rowsFit colsFit reach fits aligned width nonempty isDepth rfl
    rowCount longest exact_ made b row column

/-- The kernel and the reference make the same matrices if and only if no matrix is too tall for
    a band below the main diagonal, and the graph can be built. -/
theorem equalsReference_iff_placeable [Nontrivial α] : c.EqualsReference α ↔ c.Placeable :=
  ⟨c.placeable_of_equalsReference, c.equalsReference_of_placeable⟩

/-- Three diagonals around the main one, for two square matrices. -/
def squareBand : BandCall where
  diagonal := [2, 3, 4]
  band := some ⟨⟨[2], [-1, 1], rfl⟩, 4, 4⟩
  align := some .rightLeft
  init := ⟨[2], 4, 4, -1, 1⟩
  accepted := rfl
  runs := rfl
  above := by decide
  below := by decide

theorem squareBand_equalsReference : squareBand.EqualsReference Nat :=
  (squareBand.equalsReference_iff_placeable).mpr
    ⟨Or.inr (by decide), by decide, by decide, by decide, by decide, by decide⟩

/-- Two diagonals below the main one, for two matrices with five rows and three columns. -/
def tallBand : BandCall where
  diagonal := [2, 2, 3]
  band := some ⟨⟨[2], [-2, -1], rfl⟩, 5, 3⟩
  align := some .rightLeft
  init := ⟨[2], 5, 3, -2, -1⟩
  accepted := rfl
  runs := rfl
  above := by decide
  below := by decide

theorem tallBand_not_equalsReference : ¬tallBand.EqualsReference Nat :=
  fun equals => absurd (tallBand.aligned_of_equalsReference equals) (by
    rw [Aligned, not_or]
    decide)

end BandCall

end TfDml.MatrixDiag
