import TfDml.Core.Common
import Mathlib.Algebra.Order.Ring.Int
import Mathlib.Tactic.Ring

/-! # Windows over one dimension

The size of the output of a windowed operation and the padding it needs, in checked
64-bit arithmetic.
-/

namespace TfDml

open Option

/-- An `int64_t` result; nothing on signed overflow. -/
def checked64 (n : Int) : Option Int := if -2 ^ 63 ≤ n ∧ n < 2 ^ 63 then some n else none

theorem checked64_eq_some {n m : Int} :
    checked64 n = some m ↔ m = n ∧ -2 ^ 63 ≤ n ∧ n < 2 ^ 63 := by
  unfold checked64
  split <;> grind

theorem checked64_of_bounds {n : Int} (low : -2 ^ 63 ≤ n) (high : n < 2 ^ 63) :
    checked64 n = some n :=
  checked64_eq_some.mpr ⟨rfl, low, high⟩

inductive TensorFormat where
  | nhwc
  | nchw
  | nchwVectC
  | nhwcVectW
  | hwnc
  | hwcn
  deriving DecidableEq

inductive Padding where
  | valid
  | same
  | explicit
  deriving DecidableEq

/-- The output size, and the padding before and after the dimension. -/
structure WindowedOutput where
  outputSize : Int
  paddingBefore : Int
  paddingAfter : Int
  deriving DecidableEq

/-- The paddings given are those of the caller's variables, which only `EXPLICIT` reads. -/
def getWindowedOutputSizeVerboseV2 (inputSize filterSize dilationRate stride : Int)
    (paddingType : Padding) (paddingBefore paddingAfter : Int) :
    Option (Except Status WindowedOutput) :=
  if stride ≤ 0 then
    some (.error (.invalidArgument ("Stride must be > 0, but got " ++ toString stride)))
  else if dilationRate < 1 then
    some (.error (.invalidArgument
      ("Dilation rate must be >= 1, but got " ++ toString dilationRate)))
  else do
    let reach ← checked64 (filterSize - 1)
    let spread ← checked64 (reach * dilationRate)
    let effectiveFilterSize ← checked64 (spread + 1)
    let windowed ←
      match paddingType with
      | .valid => do
        let free ← checked64 (inputSize - effectiveFilterSize)
        let rounded ← checked64 (free + stride)
        some (⟨rounded.tdiv stride, 0, 0⟩ : WindowedOutput)
      | .explicit => do
        let padded ← checked64 (inputSize + paddingBefore)
        let padded ← checked64 (padded + paddingAfter)
        let free ← checked64 (padded - effectiveFilterSize)
        let rounded ← checked64 (free + stride)
        some ⟨rounded.tdiv stride, paddingBefore, paddingAfter⟩
      | .same => do
        let rounded ← checked64 (inputSize + stride)
        let rounded ← checked64 (rounded - 1)
        let outputSize := rounded.tdiv stride
        let last ← checked64 (outputSize - 1)
        let last ← checked64 (last * stride)
        let covered ← checked64 (last + effectiveFilterSize)
        let missing ← checked64 (covered - inputSize)
        let paddingNeeded := max 0 missing
        let paddingBefore := paddingNeeded.tdiv 2
        some ⟨outputSize, paddingBefore, paddingNeeded - paddingBefore⟩
    if windowed.outputSize < 0 then
      some (.error (.invalidArgument
        ("Computed output size would be negative: " ++ toString windowed.outputSize ++
          " [input_size: " ++ toString inputSize ++ ", effective_filter_size: " ++
          toString effectiveFilterSize ++ ", stride: " ++ toString stride ++ "]")))
    else some (.ok windowed)

def filterSpread (filterSize dilationRate : Int) : Int := (filterSize - 1) * dilationRate

/-- The part of the spread that needs no padding, since the last window does not start at
    the last element. -/
def spareSize (inputSize filterSize dilationRate stride : Int) : Int :=
  min ((inputSize - 1) % stride) (filterSpread filterSize dilationRate)

/-- What `SAME` pads in total. -/
def samePaddingNeeded (inputSize filterSize dilationRate stride : Int) : Int :=
  filterSpread filterSize dilationRate - spareSize inputSize filterSize dilationRate stride

section Same

variable {inputSize filterSize dilationRate stride : Int}

theorem last_window (strided : 0 < stride) :
    ((inputSize + stride - 1) / stride - 1) * stride = inputSize - 1 - (inputSize - 1) % stride := by
  have shifted : (inputSize + stride - 1) / stride = (inputSize - 1) / stride + 1 := by
    rw [show inputSize + stride - 1 = inputSize - 1 + stride by ring,
      Int.add_ediv_of_dvd_right (dvd_refl stride), Int.ediv_self (by omega)]
  have split := Int.mul_ediv_add_emod (inputSize - 1) stride
  rw [shifted, add_sub_cancel_right, mul_comm]
  omega

theorem filterSpread_nonneg (filtered : 1 ≤ filterSize) (dilated : 1 ≤ dilationRate) :
    0 ≤ filterSpread filterSize dilationRate :=
  mul_nonneg (by omega) (by omega)

theorem same_spec {pre after : Int} {windowed : WindowedOutput} (sized : 0 ≤ inputSize)
    (filtered : 1 ≤ filterSize)
    (ret : getWindowedOutputSizeVerboseV2 inputSize filterSize dilationRate stride .same
      pre after = some (.ok windowed)) : 0 < stride ∧ 1 ≤ dilationRate ∧
      filterSpread filterSize dilationRate + 1 < 2 ^ 63 ∧ inputSize + stride - 1 < 2 ^ 63 ∧
      inputSize - 1 - (inputSize - 1) % stride + filterSpread filterSize dilationRate + 1 < 2 ^ 63 ∧
      windowed.outputSize = (inputSize + stride - 1) / stride ∧ windowed.paddingBefore =
        samePaddingNeeded inputSize filterSize dilationRate stride / 2 ∧
      windowed.paddingAfter = samePaddingNeeded inputSize filterSize dilationRate stride -
        samePaddingNeeded inputSize filterSize dilationRate stride / 2 := by
  unfold getWindowedOutputSizeVerboseV2 at ret
  split at ret
  · simp at ret
  split at ret
  · simp at ret
  rename_i strided dilated
  simp only [bind_eq_bind, bind_eq_some_iff, checked64_eq_some] at ret
  obtain ⟨reach, ⟨rfl, -⟩, spread, ⟨rfl, -⟩, effective, ⟨rfl, -, effectiveFits⟩, shifted,
    ⟨rfl, -⟩, rounded, ⟨rfl, -, roundedFits⟩, last, ⟨rfl, -⟩, start, ⟨rfl, -⟩, covered,
    ⟨rfl, -, coveredFits⟩, missing, ⟨rfl, -⟩, output, same, result⟩ := ret
  have strided : 0 < stride := by omega
  have quotient : (inputSize + stride - 1).tdiv stride = (inputSize + stride - 1) / stride :=
    Int.tdiv_eq_ediv_of_nonneg (by omega)
  rw [quotient, last_window strided] at same coveredFits
  have rest := Int.emod_nonneg (inputSize - 1) strided.ne'
  have spread := filterSpread_nonneg filtered (not_lt.mp dilated)
  have needed : max 0 (inputSize - 1 - (inputSize - 1) % stride +
      ((filterSize - 1) * dilationRate + 1) - inputSize) = samePaddingNeeded inputSize filterSize dilationRate stride := by
    simp only [samePaddingNeeded, spareSize, filterSpread] at spread ⊢
    omega
  have halved : 0 ≤ samePaddingNeeded inputSize filterSize dilationRate stride := by
    rw [← needed]
    omega
  rw [needed, Int.tdiv_eq_ediv_of_nonneg halved, Option.some.injEq] at same
  subst same
  split at result
  · simp at result
  · simp only [Option.some.injEq, Except.ok.injEq] at result
    subst result
    refine ⟨strided, not_lt.mp dilated, effectiveFits, roundedFits, ?_, rfl, rfl, rfl⟩
    simp only [filterSpread]
    omega

theorem explicit_spec {before after padBefore padAfter : Int} {windowed : WindowedOutput}
    (sized : 0 ≤ inputSize) (padded : 0 ≤ padBefore) (padded' : 0 ≤ padAfter)
    (filtered : 1 ≤ filterSize)
    (ret : getWindowedOutputSizeVerboseV2 (inputSize + padBefore + padAfter) filterSize
      dilationRate stride .same before after = some (.ok windowed)) :
    getWindowedOutputSizeVerboseV2 inputSize filterSize dilationRate stride .explicit
      (padBefore + windowed.paddingBefore) (padAfter + windowed.paddingAfter) =
      some (.ok ⟨windowed.outputSize, padBefore + windowed.paddingBefore,
        padAfter + windowed.paddingAfter⟩) := by
  obtain ⟨strided, dilated, effectiveFits, roundedFits, coveredFits, size, first, last⟩ :=
    same_spec (by omega) filtered ret
  have spread := filterSpread_nonneg filtered dilated
  have reach : filterSize - 1 ≤ filterSpread filterSize dilationRate :=
    le_mul_of_one_le_right (by omega) dilated
  have rest := Int.emod_nonneg (inputSize + padBefore + padAfter - 1) strided.ne'
  have restSmall := Int.emod_lt_of_pos (inputSize + padBefore + padAfter - 1) strided
  have split := Int.mul_ediv_add_emod (inputSize + padBefore + padAfter - 1) stride
  rw [samePaddingNeeded, spareSize] at first last
  have quotient : windowed.outputSize = (inputSize + padBefore + padAfter - 1) / stride + 1 := by
    rw [size, show inputSize + padBefore + padAfter + stride - 1 =
      inputSize + padBefore + padAfter - 1 + stride by ring,
      Int.add_ediv_of_dvd_right (dvd_refl stride), Int.ediv_self (by omega)]
  -- the last window ends before the padding does, by less than a stride
  obtain ⟨slack, slackLow, slackHigh, total⟩ : ∃ slack, 0 ≤ slack ∧ slack < stride ∧
      inputSize + (padBefore + windowed.paddingBefore) + (padAfter + windowed.paddingAfter) -
        (filterSpread filterSize dilationRate + 1) + stride =
        slack + stride * windowed.outputSize := by
    refine ⟨max 0 ((inputSize + padBefore + padAfter - 1) % stride -
      filterSpread filterSize dilationRate), by omega, by omega, ?_⟩
    rw [quotient, mul_add, mul_one]
    omega
  have ge : 0 ≤ windowed.outputSize := by
    rw [size]
    exact Int.ediv_nonneg (by omega) (by omega)
  have starts : 0 ≤ stride * windowed.outputSize := mul_nonneg strided.le ge
  have divided : (slack + stride * windowed.outputSize).tdiv stride = windowed.outputSize := by
    rw [Int.tdiv_eq_ediv_of_nonneg (by omega), Int.add_mul_ediv_left _ _ strided.ne',
      Int.ediv_eq_zero_of_lt slackLow slackHigh, zero_add]
  have reaches : checked64 (filterSize - 1) = some (filterSize - 1) :=
    checked64_of_bounds (by omega) (by omega)
  have spreads : checked64 ((filterSize - 1) * dilationRate) =
      some (filterSpread filterSize dilationRate) :=
    checked64_of_bounds (Int.le_trans (by decide) spread) (Int.lt_of_add_one_le effectiveFits.le)
  have effective : checked64 (filterSpread filterSize dilationRate + 1) =
      some (filterSpread filterSize dilationRate + 1) := checked64_of_bounds (by omega) (by omega)
  have firstFits : checked64 (inputSize + (padBefore + windowed.paddingBefore)) =
      some (inputSize + (padBefore + windowed.paddingBefore)) :=
    checked64_of_bounds (by omega) (by omega)
  have bothFit : checked64 (inputSize + (padBefore + windowed.paddingBefore) +
      (padAfter + windowed.paddingAfter)) = some (inputSize +
      (padBefore + windowed.paddingBefore) + (padAfter + windowed.paddingAfter)) :=
    checked64_of_bounds (by omega) (by omega)
  have freeFits : checked64 (inputSize + (padBefore + windowed.paddingBefore) +
      (padAfter + windowed.paddingAfter) - (filterSpread filterSize dilationRate + 1)) =
      some (inputSize + (padBefore + windowed.paddingBefore) +
        (padAfter + windowed.paddingAfter) - (filterSpread filterSize dilationRate + 1)) :=
    checked64_of_bounds (by omega) (by omega)
  have roundedFits' : checked64 (inputSize + (padBefore + windowed.paddingBefore) +
      (padAfter + windowed.paddingAfter) - (filterSpread filterSize dilationRate + 1) + stride) =
      some (slack + stride * windowed.outputSize) :=
    checked64_eq_some.mpr ⟨total.symm, by omega, by omega⟩
  unfold getWindowedOutputSizeVerboseV2
  rw [if_neg (not_le.mpr strided), if_neg (not_lt.mpr dilated)]
  simp only [bind_eq_bind, reaches, spreads, effective, firstFits, bothFit, freeFits,
    roundedFits', bind_some, divided, if_neg (not_lt.mpr ge)]

end Same

section Padded

variable {inputSize filterSize dilationRate stride : Int} {windowed : WindowedOutput}

theorem explicit_of_valid {pre after : Int} (sized : 0 ≤ inputSize)
    (lt : inputSize < 2 ^ 63)
    (ret : getWindowedOutputSizeVerboseV2 inputSize filterSize dilationRate stride .valid
      pre after = some (.ok windowed)) :
    getWindowedOutputSizeVerboseV2 inputSize filterSize dilationRate stride .explicit 0 0 =
      some (.ok windowed) := by
  have fits : checked64 inputSize = some inputSize := checked64_of_bounds (by omega) lt
  unfold getWindowedOutputSizeVerboseV2 at ret ⊢
  simpa only [add_zero, bind_eq_bind, fits, bind_some] using ret

theorem explicit_of_padded {pre after ownBefore ownAfter : Int} (sized : 0 ≤ inputSize)
    (padded : 0 ≤ pre) (padded' : 0 ≤ after) (own : 0 ≤ ownBefore) (own' : 0 ≤ ownAfter)
    (ret : getWindowedOutputSizeVerboseV2 (inputSize + pre + after) filterSize dilationRate
      stride .explicit ownBefore ownAfter = some (.ok windowed)) :
    windowed.paddingBefore = ownBefore ∧ windowed.paddingAfter = ownAfter ∧
      getWindowedOutputSizeVerboseV2 inputSize filterSize dilationRate stride .explicit
        (pre + ownBefore) (after + ownAfter) =
        some (.ok ⟨windowed.outputSize, pre + ownBefore, after + ownAfter⟩) := by
  unfold getWindowedOutputSizeVerboseV2 at ret ⊢
  split at ret
  · cases ret
  split at ret
  · cases ret
  rename_i strided dilated
  simp only [bind_eq_bind, bind_eq_some_iff] at ret
  obtain ⟨reach, isReach, spread, isSpread, effective, isEffective, first, isFirst, total, isTotal,
    free, isFree, rounded, isRounded, output, out, result⟩ := ret
  obtain rfl := some.inj out
  obtain ⟨rfl, -⟩ := checked64_eq_some.mp isFirst
  obtain ⟨rfl, low, high⟩ := checked64_eq_some.mp isTotal
  split at result
  · cases result
  rename_i ge
  obtain rfl := Except.ok.inj (some.inj result)
  have firstFits : checked64 (inputSize + (pre + ownBefore)) =
      some (inputSize + (pre + ownBefore)) := checked64_of_bounds (by omega) (by omega)
  have same : inputSize + (pre + ownBefore) + (after + ownAfter) =
      inputSize + pre + after + ownBefore + ownAfter := by omega
  refine ⟨rfl, rfl, ?_⟩
  rw [if_neg strided, if_neg dilated]
  simp only [bind_eq_bind, isReach, isSpread, isEffective, firstFits, same, isTotal, isFree,
    isRounded, bind_some, if_neg ge]

end Padded

end TfDml
