import TfDml.Core.KernelShapeUtil
import Mathlib.Data.Rat.Floor

/-! # The windows of a dimension

What the output size and the paddings of `GetWindowedOutputSizeVerboseV2` say about the windows:
where they start, and which elements of the input they read.
-/

namespace TfDml

theorem le_of_tdiv_pos {n s : Int} (divisor : 1 ≤ s) (pos : 1 ≤ n.tdiv s) : s ≤ n := by
  by_contra less
  cases Int.lt_or_le n 0 with
  | inl neg =>
    have opposite := Int.tdiv_nonneg (Int.neg_nonneg_of_nonpos neg.le)
      (Int.le_trans (by decide) divisor)
    rw [Int.neg_tdiv] at opposite
    omega
  | inr ge =>
    rw [Int.tdiv_eq_zero_of_lt ge (by omega)] at pos
    omega

/-- The arguments of a call; `EXPLICIT` paddings are not negative. -/
structure WindowedInput where
  inputSize : Int
  filterSize : Int
  dilationRate : Int
  stride : Int
  paddingType : Padding
  paddingBefore : Int
  paddingAfter : Int
  sized : 0 ≤ inputSize
  filtered : 1 ≤ filterSize
  dilated : 1 ≤ dilationRate
  strided : 1 ≤ stride
  explicit : paddingType = .explicit → 0 ≤ paddingBefore ∧ 0 ≤ paddingAfter

namespace WindowedInput

variable (c : WindowedInput)

def windowed : Option (Except Status WindowedOutput) :=
  getWindowedOutputSizeVerboseV2 c.inputSize c.filterSize c.dilationRate c.stride c.paddingType
    c.paddingBefore c.paddingAfter

def effectiveFilterSize : Int := filterSpread c.filterSize c.dilationRate + 1

/-- Where a window starts, counted from the first element of the input. -/
def start (w : WindowedOutput) (o : Int) : Int := o * c.stride - w.paddingBefore

def position (w : WindowedOutput) (o k : Int) : Int := c.start w o + k * c.dilationRate

def InInput (position : Int) : Prop := 0 ≤ position ∧ position < c.inputSize

def ReadsInput (w : WindowedOutput) (o : Int) : Prop :=
  ∃ k, 0 ≤ k ∧ k < c.filterSize ∧ c.InInput (c.position w o k)

def OverlapsInput (w : WindowedOutput) (o : Int) : Prop :=
  c.start w o < c.inputSize ∧ 0 ≤ c.start w o + c.effectiveFilterSize - 1

/-- The sizes, the paddings and the windows' starts fit together. -/
structure Arithmetic (w : WindowedOutput) : Prop where
  nonneg : 0 ≤ w.paddingBefore ∧ 0 ≤ w.paddingAfter
  count : (c.inputSize + w.paddingBefore + w.paddingAfter - c.effectiveFilterSize) / c.stride + 1 =
    w.outputSize
  starts : ∀ o, 0 ≤ o → o < w.outputSize →
    -w.paddingBefore ≤ c.start w o ∧ c.start w o < c.inputSize + w.paddingAfter
  ceil : c.paddingType = .same → w.outputSize = ⌈(c.inputSize : ℚ) / c.stride⌉
  halves : c.paddingType = .same →
    w.paddingBefore ≤ w.paddingAfter ∧ w.paddingAfter ≤ w.paddingBefore + 1
  unpadded : c.paddingType = .valid → ∀ o, 0 ≤ o → o < w.outputSize →
    ∀ k, 0 ≤ k → k < c.filterSize → c.InInput (c.position w o k)

/-- With `SAME`, no window consists of padding only. -/
def NoneIsPadding (w : WindowedOutput) : Prop :=
  c.paddingType = .same → ∀ o, 0 ≤ o → o < w.outputSize → c.ReadsInput w o

/-- With `SAME`, every window overlaps the input, and it reads an element of it unless the dilation
    is larger than the input. -/
def NoneIsOutside (w : WindowedOutput) : Prop :=
  c.paddingType = .same → ∀ o, 0 ≤ o → o < w.outputSize → c.OverlapsInput w o ∧
    (c.dilationRate ≤ c.inputSize ∨ c.filterSize % 2 = 1 → c.ReadsInput w o)

variable {c}

theorem effective_pos : 1 ≤ c.effectiveFilterSize := by
  have spread := filterSpread_nonneg c.filtered c.dilated
  rw [effectiveFilterSize]
  omega

variable {inputSize filterSize dilationRate stride before after : Int}

theorem explicit_count {w : WindowedOutput} (strided : 1 ≤ stride) (some_ : 1 ≤ w.outputSize)
    (ret : getWindowedOutputSizeVerboseV2 inputSize filterSize dilationRate stride .explicit
      before after = some (.ok w)) : w.paddingBefore = before ∧ w.paddingAfter = after ∧
      0 ≤ inputSize + before + after - (filterSpread filterSize dilationRate + 1) ∧
      (inputSize + before + after - (filterSpread filterSize dilationRate + 1)) / stride + 1 =
        w.outputSize := by
  unfold getWindowedOutputSizeVerboseV2 at ret
  rw [if_neg (by omega)] at ret
  split at ret
  · cases ret
  simp only [Option.bind_eq_bind, Option.bind_eq_some_iff] at ret
  obtain ⟨reach, isReach, spread, isSpread, effective, isEffective, first, isFirst, total, isTotal,
    free, isFree, rounded, isRounded, output, out, result⟩ := ret
  obtain rfl := Option.some.inj out
  split at result
  · cases result
  obtain rfl := Except.ok.inj (Option.some.inj result)
  obtain ⟨rfl, -⟩ := checked64_eq_some.mp isReach
  obtain ⟨rfl, -⟩ := checked64_eq_some.mp isSpread
  obtain ⟨rfl, -⟩ := checked64_eq_some.mp isEffective
  obtain ⟨rfl, -⟩ := checked64_eq_some.mp isFirst
  obtain ⟨rfl, -⟩ := checked64_eq_some.mp isTotal
  obtain ⟨rfl, -⟩ := checked64_eq_some.mp isFree
  obtain ⟨rfl, -⟩ := checked64_eq_some.mp isRounded
  have enough := le_of_tdiv_pos strided some_
  refine ⟨rfl, rfl, by rw [filterSpread]; omega, ?_⟩
  rw [Int.tdiv_eq_ediv_of_nonneg (by omega), filterSpread,
    Int.add_ediv_of_dvd_right (dvd_refl stride), Int.ediv_self (by omega)]

theorem valid_count {w : WindowedOutput} (strided : 1 ≤ stride) (some_ : 1 ≤ w.outputSize)
    (ret : getWindowedOutputSizeVerboseV2 inputSize filterSize dilationRate stride .valid
      before after = some (.ok w)) : w.paddingBefore = 0 ∧ w.paddingAfter = 0 ∧
      (inputSize - (filterSpread filterSize dilationRate + 1)) / stride + 1 = w.outputSize := by
  unfold getWindowedOutputSizeVerboseV2 at ret
  rw [if_neg (by omega)] at ret
  split at ret
  · cases ret
  simp only [Option.bind_eq_bind, Option.bind_eq_some_iff] at ret
  obtain ⟨reach, isReach, spread, isSpread, effective, isEffective, free, isFree, rounded,
    isRounded, output, out, result⟩ := ret
  obtain rfl := Option.some.inj out
  split at result
  · cases result
  obtain rfl := Except.ok.inj (Option.some.inj result)
  obtain ⟨rfl, -⟩ := checked64_eq_some.mp isReach
  obtain ⟨rfl, -⟩ := checked64_eq_some.mp isSpread
  obtain ⟨rfl, -⟩ := checked64_eq_some.mp isEffective
  obtain ⟨rfl, -⟩ := checked64_eq_some.mp isFree
  obtain ⟨rfl, -⟩ := checked64_eq_some.mp isRounded
  have enough := le_of_tdiv_pos strided some_
  refine ⟨rfl, rfl, ?_⟩
  rw [Int.tdiv_eq_ediv_of_nonneg (by omega), filterSpread,
    Int.add_ediv_of_dvd_right (dvd_refl stride), Int.ediv_self (by omega)]

theorem arithmetic_of_count {w : WindowedOutput} (other : c.paddingType ≠ .same)
    (ge : 0 ≤ w.paddingBefore ∧ 0 ≤ w.paddingAfter)
    (count : (c.inputSize + w.paddingBefore + w.paddingAfter - c.effectiveFilterSize) / c.stride +
      1 = w.outputSize)
    (plain : c.paddingType = .valid → w.paddingBefore = 0 ∧ w.paddingAfter = 0) :
    c.Arithmetic w := by
  have effective := c.effective_pos
  have strided := c.strided
  -- the last window ends inside of the padded input
  have last {o : Int} (inside : o < w.outputSize) : o * c.stride ≤
      c.inputSize + w.paddingBefore + w.paddingAfter - c.effectiveFilterSize :=
    (Int.le_ediv_iff_mul_le (by omega)).mp (by omega)
  refine ⟨ge, count, fun o low high => ?_, fun same => absurd same other,
    fun same => absurd same other, fun valid o low high k first later => ?_⟩
  · have end_ := last high
    have first := mul_nonneg low (Int.le_trans (by decide) strided)
    rw [start]
    omega
  · obtain ⟨before, after⟩ := plain valid
    have end_ := last high
    have origin := mul_nonneg low (Int.le_trans (by decide) strided)
    have step := mul_nonneg first (Int.le_trans (by decide) c.dilated)
    have reach : k * c.dilationRate ≤ filterSpread c.filterSize c.dilationRate :=
      mul_le_mul_of_nonneg_right (by omega) (Int.le_trans (by decide) c.dilated)
    rw [effectiveFilterSize] at end_
    rw [InInput, position, start]
    omega

/-- The output of `SAME`, from the last element of the input. -/
structure Halved (c : WindowedInput) (w : WindowedOutput) : Prop where
  sized : 1 ≤ c.inputSize
  count : w.outputSize = (c.inputSize - 1) / c.stride + 1
  before : w.paddingBefore = samePaddingNeeded c.inputSize c.filterSize c.dilationRate c.stride / 2
  after : w.paddingAfter = samePaddingNeeded c.inputSize c.filterSize c.dilationRate c.stride -
    samePaddingNeeded c.inputSize c.filterSize c.dilationRate c.stride / 2

theorem halved_of_same {w : WindowedOutput} (same : c.paddingType = .same)
    (some_ : 1 ≤ w.outputSize) (ret : c.windowed = some (.ok w)) : c.Halved w := by
  rw [windowed, same] at ret
  obtain ⟨-, -, -, -, -, size, before, after⟩ := same_spec c.sized c.filtered ret
  have strided := c.strided
  have split := Int.mul_ediv_add_emod (c.inputSize + c.stride - 1) c.stride
  have least := mul_le_mul_of_nonneg_left (size ▸ some_) (Int.le_trans (by decide) strided)
  have rest := Int.emod_nonneg (c.inputSize + c.stride - 1) (by omega : c.stride ≠ 0)
  have sized : 1 ≤ c.inputSize := by omega
  refine ⟨sized, ?_, before, after⟩
  rw [size, show c.inputSize + c.stride - 1 = c.inputSize - 1 + c.stride by ring,
    Int.add_ediv_of_dvd_right (dvd_refl c.stride), Int.ediv_self (by omega)]

namespace Halved

variable {w : WindowedOutput} (halved : c.Halved w)

include halved

theorem last : (w.outputSize - 1) * c.stride + (c.inputSize - 1) % c.stride = c.inputSize - 1 := by
  have split := Int.mul_ediv_add_emod (c.inputSize - 1) c.stride
  rw [halved.count, add_sub_cancel_right, mul_comm]
  exact split

variable {o : Int}

theorem start_le (lt : o < w.outputSize) :
    o * c.stride ≤ c.inputSize - 1 - (c.inputSize - 1) % c.stride := by
  have last := halved.last
  have least : o * c.stride ≤ (w.outputSize - 1) * c.stride :=
    mul_le_mul_of_nonneg_right (by omega) (Int.le_trans (by decide) c.strided)
  omega

omit halved in
theorem spare_bounds : 0 ≤ (c.inputSize - 1) % c.stride ∧ (c.inputSize - 1) % c.stride < c.stride :=
  ⟨Int.emod_nonneg _ (by have strided := c.strided; omega),
    Int.emod_lt_of_pos _ (by have strided := c.strided; omega)⟩

theorem needed_bounds : 0 ≤ w.paddingBefore ∧ w.paddingBefore ≤ w.paddingAfter ∧
    w.paddingAfter ≤ w.paddingBefore + 1 ∧
    w.paddingBefore + w.paddingAfter = filterSpread c.filterSize c.dilationRate -
      min ((c.inputSize - 1) % c.stride) (filterSpread c.filterSize c.dilationRate) := by
  have spread := filterSpread_nonneg c.filtered c.dilated
  have rest := spare_bounds (c := c)
  have before := halved.before
  have after := halved.after
  rw [samePaddingNeeded, spareSize] at before after
  omega

theorem arithmetic (same : c.paddingType = .same) : c.Arithmetic w := by
  have strided := c.strided
  have rest := spare_bounds (c := c)
  have bounds := halved.needed_bounds
  have last := halved.last
  have spread := filterSpread_nonneg c.filtered c.dilated
  refine ⟨⟨bounds.1, by omega⟩, ?_, fun o low high => ?_, fun _ => ?_,
    fun _ => ⟨bounds.2.1, bounds.2.2.1⟩, fun valid => absurd (same.symm.trans valid) (by decide)⟩
  · have total : c.inputSize + w.paddingBefore + w.paddingAfter - c.effectiveFilterSize =
        (c.inputSize - 1) % c.stride - min ((c.inputSize - 1) % c.stride)
          (filterSpread c.filterSize c.dilationRate) + (w.outputSize - 1) * c.stride := by
      rw [effectiveFilterSize]
      omega
    rw [total, Int.add_mul_ediv_right _ _ (by omega), Int.ediv_eq_zero_of_lt (by omega) (by omega)]
    omega
  · have first := mul_nonneg low (Int.le_trans (by decide) strided)
    have start := halved.start_le high
    rw [WindowedInput.start]
    omega
  · have pos : (0 : ℚ) < c.stride := by exact_mod_cast strided
    refine (Int.ceil_eq_iff.mpr ⟨?_, ?_⟩).symm
    · rw [lt_div_iff₀ pos]
      exact_mod_cast (by omega : (w.outputSize - 1) * c.stride < c.inputSize)
    · rw [div_le_iff₀ pos]
      have whole : c.inputSize ≤ w.outputSize * c.stride := by
        rw [show w.outputSize * c.stride = (w.outputSize - 1) * c.stride + c.stride by ring]
        omega
      exact_mod_cast whole

theorem overlaps (low : 0 ≤ o) (high : o < w.outputSize) : c.OverlapsInput w o := by
  have first := mul_nonneg low (Int.le_trans (by decide) c.strided)
  have start := halved.start_le high
  have rest := spare_bounds (c := c)
  have bounds := halved.needed_bounds
  have spread := filterSpread_nonneg c.filtered c.dilated
  rw [OverlapsInput, WindowedInput.start, effectiveFilterSize]
  omega

theorem reads_of_dilation (low : 0 ≤ o) (high : o < w.outputSize)
    (small : c.dilationRate ≤ c.inputSize) : c.ReadsInput w o := by
  obtain ⟨below, above⟩ := halved.overlaps low high
  have dilated := c.dilated
  by_cases lt : 0 ≤ c.start w o
  · exact ⟨0, le_refl 0, c.filtered, by rw [InInput, position]; omega⟩
  · -- the first element that is not before the input
    have split := Int.mul_ediv_add_emod (-c.start w o + c.dilationRate - 1) c.dilationRate
    have rest := Int.emod_nonneg (-c.start w o + c.dilationRate - 1) (by omega : c.dilationRate ≠ 0)
    have restSmall := Int.emod_lt_of_pos (-c.start w o + c.dilationRate - 1)
      (by omega : 0 < c.dilationRate)
    refine ⟨(-c.start w o + c.dilationRate - 1) / c.dilationRate,
      Int.ediv_nonneg (by omega) (by omega), ?_, ?_⟩
    · refine Int.ediv_lt_of_lt_mul (by omega) ?_
      have reach : c.effectiveFilterSize = (c.filterSize - 1) * c.dilationRate + 1 := rfl
      rw [show c.filterSize * c.dilationRate = (c.filterSize - 1) * c.dilationRate +
        c.dilationRate by ring]
      omega
    · rw [InInput, position, mul_comm]
      omega

theorem reads_of_odd (low : 0 ≤ o) (high : o < w.outputSize) (odd : c.filterSize % 2 = 1) :
    c.ReadsInput w o := by
  have first := mul_nonneg low (Int.le_trans (by decide) c.strided)
  have start := halved.start_le high
  have rest := spare_bounds (c := c)
  have bounds := halved.needed_bounds
  have filtered := c.filtered
  have middle : filterSpread c.filterSize c.dilationRate =
      2 * (c.filterSize / 2 * c.dilationRate) := by
    rw [filterSpread, ← mul_assoc]
    exact congrArg (· * _) (by omega)
  have half : 0 ≤ c.filterSize / 2 * c.dilationRate :=
    mul_nonneg (by omega) (Int.le_trans (by decide) c.dilated)
  refine ⟨c.filterSize / 2, by omega, by omega, ?_⟩
  rw [InInput, position, WindowedInput.start]
  rw [middle] at bounds
  omega

end Halved

theorem arithmetic_of_windowed {w : WindowedOutput} (some_ : 1 ≤ w.outputSize)
    (ret : c.windowed = some (.ok w)) : c.Arithmetic w := by
  cases type : c.paddingType with
  | same => exact (halved_of_same type some_ ret).arithmetic type
  | valid =>
    rw [windowed, type] at ret
    obtain ⟨before, after, count⟩ := valid_count c.strided some_ ret
    refine arithmetic_of_count (by rw [type]; decide) (by omega) ?_ fun _ => ⟨before, after⟩
    rw [before, after, add_zero, add_zero]
    exact count
  | explicit =>
    rw [windowed, type] at ret
    obtain ⟨before, after, -, count⟩ := explicit_count c.strided some_ ret
    have ge := c.explicit type
    rw [← before, ← after] at count ge
    exact arithmetic_of_count (by rw [type]; decide) ge count
      fun valid => absurd (type.symm.trans valid) (by decide)

theorem noneIsOutside_of_windowed {w : WindowedOutput} (some_ : 1 ≤ w.outputSize)
    (ret : c.windowed = some (.ok w)) : c.NoneIsOutside w := by
  intro same o low high
  have halved := halved_of_same same some_ ret
  refine ⟨halved.overlaps low high, fun either => ?_⟩
  cases either with
  | inl lt => exact halved.reads_of_dilation low high lt
  | inr odd => exact halved.reads_of_odd low high odd

/-- The sizes and the paddings that are reported describe windows over the padded input. -/
theorem windows_fit (c : WindowedInput) (w : WindowedOutput) (some_ : 1 ≤ w.outputSize)
    (returned : c.windowed = some (.ok w)) : c.Arithmetic w ∧ c.NoneIsOutside w :=
  ⟨arithmetic_of_windowed some_ returned, noneIsOutside_of_windowed some_ returned⟩

/-- Five elements, with a stride that is larger than the filter. -/
def stridedFive : WindowedInput :=
  ⟨5, 3, 1, 4, .same, 0, 0, by decide, by decide, by decide, by decide, nofun⟩

theorem windows_fit_stridedFive :
    stridedFive.Arithmetic ⟨2, 1, 1⟩ ∧ stridedFive.NoneIsOutside ⟨2, 1, 1⟩ :=
  windows_fit stridedFive ⟨2, 1, 1⟩ (by decide) (by decide +kernel)

/-- Two elements around a single one, three apart. -/
def dilatedPair : WindowedInput :=
  ⟨1, 2, 3, 1, .same, 0, 0, by decide, by decide, by decide, by decide, nofun⟩

theorem dilatedPair_isPadding : ¬∀ (c : WindowedInput) (w : WindowedOutput), 1 ≤ w.outputSize →
      c.windowed = some (.ok w) → c.Arithmetic w ∧ c.NoneIsPadding w := by
  intro all
  have reads := (all dilatedPair ⟨1, 1, 2⟩ (by decide) (by decide +kernel)).2 rfl 0 (by decide)
    (by decide)
  obtain ⟨k, low, high, lt⟩ := reads
  simp only [InInput, position, start, dilatedPair] at high lt
  omega

end WindowedInput

end TfDml
