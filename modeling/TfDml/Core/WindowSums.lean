import TfDml.Core.Stop
import TfDml.Core.WindowArithmetic

/-! # When the window of a dimension is computed

The call of `GetWindowedOutputSizeVerboseV2` as one formula, with the condition under which its
sums fit in 64 bits.
-/

namespace TfDml

def Fits64 (n : Int) : Prop := -2 ^ 63 ≤ n ∧ n < 2 ^ 63

instance (n : Int) : Decidable (Fits64 n) := inferInstanceAs (Decidable (_ ∧ _))

def Stop.int64 (n : Int) : Except Stop Int := if Fits64 n then .ok n else .error .overflow

theorem Stop.int64_eq_ok {n m : Int} : Stop.int64 n = .ok m ↔ Fits64 n ∧ m = n := by
  unfold Stop.int64
  split
  · simp_all [eq_comm]
  · simp_all

theorem Stop.orderly_int64 {n : Int} (fits : Fits64 n) : Stop.Orderly (Stop.int64 n) := by
  simp only [Stop.int64, if_pos fits, Stop.orderly_ok]

/-- A division, whose divisor must not be zero. -/
def Stop.quotient (dividend divisor : Int) : Except Stop Int :=
  if divisor = 0 then .error .divisionByZero else .ok (dividend.tdiv divisor)

def Stop.remainder (dividend divisor : Int) : Except Stop Int :=
  if divisor = 0 then .error .divisionByZero else .ok (dividend.tmod divisor)

theorem Stop.int64_ne_divisionByZero {n : Int} : Stop.int64 n ≠ .error .divisionByZero := by
  unfold Stop.int64
  split
  · simp
  · simp

theorem Stop.bind_int64 {α : Type} {n : Int} {f : Int → Except Stop α} :
    (Stop.int64 n >>= f) = if Fits64 n then f n else .error .overflow := by
  unfold Stop.int64
  split
  · rfl
  · rfl

theorem Stop.quotient_of_pos {dividend divisor : Int} (pos : 0 < divisor) :
    Stop.quotient dividend divisor = .ok (dividend.tdiv divisor) :=
  if_neg pos.ne'

theorem Stop.remainder_eq_ok {dividend divisor rest : Int} :
    Stop.remainder dividend divisor = .ok rest ↔ divisor ≠ 0 ∧ rest = dividend.tmod divisor := by
  unfold Stop.remainder
  split
  · simp_all
  · simp_all [eq_comm]

theorem Stop.remainder_of_pos {dividend divisor : Int} (pos : 0 < divisor) :
    Stop.remainder dividend divisor = .ok (dividend.tmod divisor) :=
  if_neg pos.ne'

theorem Stop.quotient_natCast {dividend divisor : Nat} (pos : 0 < divisor) :
    Stop.quotient dividend divisor = .ok ((dividend : Int) / divisor) := by
  rw [Stop.quotient_of_pos (by omega), Int.tdiv_eq_ediv_of_nonneg (by omega)]

theorem Stop.remainder_natCast {dividend divisor : Nat} (pos : 0 < divisor) :
    Stop.remainder dividend divisor = .ok (dividend % divisor : Nat) := by
  rw [Stop.remainder_of_pos (by omega), Int.tmod_eq_emod_of_nonneg (by omega), Int.natCast_emod]

theorem checked64_eq_ite (n : Int) : checked64 n = if Fits64 n then some n else none := rfl

/-- What is computed of a window, before the sign of the size is looked at. -/
def windowedOutput (inputSize filterSize dilationRate stride : Int) (paddingType : Padding)
    (paddingBefore paddingAfter : Int) : WindowedOutput :=
  let effectiveFilterSize := filterSpread filterSize dilationRate + 1
  match paddingType with
  | .valid => ⟨(inputSize - effectiveFilterSize + stride).tdiv stride, 0, 0⟩
  | .explicit =>
    ⟨(inputSize + paddingBefore + paddingAfter - effectiveFilterSize + stride).tdiv stride,
      paddingBefore, paddingAfter⟩
  | .same =>
    let outputSize := (inputSize + stride - 1).tdiv stride
    let paddingNeeded := max 0 ((outputSize - 1) * stride + effectiveFilterSize - inputSize)
    ⟨outputSize, paddingNeeded.tdiv 2, paddingNeeded - paddingNeeded.tdiv 2⟩

def negativeSize (windowed : WindowedOutput) (inputSize effectiveFilterSize stride : Int) :
    Status :=
  .invalidArgument ("Computed output size would be negative: " ++ toString windowed.outputSize ++
    " [input_size: " ++ toString inputSize ++ ", effective_filter_size: " ++
    toString effectiveFilterSize ++ ", stride: " ++ toString stride ++ "]")

/-- `GetWindowedOutputSizeVerboseV2` among other ends, with its divisions written out. -/
def Stop.windowed (inputSize filterSize dilationRate stride : Int) (paddingType : Padding)
    (paddingBefore paddingAfter : Int) : Except Stop WindowedOutput := do
  Stop.require (0 < stride) (.invalidArgument ("Stride must be > 0, but got " ++ toString stride))
  Stop.require (1 ≤ dilationRate)
    (.invalidArgument ("Dilation rate must be >= 1, but got " ++ toString dilationRate))
  let reach ← Stop.int64 (filterSize - 1)
  let spread ← Stop.int64 (reach * dilationRate)
  let effectiveFilterSize ← Stop.int64 (spread + 1)
  let windowed : WindowedOutput ←
    match paddingType with
    | .valid => do
      let free ← Stop.int64 (inputSize - effectiveFilterSize)
      let rounded ← Stop.int64 (free + stride)
      let outputSize ← Stop.quotient rounded stride
      .ok ⟨outputSize, 0, 0⟩
    | .explicit => do
      let padded ← Stop.int64 (inputSize + paddingBefore)
      let padded ← Stop.int64 (padded + paddingAfter)
      let free ← Stop.int64 (padded - effectiveFilterSize)
      let rounded ← Stop.int64 (free + stride)
      let outputSize ← Stop.quotient rounded stride
      .ok ⟨outputSize, paddingBefore, paddingAfter⟩
    | .same => do
      let rounded ← Stop.int64 (inputSize + stride)
      let rounded ← Stop.int64 (rounded - 1)
      let outputSize ← Stop.quotient rounded stride
      let last ← Stop.int64 (outputSize - 1)
      let last ← Stop.int64 (last * stride)
      let covered ← Stop.int64 (last + effectiveFilterSize)
      let missing ← Stop.int64 (covered - inputSize)
      let paddingNeeded := max 0 missing
      let paddingBefore := paddingNeeded.tdiv 2
      .ok ⟨outputSize, paddingBefore, paddingNeeded - paddingBefore⟩
  Stop.require (0 ≤ windowed.outputSize)
    (negativeSize windowed inputSize effectiveFilterSize stride)
  .ok windowed

def WindowFits (inputSize filterSize dilationRate stride : Int) (paddingType : Padding)
    (paddingBefore paddingAfter : Int) : Prop :=
  let effectiveFilterSize := filterSpread filterSize dilationRate + 1
  Fits64 (filterSize - 1) ∧ Fits64 (filterSpread filterSize dilationRate) ∧
    Fits64 effectiveFilterSize ∧ match paddingType with
    | .valid =>
      Fits64 (inputSize - effectiveFilterSize) ∧ Fits64 (inputSize - effectiveFilterSize + stride)
    | .explicit =>
      Fits64 (inputSize + paddingBefore) ∧ Fits64 (inputSize + paddingBefore + paddingAfter) ∧
        Fits64 (inputSize + paddingBefore + paddingAfter - effectiveFilterSize) ∧
        Fits64 (inputSize + paddingBefore + paddingAfter - effectiveFilterSize + stride)
    | .same =>
      let outputSize := (inputSize + stride - 1).tdiv stride
      Fits64 (inputSize + stride) ∧ Fits64 (inputSize + stride - 1) ∧
        Fits64 (outputSize - 1) ∧ Fits64 ((outputSize - 1) * stride) ∧
        Fits64 ((outputSize - 1) * stride + effectiveFilterSize) ∧
        Fits64 ((outputSize - 1) * stride + effectiveFilterSize - inputSize)

section Call

variable {inputSize filterSize dilationRate stride paddingBefore paddingAfter : Int}
  {paddingType : Padding}

instance : Decidable (WindowFits inputSize filterSize dilationRate stride paddingType paddingBefore
    paddingAfter) :=
  match paddingType with
  | .valid => inferInstanceAs (Decidable (_ ∧ _ ∧ _ ∧ _ ∧ _))
  | .explicit => inferInstanceAs (Decidable (_ ∧ _ ∧ _ ∧ _ ∧ _ ∧ _ ∧ _))
  | .same => inferInstanceAs (Decidable (_ ∧ _ ∧ _ ∧ _ ∧ _ ∧ _ ∧ _ ∧ _ ∧ _))

theorem bind_checked64 {α : Type} {n : Int} {f : Int → Option α} :
    (checked64 n).bind f = if Fits64 n then f n else none := by
  rw [checked64_eq_ite]
  split
  · rfl
  · rfl

theorem getWindowedOutputSizeVerboseV2_eq (strided : 0 < stride) (dilated : 1 ≤ dilationRate) :
    getWindowedOutputSizeVerboseV2 inputSize filterSize dilationRate stride paddingType
      paddingBefore paddingAfter =
        let win := windowedOutput inputSize filterSize dilationRate stride paddingType
          paddingBefore paddingAfter
        if WindowFits inputSize filterSize dilationRate stride paddingType paddingBefore
            paddingAfter then
          if win.outputSize < 0 then
            some (.error (negativeSize win inputSize
              (filterSpread filterSize dilationRate + 1) stride))
          else some (.ok win)
        else none := by
  simp only [getWindowedOutputSizeVerboseV2, if_neg (not_le.mpr strided),
    if_neg (not_lt.mpr dilated), Option.bind_eq_bind]
  by_cases fits : WindowFits inputSize filterSize dilationRate stride paddingType paddingBefore
    paddingAfter
  · rw [if_pos fits]
    cases paddingType with
    | valid | same | explicit =>
      simp only [WindowFits, filterSpread] at fits
      simp only [bind_checked64, fits, if_true, Option.bind_some]
      rfl
  · rw [if_neg fits]
    cases paddingType with
    | valid | same | explicit =>
      simp only [WindowFits, filterSpread] at fits
      simp only [bind_checked64]
      grind

theorem windowFits_of_int32 (sized : 0 ≤ inputSize ∧ inputSize < 2 ^ 31)
    (filtered : -2 ^ 31 ≤ filterSize ∧ filterSize < 2 ^ 31)
    (dilated : 0 < dilationRate ∧ dilationRate < 2 ^ 31) (strided : 0 < stride ∧ stride < 2 ^ 31)
    (other : paddingType ≠ .explicit) :
    WindowFits inputSize filterSize dilationRate stride paddingType paddingBefore paddingAfter := by
  have above : filterSpread filterSize dilationRate ≤ 2 ^ 31 * 2 ^ 31 := by
    have reach : filterSize - 1 ≤ 2 ^ 31 := by omega
    exact (mul_le_mul_of_nonneg_right reach dilated.1.le).trans
      (mul_le_mul_of_nonneg_left dilated.2.le (by norm_num))
  have below : -((2 ^ 31 + 1) * 2 ^ 31) ≤ filterSpread filterSize dilationRate := by
    have reach : -(2 ^ 31 + 1) ≤ filterSize - 1 := by omega
    refine le_trans ?_ (mul_le_mul_of_nonneg_right reach dilated.1.le)
    rw [neg_mul, neg_le_neg_iff]
    exact mul_le_mul_of_nonneg_left dilated.2.le (by norm_num)
  have last : ((inputSize + stride - 1) / stride - 1) * stride =
      inputSize - 1 - (inputSize - 1) % stride := last_window strided.1
  have rest := Int.emod_nonneg (inputSize - 1) strided.1.ne'
  have restSmall := Int.emod_lt_of_pos (inputSize - 1) strided.1
  have quotient : (inputSize + stride - 1).tdiv stride = (inputSize + stride - 1) / stride :=
    Int.tdiv_eq_ediv_of_nonneg (by omega)
  have few : (inputSize + stride - 1) / stride ≤ inputSize + stride - 1 :=
    Int.ediv_le_self _ (by omega)
  have some_ : 0 ≤ (inputSize + stride - 1) / stride := Int.ediv_nonneg (by omega) strided.1.le
  simp only [WindowFits, Fits64]
  generalize filterSpread filterSize dilationRate = spread at *
  cases paddingType with
  | explicit => exact absurd rfl other
  | valid => omega
  | same =>
    simp only [quotient, last]
    omega

theorem Stop.windowed_eq : Stop.windowed inputSize filterSize dilationRate stride paddingType
    paddingBefore paddingAfter =
      Stop.requireChecked (getWindowedOutputSizeVerboseV2 inputSize filterSize dilationRate stride
        paddingType paddingBefore paddingAfter) := by
  by_cases strided : 0 < stride
  · by_cases dilated : 1 ≤ dilationRate
    · rw [getWindowedOutputSizeVerboseV2_eq strided dilated]
      have dvd (n : Int) : Stop.quotient n stride = .ok (n.tdiv stride) :=
        Stop.quotient_of_pos strided
      by_cases fits : WindowFits inputSize filterSize dilationRate stride paddingType
        paddingBefore paddingAfter
      · simp only [if_pos fits]
        by_cases neg : (windowedOutput inputSize filterSize dilationRate stride paddingType
          paddingBefore paddingAfter).outputSize < 0
        · rw [if_pos neg]
          cases paddingType with
          | valid | same | explicit =>
            simp only [WindowFits, filterSpread] at fits
            simp only [windowedOutput, filterSpread] at neg
            simp only [Stop.windowed, Stop.require, strided, dilated, decide_true, if_true,
              Stop.ok_bind, Stop.bind_int64, fits, dvd, not_le.mpr neg, decide_false]
            rfl
        · rw [if_neg neg]
          cases paddingType with
          | valid | same | explicit =>
            simp only [WindowFits, filterSpread] at fits
            simp only [windowedOutput, filterSpread] at neg
            simp only [Stop.windowed, Stop.require, strided, dilated, decide_true, if_true,
              Stop.ok_bind, Stop.bind_int64, fits, dvd, not_lt.mp neg]
            rfl
      · rw [if_neg fits]
        cases paddingType with
        | valid | same | explicit =>
          simp only [WindowFits, filterSpread] at fits
          simp only [Stop.windowed, Stop.require, strided, dilated, decide_true, if_true,
            Stop.ok_bind, Stop.bind_int64, dvd]
          grind [Stop.requireChecked, Stop.error_bind]
    · simp [Stop.windowed, getWindowedOutputSizeVerboseV2, not_le.mpr strided, not_le.mp dilated,
        dilated, Stop.requireChecked, Stop.requireOk, Stop.require, strided, bind, Except.bind]
  · simp [Stop.windowed, getWindowedOutputSizeVerboseV2, not_lt.mp strided, strided,
      Stop.requireChecked, Stop.requireOk, Stop.require, bind, Except.bind]

theorem Stop.windowed_congr (other : paddingType ≠ .explicit) (pre after : Int) :
    Stop.windowed inputSize filterSize dilationRate stride paddingType paddingBefore paddingAfter =
      Stop.windowed inputSize filterSize dilationRate stride paddingType pre after := by
  cases paddingType with
  | explicit => exact absurd rfl other
  | valid | same => rfl

theorem Stop.windowed_eq_ok {win : WindowedOutput} :
    Stop.windowed inputSize filterSize dilationRate stride paddingType paddingBefore
      paddingAfter = .ok win ↔
      0 < stride ∧ 1 ≤ dilationRate ∧ WindowFits inputSize filterSize dilationRate stride
        paddingType paddingBefore paddingAfter ∧ 0 ≤ win.outputSize ∧
        win = windowedOutput inputSize filterSize dilationRate stride paddingType
          paddingBefore paddingAfter := by
  rw [Stop.windowed_eq, Stop.requireChecked_eq_ok]
  by_cases strided : 0 < stride
  · by_cases dilated : 1 ≤ dilationRate
    · rw [getWindowedOutputSizeVerboseV2_eq strided dilated]
      grind
    · simp [getWindowedOutputSizeVerboseV2, not_le.mpr strided, not_le.mp dilated, dilated]
  · simp [getWindowedOutputSizeVerboseV2, not_lt.mp strided, strided]

theorem Stop.exists_windowed :
    (∃ win, Stop.windowed inputSize filterSize dilationRate stride paddingType paddingBefore
      paddingAfter = .ok win) ↔
      0 < stride ∧ 1 ≤ dilationRate ∧ WindowFits inputSize filterSize dilationRate stride
        paddingType paddingBefore paddingAfter ∧
        0 ≤ (windowedOutput inputSize filterSize dilationRate stride paddingType paddingBefore
          paddingAfter).outputSize := by
  simp only [Stop.windowed_eq_ok]
  constructor
  · rintro ⟨win, strided, dilated, fits, sized, rfl⟩
    exact ⟨strided, dilated, fits, sized⟩
  · rintro ⟨strided, dilated, fits, sized⟩
    exact ⟨_, strided, dilated, fits, sized, rfl⟩

theorem Stop.orderly_windowed (fits : 0 < stride → 1 ≤ dilationRate → WindowFits inputSize
      filterSize dilationRate stride paddingType paddingBefore paddingAfter) :
    Stop.Orderly (Stop.windowed inputSize filterSize dilationRate stride paddingType
      paddingBefore paddingAfter) := by
  rw [Stop.windowed_eq]
  by_cases strided : 0 < stride
  · by_cases dilated : 1 ≤ dilationRate
    · rw [getWindowedOutputSizeVerboseV2_eq strided dilated]
      simp only [if_pos (fits strided dilated)]
      split
      · exact Stop.orderly_error
      · exact Stop.orderly_ok
    · simp [getWindowedOutputSizeVerboseV2, not_le.mpr strided, not_le.mp dilated,
        Stop.requireChecked]
  · simp [getWindowedOutputSizeVerboseV2, not_lt.mp strided, Stop.requireChecked]

theorem Stop.windowed_ne_divisionByZero :
    Stop.windowed inputSize filterSize dilationRate stride paddingType paddingBefore
      paddingAfter ≠ .error .divisionByZero := by
  rw [Stop.windowed_eq]
  exact Stop.requireChecked_ne_divisionByZero

end Call

end TfDml
