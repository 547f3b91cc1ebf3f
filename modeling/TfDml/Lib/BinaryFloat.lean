import Mathlib.Tactic.Ring

/-! # Binary floating-point formats

A format is given by the widths of its exponent and its fraction. The bits of a
number are a sign, a biased exponent and a fraction; finite numbers are counted in
units of the smallest subnormal one, so that comparing them is comparing integers.
-/

namespace TfDml.Lib

structure FloatFormat where
  exponentBits : Nat
  fractionBits : Nat

namespace FloatFormat

def binary16 : FloatFormat := ⟨5, 10⟩

def binary32 : FloatFormat := ⟨8, 23⟩

variable {f : FloatFormat}

abbrev Bits (f : FloatFormat) := BitVec (1 + f.exponentBits + f.fractionBits)

inductive Value where
  | nan
  | infinity (negative : Bool)
  | finite (units : Int)
  deriving DecidableEq

def fraction (x : f.Bits) : Nat := x.toNat % 2 ^ f.fractionBits

def exponent (x : f.Bits) : Nat := x.toNat / 2 ^ f.fractionBits % 2 ^ f.exponentBits

def sign (x : f.Bits) : Nat := x.toNat / 2 ^ f.fractionBits / 2 ^ f.exponentBits

def magnitude (x : f.Bits) : Nat :=
  if exponent x = 0 then fraction x
  else (2 ^ f.fractionBits + fraction x) * 2 ^ (exponent x - 1)

def value (x : f.Bits) : Value :=
  if exponent x = 2 ^ f.exponentBits - 1 then
    if fraction x = 0 then .infinity (sign x = 1) else .nan
  else .finite (if sign x = 1 then -(magnitude x : Int) else magnitude x)

def isNaN (x : f.Bits) : Bool := value x = .nan

def isZero (x : f.Bits) : Bool := value x = .finite 0

/-- The comparison `==` of numbers: a NaN differs from everything, and the two zeros are
    equal. -/
def equal (x y : f.Bits) : Bool := value x ≠ .nan && value x = value y

theorem equal_iff {x y : f.Bits} : equal x y = true ↔ value x ≠ .nan ∧ value x = value y := by
  simp [equal]

variable {x : f.Bits}

variable {y : f.Bits}

theorem fraction_lt (x : f.Bits) : fraction x < 2 ^ f.fractionBits :=
  Nat.mod_lt _ (Nat.two_pow_pos _)

theorem sign_lt (x : f.Bits) : sign x < 2 := by
  have width : 2 ^ (1 + f.exponentBits + f.fractionBits) =
      2 * (2 ^ f.fractionBits * 2 ^ f.exponentBits) := by
    rw [← pow_add, ← pow_succ']
    congr 1
    omega
  rw [sign, Nat.div_div_eq_div_mul,
    Nat.div_lt_iff_lt_mul (mul_pos (Nat.two_pow_pos _) (Nat.two_pow_pos _)), ← width]
  exact x.isLt

theorem eq_of_fields (sameSign : sign x = sign y) (sameExponent : exponent x = exponent y)
    (sameFraction : fraction x = fraction y) : x = y := by
  have rest : x.toNat / 2 ^ f.fractionBits = y.toNat / 2 ^ f.fractionBits := by
    rw [← Nat.div_add_mod (x.toNat / 2 ^ f.fractionBits) (2 ^ f.exponentBits),
      ← Nat.div_add_mod (y.toNat / 2 ^ f.fractionBits) (2 ^ f.exponentBits)]
    exact congrArg₂ _ (congrArg _ sameSign) sameExponent
  apply BitVec.eq_of_toNat_eq
  rw [← Nat.div_add_mod x.toNat (2 ^ f.fractionBits),
    ← Nat.div_add_mod y.toNat (2 ^ f.fractionBits)]
  exact congrArg₂ _ (congrArg _ rest) sameFraction

theorem magnitude_lt_of_exponent_lt (lt : exponent x < exponent y) : magnitude x < magnitude y := by
  have small := fraction_lt x
  rw [magnitude, magnitude, if_neg (by omega : exponent y ≠ 0)]
  split
  · calc fraction x < 2 ^ f.fractionBits := small
      _ ≤ 2 ^ f.fractionBits + fraction y := Nat.le_add_right _ _
      _ ≤ (2 ^ f.fractionBits + fraction y) * 2 ^ (exponent y - 1) :=
        Nat.le_mul_of_pos_right _ (Nat.two_pow_pos _)
  · rename_i normal
    calc (2 ^ f.fractionBits + fraction x) * 2 ^ (exponent x - 1)
        < (2 ^ f.fractionBits * 2) * 2 ^ (exponent x - 1) := by
          apply Nat.mul_lt_mul_of_pos_right _ (Nat.two_pow_pos _)
          omega
      _ = 2 ^ f.fractionBits * 2 ^ exponent x := by
          obtain ⟨e, large⟩ := Nat.exists_eq_add_one_of_ne_zero normal
          rw [large, Nat.add_sub_cancel, pow_succ]
          ring
      _ ≤ 2 ^ f.fractionBits * 2 ^ (exponent y - 1) :=
          Nat.mul_le_mul_left _ (Nat.pow_le_pow_right two_pos (by omega))
      _ ≤ (2 ^ f.fractionBits + fraction y) * 2 ^ (exponent y - 1) :=
          Nat.mul_le_mul_right _ (Nat.le_add_right _ _)

theorem fields_of_magnitude (same : magnitude x = magnitude y) :
    exponent x = exponent y ∧ fraction x = fraction y := by
  have exponents : exponent x = exponent y := by
    rcases Nat.lt_trichotomy (exponent x) (exponent y) with less | equal | greater
    · exact absurd same (magnitude_lt_of_exponent_lt less).ne
    · exact equal
    · exact absurd same (magnitude_lt_of_exponent_lt greater).ne'
  refine ⟨exponents, ?_⟩
  rw [magnitude, magnitude, exponents] at same
  split at same
  · exact same
  · exact Nat.add_left_cancel (Nat.eq_of_mul_eq_mul_right (Nat.two_pow_pos _) same)

theorem value_infinity {neg : Bool} (infinite : value x = .infinity neg) :
    exponent x = 2 ^ f.exponentBits - 1 ∧ fraction x = 0 ∧ (sign x = 1 ↔ neg = true) := by
  unfold value at infinite
  split at infinite
  · split at infinite
    · simp only [Value.infinity.injEq] at infinite
      exact ⟨‹_›, ‹_›, by simp [← infinite]⟩
    · simp at infinite
  · simp at infinite

theorem value_finite {units : Int} (finite : value x = .finite units) :
    units.natAbs = magnitude x ∧ (units ≠ 0 → (sign x = 1 ↔ units < 0)) := by
  unfold value at finite
  split at finite
  · split at finite <;> simp at finite
  · simp only [Value.finite.injEq] at finite
    split at finite
    · omega
    · omega

theorem eq_of_equal (same : equal x y = true) (nonzero : isZero x = false) : x = y := by
  obtain ⟨number, values⟩ := equal_iff.mp same
  have signX := sign_lt x
  have signY := sign_lt y
  simp only [isZero, decide_eq_false_iff_not] at nonzero
  cases form : value x with
  | nan => exact absurd form number
  | infinity negative =>
    obtain ⟨exponentX, fractionX, negativeX⟩ := value_infinity form
    obtain ⟨exponentY, fractionY, negativeY⟩ := value_infinity (values.symm.trans form)
    have signs : sign x = 1 ↔ sign y = 1 := negativeX.trans negativeY.symm
    exact eq_of_fields (by omega) (exponentX.trans exponentY.symm)
      (fractionX.trans fractionY.symm)
  | finite units =>
    obtain ⟨absX, negativeX⟩ := value_finite form
    obtain ⟨absY, negativeY⟩ := value_finite (values.symm.trans form)
    have other : units ≠ 0 := fun zero => nonzero (zero ▸ form)
    obtain ⟨exponents, fractions⟩ := fields_of_magnitude (absX.symm.trans absY)
    have signs : sign x = 1 ↔ sign y = 1 := (negativeX other).trans (negativeY other).symm
    exact eq_of_fields (by omega) exponents fractions

end FloatFormat

end TfDml.Lib
