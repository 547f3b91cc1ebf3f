import Mathlib.Tactic.Ring

/-! # Integers of a precision

An integer with more bits than a significand has is rounded to the nearest one without them,
ties to even. What is kept are the integers with few bits between their first and their last
one.
-/

namespace TfDml.Lib

/-- The distance between numbers of the precision that are as large as `n`. -/
def spacing (precision n : Nat) : Nat := 2 ^ (n.log2 + 1 - precision)

def roundNat (precision n : Nat) : Nat :=
  let unit := spacing precision n
  let quotient := n / unit
  let rest := n % unit
  (if unit < 2 * rest ∨ unit = 2 * rest ∧ quotient % 2 = 1 then quotient + 1 else quotient) * unit

def roundInt (precision : Nat) (n : Int) : Int :=
  if n < 0 then -(roundNat precision n.natAbs : Int) else roundNat precision n.natAbs

/-- The integer is a number of that precision, up to a power of two. -/
def HasPrecision (precision : Nat) (n : Int) : Prop :=
  ∃ m e : Nat, m < 2 ^ precision ∧ n.natAbs = m * 2 ^ e

theorem spacing_pos (precision n : Nat) : 0 < spacing precision n := Nat.two_pow_pos _

theorem roundNat_eq_self_iff_dvd {precision n : Nat} :
    roundNat precision n = n ↔ spacing precision n ∣ n := by
  constructor
  · intro same
    have multiple : spacing precision n ∣ roundNat precision n := Nat.dvd_mul_left _ _
    rwa [same] at multiple
  · intro dvd
    have rest : n % spacing precision n = 0 := Nat.mod_eq_zero_of_dvd dvd
    have pos := spacing_pos precision n
    rw [roundNat]
    simp only [rest]
    rw [if_neg (by omega), Nat.div_mul_cancel dvd]

theorem lt_spacing_mul (precision n : Nat) : n < spacing precision n * 2 ^ precision := by
  have below : n < 2 ^ (n.log2 + 1) := Nat.lt_log2_self
  rw [spacing, ← pow_add]
  exact lt_of_lt_of_le below (Nat.pow_le_pow_right (by decide) (by omega))

theorem spacing_dvd_iff {precision n : Nat} :
    spacing precision n ∣ n ↔ ∃ m e : Nat, m < 2 ^ precision ∧ n = m * 2 ^ e := by
  constructor
  · intro dvd
    refine ⟨n / spacing precision n, n.log2 + 1 - precision, ?_, ?_⟩
    · exact Nat.div_lt_of_lt_mul (lt_spacing_mul precision n)
    · exact (Nat.div_mul_cancel dvd).symm
  · rintro ⟨m, e, few, same⟩
    by_cases zero : n = 0
    · rw [zero]
      exact Nat.dvd_zero _
    · have below : n.log2 < precision + e := by
        rw [Nat.log2_lt zero, same, pow_add]
        exact Nat.mul_lt_mul_of_pos_right few (Nat.two_pow_pos e)
      have dvd : spacing precision n ∣ 2 ^ e := Nat.pow_dvd_pow 2 (by omega)
      have multiple : 2 ^ e ∣ n := ⟨m, by rw [same, mul_comm]⟩
      exact dvd.trans multiple

theorem roundInt_eq_self_iff {precision : Nat} {n : Int} :
    roundInt precision n = n ↔ HasPrecision precision n := by
  have nat : roundInt precision n = n ↔ roundNat precision n.natAbs = n.natAbs := by
    rw [roundInt]
    split <;> omega
  rw [nat, roundNat_eq_self_iff_dvd, spacing_dvd_iff, HasPrecision]

end TfDml.Lib
