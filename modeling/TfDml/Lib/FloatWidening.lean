import TfDml.Lib.BinaryFloat
import Mathlib.Data.Nat.Log

/-! # Conversion to a wider format

A number of a binary format is also one of a format with more exponents and a longer fraction.
What is subnormal in the narrow format is normal in the wide one.
-/

namespace TfDml.Lib.FloatFormat

def bias (f : FloatFormat) : Nat := 2 ^ (f.exponentBits - 1) - 1

def ofFields (f : FloatFormat) (sign exponent fraction : Nat) : f.Bits :=
  BitVec.ofNat _ ((sign * 2 ^ f.exponentBits + exponent) * 2 ^ f.fractionBits + fraction)

def widen {f : FloatFormat} (g : FloatFormat) (x : f.Bits) : g.Bits :=
  let shift := g.fractionBits - f.fractionBits
  if exponent x = 2 ^ f.exponentBits - 1 then
    ofFields g (sign x) (2 ^ g.exponentBits - 1) (fraction x * 2 ^ shift)
  else if exponent x ≠ 0 then
    ofFields g (sign x) (exponent x + (g.bias - f.bias)) (fraction x * 2 ^ shift)
  else if fraction x = 0 then ofFields g (sign x) 0 0
  else
    -- The first bit that is set is the one that a normal number does not store.
    let leading := Nat.log2 (fraction x)
    ofFields g (sign x) (leading + 1 + (g.bias - f.bias) - f.fractionBits)
      ((fraction x - 2 ^ leading) * 2 ^ (g.fractionBits - leading))

section Fields

variable {f : FloatFormat} {s e m : Nat}

theorem toNat_ofFields (isSign : s < 2) (isExponent : e < 2 ^ f.exponentBits)
    (isFraction : m < 2 ^ f.fractionBits) :
    (ofFields f s e m).toNat = (s * 2 ^ f.exponentBits + e) * 2 ^ f.fractionBits + m := by
  have inner : s * 2 ^ f.exponentBits + e < 2 * 2 ^ f.exponentBits := by
    have : s * 2 ^ f.exponentBits ≤ 1 * 2 ^ f.exponentBits := Nat.mul_le_mul_right _ (by omega)
    omega
  rw [ofFields, BitVec.toNat_ofNat, Nat.mod_eq_of_lt]
  calc (s * 2 ^ f.exponentBits + e) * 2 ^ f.fractionBits + m
      < (s * 2 ^ f.exponentBits + e + 1) * 2 ^ f.fractionBits := by
        rw [Nat.succ_mul]
        omega
    _ ≤ 2 * 2 ^ f.exponentBits * 2 ^ f.fractionBits := Nat.mul_le_mul_right _ inner
    _ = 2 ^ (1 + f.exponentBits + f.fractionBits) := by rw [pow_add, pow_add, pow_one]

theorem fields_ofFields (isSign : s < 2) (isExponent : e < 2 ^ f.exponentBits)
    (isFraction : m < 2 ^ f.fractionBits) :
    sign (ofFields f s e m) = s ∧ exponent (ofFields f s e m) = e ∧
      fraction (ofFields f s e m) = m := by
  have upper : (ofFields f s e m).toNat / 2 ^ f.fractionBits = s * 2 ^ f.exponentBits + e := by
    rw [toNat_ofFields isSign isExponent isFraction, mul_comm, Nat.mul_add_div
      (Nat.two_pow_pos _), Nat.div_eq_of_lt isFraction, add_zero]
  refine ⟨?_, ?_, ?_⟩
  · rw [sign, upper, mul_comm, Nat.mul_add_div (Nat.two_pow_pos _),
      Nat.div_eq_of_lt isExponent, add_zero]
  · rw [exponent, upper, mul_comm, Nat.mul_add_mod, Nat.mod_eq_of_lt isExponent]
  · rw [fraction, toNat_ofFields isSign isExponent isFraction, mul_comm, Nat.mul_add_mod,
      Nat.mod_eq_of_lt isFraction]

end Fields

theorem exponent_lt {f : FloatFormat} (x : f.Bits) : exponent x < 2 ^ f.exponentBits :=
  Nat.mod_lt _ (Nat.two_pow_pos _)

structure Widens (f g : FloatFormat) : Prop where
  fraction : f.fractionBits ≤ g.fractionBits
  subnormal : f.bias + f.fractionBits ≤ g.bias
  finite : 2 ^ f.exponentBits + (g.bias - f.bias) ≤ 2 ^ g.exponentBits

def Value.scale (factor : Int) : Value → Value
  | .nan => .nan
  | .infinity negative => .infinity negative
  | .finite units => .finite (units * factor)

variable {f g : FloatFormat}

structure WidenedFields (x : f.Bits) (y : g.Bits) : Prop where
  sign : sign y = sign x
  special : exponent y = 2 ^ g.exponentBits - 1 ↔ exponent x = 2 ^ f.exponentBits - 1
  payload : exponent x = 2 ^ f.exponentBits - 1 → (fraction y = 0 ↔ fraction x = 0)
  magnitude : exponent x ≠ 2 ^ f.exponentBits - 1 →
    magnitude y = magnitude x * 2 ^ (g.bias - f.bias + (g.fractionBits - f.fractionBits))
  power : fraction x = 0 → fraction y = 0
  /-- No bit is set that is too small for the narrow format. -/
  fraction : 2 ^ (g.fractionBits - f.fractionBits) ∣ fraction y

theorem widenedFields_widen (widens : Widens f g) (x : f.Bits) : WidenedFields x (widen g x) := by
  obtain ⟨longer, subnormal, finite⟩ := widens
  have isSign := sign_lt x
  have isExponent := exponent_lt x
  have isFraction := fraction_lt x
  have wide : 2 ^ g.fractionBits = 2 ^ f.fractionBits * 2 ^ (g.fractionBits - f.fractionBits) := by
    rw [← pow_add]
    congr 1
    omega
  have shifted : fraction x * 2 ^ (g.fractionBits - f.fractionBits) < 2 ^ g.fractionBits := by
    rw [wide]
    exact Nat.mul_lt_mul_of_pos_right isFraction (Nat.two_pow_pos _)
  have pos : 0 < 2 ^ g.exponentBits := Nat.two_pow_pos _
  unfold widen
  dsimp only
  split
  case isTrue special =>
    obtain ⟨hs, he, hm⟩ := @fields_ofFields g _ (2 ^ g.exponentBits - 1) _ isSign (by omega)
      shifted
    refine ⟨hs, by rw [he]; simp [special], fun _ => ?_, fun normal => absurd special normal,
      fun zero => by rw [hm, zero, zero_mul], ?_⟩
    · rw [hm]
      simp
    · rw [hm]
      exact Nat.dvd_mul_left _ _
  case isFalse notSpecial =>
    split
    case isTrue normal =>
      obtain ⟨hs, he, hm⟩ := @fields_ofFields g _ (exponent x + (g.bias - f.bias)) _ isSign
        (by omega) shifted
      refine ⟨hs, by rw [he]; omega, fun special => absurd special notSpecial, fun _ => ?_,
        fun zero => by rw [hm, zero, zero_mul], ?_⟩
      · rw [magnitude, magnitude, he, hm, if_neg normal, if_neg (by omega), wide,
          ← Nat.add_mul, mul_assoc, mul_assoc, ← pow_add, ← pow_add]
        congr 2
        omega
      · rw [hm]
        exact Nat.dvd_mul_left _ _
    case isFalse notNormal =>
      rw [not_not] at notNormal
      split
      case isTrue zero =>
        obtain ⟨hs, he, hm⟩ := @fields_ofFields g _ 0 0 isSign pos (Nat.two_pow_pos _)
        refine ⟨hs, by rw [he]; omega, fun special => absurd special notSpecial, fun _ => ?_,
          fun _ => hm, by rw [hm]; exact Nat.dvd_zero _⟩
        rw [magnitude, magnitude, he, hm, if_pos rfl, if_pos notNormal, zero, zero_mul]
      case isFalse ne =>
        have least := Nat.log2_self_le ne
        have most := @Nat.lt_log2_self (fraction x)
        generalize isLeading : Nat.log2 (fraction x) = leading at least most ⊢
        have lt : leading < f.fractionBits :=
          (Nat.pow_lt_pow_iff_right (by decide)).mp (lt_of_le_of_lt least isFraction)
        have rest : fraction x - 2 ^ leading < 2 ^ leading := by
          rw [pow_succ] at most
          omega
        have whole : 2 ^ g.fractionBits = 2 ^ leading * 2 ^ (g.fractionBits - leading) := by
          rw [← pow_add]
          congr 1
          omega
        obtain ⟨hs, he, hm⟩ := @fields_ofFields g _
          (leading + 1 + (g.bias - f.bias) - f.fractionBits)
          ((fraction x - 2 ^ leading) * 2 ^ (g.fractionBits - leading)) isSign (by omega)
          (by rw [whole]; exact Nat.mul_lt_mul_of_pos_right rest (Nat.two_pow_pos _))
        refine ⟨hs, by rw [he]; omega, fun special => absurd special notSpecial, fun _ => ?_,
          fun zero => absurd zero ne, ?_⟩
        · rw [magnitude, magnitude, he, hm, if_pos notNormal, if_neg (by omega), whole,
            ← Nat.add_mul, Nat.add_sub_cancel' least, mul_assoc, ← pow_add]
          congr 2
          omega
        · rw [hm]
          exact Dvd.dvd.mul_left (Nat.pow_dvd_pow 2 (by omega)) _

end TfDml.Lib.FloatFormat
