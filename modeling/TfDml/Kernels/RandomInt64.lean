import Mathlib.Data.BitVec
import Mathlib.Algebra.Order.Ring.Nat

/-! # Random integers of 64 bits

DirectML has no remainder of 64 bits. The kernel computes it with 32 bits from the two halves of a
random word, where the range allows this, and a selector runs the op on the CPU otherwise.
-/

namespace TfDml.RandomInt64

inductive Op where
  | randomUniformInt
  | statelessRandomUniformInt
  | statelessRandomUniformIntV2
  deriving DecidableEq

def Op.isStateless : Op → Bool
  | .randomUniformInt => false
  | .statelessRandomUniformInt | .statelessRandomUniformIntV2 => true

/-- `min_value_index` and `max_value_index` of the selector. -/
def Op.selectorInputs (op : Op) : Nat × Nat :=
  (if op.isStateless then 2 else 1, if op.isStateless then 3 else 2)

/-- The arguments of the `UniformIntFunctor` in the registrations. -/
def Op.functorInputs : Op → Nat × Nat
  | .randomUniformInt => (1, 2)
  | .statelessRandomUniformInt => (2, 3)
  | .statelessRandomUniformIntV2 => (4, 5)

def rangeValue (minValue maxValue : BitVec 64) : BitVec 64 := maxValue - minValue

/-- `invariant_operand`, which is the remainder of `2 ^ 32` if it is reduced again. -/
def invariantOperand (range : BitVec 64) : BitVec 64 :=
  let operand := if range = 0 then 0 else 65536 % range
  operand * operand

def chooses (range : BitVec 64) : Prop :=
  (invariantOperand range * (range - 1) + (range - 1)).toNat ≤ 2 ^ 32 - 1

/-- The remainder of a random word, with scalars of 32 bits. -/
def modResult (range r : BitVec 64) : BitVec 32 :=
  let range32 := range.setWidth 32
  ((invariantOperand range).setWidth 32 * ((r >>> 32).setWidth 32 % range32) +
    r.setWidth 32 % range32) % range32

def signedAdd64 (a b : BitVec 64) : BitVec 64 := a + b >>> 1 + (b - b >>> 1)

/-- The first 64 bits of each input, where the bounds have been found in order. -/
structure Call where
  op : Op
  input : Nat → BitVec 64
  ordered : (input op.functorInputs.1).toInt < (input op.functorInputs.2).toInt

namespace Call

def minValue (c : Call) : BitVec 64 := c.input c.op.functorInputs.1

def maxValue (c : Call) : BitVec 64 := c.input c.op.functorInputs.2

def range (c : Call) : BitVec 64 := rangeValue c.minValue c.maxValue

/-- `RandomUniformInt64KernelSelector` -/
def ChoosesDml (c : Call) : Prop :=
  chooses (rangeValue (c.input c.op.selectorInputs.1) (c.input c.op.selectorInputs.2))

/-- `UniformIntFunctor` -/
def output (c : Call) (r : BitVec 64) : BitVec 64 :=
  signedAdd64 c.minValue ((modResult c.range r).setWidth 64)

/-- The remainder of a random word is exact, and so is the random integer. -/
structure Exact (c : Call) (r : BitVec 64) : Prop where
  noOverflow : ((invariantOperand c.range).setWidth 32).toNat *
      ((r >>> 32).setWidth 32 % c.range.setWidth 32).toNat +
    (r.setWidth 32 % c.range.setWidth 32).toNat < 2 ^ 32
  modResult_eq : (modResult c.range r).toNat = r.toNat % c.range.toNat
  output_eq : (c.output r).toInt =
    c.minValue.toInt + r.toNat % (c.maxValue.toInt - c.minValue.toInt)
  within : c.minValue.toInt ≤ (c.output r).toInt ∧ (c.output r).toInt < c.maxValue.toInt

/-- The selector reads the bounds of the kernel, and where it takes that the integers are exact. -/
structure Correct (c : Call) : Prop where
  sameBounds : c.op.selectorInputs = c.op.functorInputs
  exact_ : c.ChoosesDml → ∀ r, c.Exact r

def GuardFits (c : Call) : Prop :=
  c.ChoosesDml → ((invariantOperand c.range).toNat + 1) * (c.range.toNat - 1) < 2 ^ 64

end Call

theorem signedAdd64_eq (a b : BitVec 64) : signedAdd64 a b = a + b := by
  rw [signedAdd64]
  bv_omega

theorem operand_le (range : BitVec 64) : (if range = 0 then 0 else 65536 % range).toNat ≤ 65536 := by
  split
  · decide
  · rw [BitVec.toNat_umod]
    exact Nat.mod_le _ _

theorem invariantOperand_toNat {range : BitVec 64} (pos : 0 < range.toNat) :
    (invariantOperand range).toNat = 65536 % range.toNat * (65536 % range.toNat) := by
  have le := operand_le range
  have ne : range ≠ 0 := fun zero => by simp [zero] at pos
  rw [if_neg ne] at le
  rw [invariantOperand, if_neg ne, BitVec.toNat_mul]
  refine (Nat.mod_eq_of_lt ?_).trans (by rw [BitVec.toNat_umod]; rfl)
  exact (Nat.mul_le_mul le le).trans_lt (by decide)

theorem invariantOperand_mod {range : BitVec 64} (pos : 0 < range.toNat) :
    (invariantOperand range).toNat % range.toNat = 2 ^ 32 % range.toNat := by
  rw [invariantOperand_toNat pos, ← Nat.mul_mod]
  rfl

theorem chooses_iff {range : BitVec 64} (pos : 0 < range.toNat) : chooses range ↔
    ((invariantOperand range).toNat + 1) * (range.toNat - 1) % 2 ^ 64 < 2 ^ 32 := by
  have less : (range - 1).toNat = range.toNat - 1 := by bv_omega
  rw [chooses, BitVec.toNat_add, BitVec.toNat_mul, less, Nat.mod_add_mod, Nat.succ_mul]
  omega

section Halves

variable {range r : BitVec 64}

theorem halves (r : BitVec 64) :
    r.toNat = 2 ^ 32 * ((r >>> 32).setWidth 32).toNat + (r.setWidth 32).toNat := by
  have lt := r.isLt
  simp only [BitVec.toNat_setWidth, BitVec.toNat_ushiftRight, Nat.shiftRight_eq_div_pow]
  omega

theorem narrow_of_fits (pos : 0 < range.toNat)
    (fits : ((invariantOperand range).toNat + 1) * (range.toNat - 1) < 2 ^ 32) :
    range.toNat < 2 ^ 32 ∧ (invariantOperand range).toNat < 2 ^ 32 := by
  have isOperand := invariantOperand_toNat pos
  rcases Nat.lt_or_ge 1 range.toNat with many | one
  · have less : range.toNat - 1 < 2 ^ 32 := (Nat.le_mul_of_pos_left _ (Nat.succ_pos _)).trans_lt fits
    have operand : (invariantOperand range).toNat + 1 < 2 ^ 32 :=
      (Nat.le_mul_of_pos_right _ (by omega)).trans_lt fits
    refine ⟨lt_of_le_of_ne (by omega) fun whole => ?_, by omega⟩
    rw [isOperand, whole] at operand
    exact absurd operand (by decide)
  · have one : range.toNat = 1 := by omega
    rw [isOperand, one]
    decide

theorem noOverflow_of_fits (pos : 0 < range.toNat)
    (fits : ((invariantOperand range).toNat + 1) * (range.toNat - 1) < 2 ^ 32) (hi lo : Nat) :
    (invariantOperand range).toNat * (hi % range.toNat) + lo % range.toNat < 2 ^ 32 := by
  have high := Nat.mod_lt hi pos
  have low := Nat.mod_lt lo pos
  calc (invariantOperand range).toNat * (hi % range.toNat) + lo % range.toNat
      ≤ (invariantOperand range).toNat * (range.toNat - 1) + (range.toNat - 1) :=
        Nat.add_le_add (Nat.mul_le_mul_left _ (by omega)) (by omega)
    _ = ((invariantOperand range).toNat + 1) * (range.toNat - 1) := (Nat.succ_mul _ _).symm
    _ < 2 ^ 32 := fits

theorem modResult_of_fits (pos : 0 < range.toNat)
    (fits : ((invariantOperand range).toNat + 1) * (range.toNat - 1) < 2 ^ 32) :
    (modResult range r).toNat = r.toNat % range.toNat := by
  obtain ⟨lt, operand⟩ := narrow_of_fits pos fits
  have noOverflow := noOverflow_of_fits pos fits ((r >>> 32).setWidth 32).toNat
    (r.setWidth 32).toNat
  have product := (Nat.le_add_right _ _).trans_lt noOverflow
  have range32 : (range.setWidth 32).toNat = range.toNat := by
    rw [BitVec.toNat_setWidth, Nat.mod_eq_of_lt lt]
  have operand32 : ((invariantOperand range).setWidth 32).toNat = (invariantOperand range).toNat := by
    rw [BitVec.toNat_setWidth, Nat.mod_eq_of_lt operand]
  simp only [modResult, BitVec.toNat_umod, BitVec.toNat_add, BitVec.toNat_mul, range32, operand32]
  rw [Nat.mod_eq_of_lt product, Nat.mod_eq_of_lt noOverflow, halves r]
  exact ((Nat.ModEq.mul (invariantOperand_mod pos) (Nat.mod_modEq _ _)).add (Nat.mod_modEq _ _))

end Halves

namespace Call

variable (c : Call)

theorem range_eq : (c.range.toNat : Int) = c.maxValue.toInt - c.minValue.toInt := by
  have lt : c.minValue.toInt < c.maxValue.toInt := c.ordered
  have minLt := c.minValue.isLt
  have maxLt := c.maxValue.isLt
  rw [BitVec.toInt_eq_toNat_cond, BitVec.toInt_eq_toNat_cond] at *
  rw [range, rangeValue, BitVec.toNat_sub]
  split_ifs at * <;> omega

theorem range_pos : 0 < c.range.toNat := by
  have lt : c.minValue.toInt < c.maxValue.toInt := c.ordered
  have isRange := c.range_eq
  omega

theorem exact_of_fits
    (fits : ((invariantOperand c.range).toNat + 1) * (c.range.toNat - 1) < 2 ^ 32) (r : BitVec 64) :
    c.Exact r := by
  have pos := c.range_pos
  obtain ⟨narrow, operand⟩ := narrow_of_fits pos fits
  have result := modResult_of_fits (r := r) pos fits
  have isRange := c.range_eq
  have lt := Nat.mod_lt r.toNat pos
  have output : (c.output r).toInt = c.minValue.toInt + (r.toNat % c.range.toNat : Nat) := by
    have wide : ((modResult c.range r).setWidth 64).toInt = (r.toNat % c.range.toNat : Nat) := by
      rw [BitVec.toInt_eq_toNat_of_lt (by rw [BitVec.toNat_setWidth, result]; omega),
        BitVec.toNat_setWidth, result, Nat.mod_eq_of_lt (by omega)]
    have low := c.minValue.le_toInt
    have high := c.maxValue.toInt_lt
    rw [Call.output, signedAdd64_eq, BitVec.toInt_add, wide]
    exact Int.bmod_eq_of_le (by omega) (by omega)
  refine ⟨?_, result, ?_, ?_⟩
  · rw [BitVec.toNat_umod, BitVec.toNat_umod, BitVec.toNat_setWidth 32 c.range,
      BitVec.toNat_setWidth 32 (invariantOperand c.range), Nat.mod_eq_of_lt narrow,
      Nat.mod_eq_of_lt operand]
    exact noOverflow_of_fits pos fits _ _
  · rw [output, ← isRange]
    rfl
  · rw [output]
    omega

/-- Past the wrap-around the range has more than 32 bits, and so has one of the remainders. -/
theorem not_exact_of_wraps
    (wraps : 2 ^ 64 ≤ ((invariantOperand c.range).toNat + 1) * (c.range.toNat - 1)) :
    ¬c.Exact (c.range - 1) := by
  intro exact_
  have pos := c.range_pos
  have operand : (invariantOperand c.range).toNat ≤ 65536 * 65536 := by
    rw [invariantOperand_toNat pos]
    exact Nat.mul_le_mul (Nat.mod_le _ _) (Nat.mod_le _ _)
  have wide : 2 ^ 32 ≤ c.range.toNat - 1 := by
    by_contra narrow
    have bound := Nat.mul_le_mul (Nat.succ_le_succ operand) (by omega : c.range.toNat - 1 ≤ 2 ^ 32 - 1)
    exact absurd (wraps.trans bound) (by decide)
  have less : (c.range - 1).toNat = c.range.toNat - 1 := by bv_omega
  have result := exact_.modResult_eq
  rw [less, Nat.mod_eq_of_lt (by omega)] at result
  have lt := (modResult c.range (c.range - 1)).isLt
  omega

theorem correct_iff_guardFits : c.Correct ↔ c.op ≠ .statelessRandomUniformIntV2 ∧ c.GuardFits := by
  have same : c.op.selectorInputs = c.op.functorInputs ↔ c.op ≠ .statelessRandomUniformIntV2 := by
    cases c.op <;> decide
  have chosen : c.op.selectorInputs = c.op.functorInputs → (c.ChoosesDml ↔ chooses c.range) := by
    intro equal
    rw [ChoosesDml, equal]
    rfl
  constructor
  · intro correct
    refine ⟨same.mp correct.sameBounds, fun dml => ?_⟩
    by_contra wraps
    exact c.not_exact_of_wraps (not_lt.mp wraps) (correct.exact_ dml _)
  · rintro ⟨first, fits⟩
    refine ⟨same.mpr first, fun dml => c.exact_of_fits ?_⟩
    have guard := (chooses_iff c.range_pos).mp ((chosen (same.mpr first)).mp dml)
    rwa [Nat.mod_eq_of_lt (fits dml)] at guard

def wide : Call where
  op := .randomUniformInt
  input index := if index = 2 then 9223372032559808514 else 9223372036854775808
  ordered := by decide

theorem wide_not_correct : ¬wide.Correct := by
  intro correct
  have dml : wide.ChoosesDml := by
    rw [ChoosesDml, chooses]
    decide +kernel
  exact absurd (correct.exact_ dml (wide.range - 1)).modResult_eq (by decide +kernel)

end Call

end TfDml.RandomInt64
