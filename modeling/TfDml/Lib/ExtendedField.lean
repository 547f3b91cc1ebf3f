import Mathlib.Algebra.Order.Field.Basic

/-! # An ordered field with infinities

What is not defined (a difference of infinities, zero times an infinity, a quotient by
zero, which has no sign) is `nan`, and stays so.
-/

namespace TfDml.Lib

inductive Extended (K : Type*) where
  | negInf
  | finite (x : K)
  | posInf
  | nan
  deriving DecidableEq

namespace Extended

section Operations

variable {K : Type*} [Field K] [LinearOrder K]

instance : Zero (Extended K) := ⟨.finite 0⟩

instance : One (Extended K) := ⟨.finite 1⟩

def add : Extended K → Extended K → Extended K
  | .nan, _ | _, .nan => .nan
  | .posInf, .negInf | .negInf, .posInf => .nan
  | .posInf, _ | _, .posInf => .posInf
  | .negInf, _ | _, .negInf => .negInf
  | .finite x, .finite y => .finite (x + y)

def neg : Extended K → Extended K
  | .negInf => .posInf
  | .finite x => .finite (-x)
  | .posInf => .negInf
  | .nan => .nan

def sub (x y : Extended K) : Extended K := add x (neg y)

/-- A finite factor of `posInf`. -/
def scaled (x : K) : Extended K := if 0 < x then .posInf else if x < 0 then .negInf else .nan

def mul : Extended K → Extended K → Extended K
  | .nan, _ | _, .nan => .nan
  | .finite x, .finite y => .finite (x * y)
  | .finite x, .posInf | .posInf, .finite x => scaled x
  | .finite x, .negInf | .negInf, .finite x => scaled (-x)
  | .posInf, .posInf | .negInf, .negInf => .posInf
  | .posInf, .negInf | .negInf, .posInf => .negInf

def inv : Extended K → Extended K
  | .negInf | .posInf => .finite 0
  | .finite x => if x = 0 then .nan else .finite x⁻¹
  | .nan => .nan

def div (x y : Extended K) : Extended K := mul x (inv y)

def min : Extended K → Extended K → Extended K
  | .nan, _ | _, .nan => .nan
  | .negInf, _ | _, .negInf => .negInf
  | .posInf, y => y
  | x, .posInf => x
  | .finite x, .finite y => .finite (Min.min x y)

def max : Extended K → Extended K → Extended K
  | .nan, _ | _, .nan => .nan
  | .posInf, _ | _, .posInf => .posInf
  | .negInf, y => y
  | x, .negInf => x
  | .finite x, .finite y => .finite (Max.max x y)

def Exceeds (limit : K) : Extended K → Prop
  | .posInf => True
  | .finite x => limit < x
  | .negInf | .nan => False

def FallsBelow (limit : K) : Extended K → Prop
  | .negInf => True
  | .finite x => x < limit
  | .posInf | .nan => False

end Operations

section Sums

variable {K : Type*} [Field K]

theorem zero_eq : (0 : Extended K) = .finite 0 := rfl

theorem one_eq : (1 : Extended K) = .finite 1 := rfl

theorem add_neutral (x : Extended K) : add x 0 = x := by
  rw [zero_eq]
  cases x <;> simp [add]

theorem sub_neutral (x : Extended K) : sub x 0 = x := by
  rw [zero_eq]
  cases x <;> simp [sub, neg, add]

theorem add_add (x y z : Extended K) : add x (add y z) = add (add x y) z := by
  cases x <;> cases y <;> cases z <;> simp [add, add_assoc]

theorem neg_sum (x y : Extended K) : neg (add x y) = add (neg x) (neg y) := by
  cases x <;> cases y <;> simp [add, neg, add_comm]

theorem sub_sum (x y z : Extended K) : sub x (add y z) = sub (sub x y) z := by
  rw [sub, sub, sub, neg_sum, add_add]

end Sums

section Products

variable {K : Type*} [Field K] [LinearOrder K]

@[simp] theorem nan_mul (x : Extended K) : mul .nan x = .nan := by
  cases x <;> rfl

@[simp] theorem mul_nan (x : Extended K) : mul x .nan = .nan := by
  cases x <;> rfl

@[simp] theorem finite_mul_finite (x y : K) : mul (.finite x) (.finite y) = .finite (x * y) := rfl

@[simp] theorem finite_mul_posInf (x : K) : mul (.finite x) .posInf = scaled x := rfl

@[simp] theorem finite_mul_negInf (x : K) : mul (.finite x) .negInf = scaled (-x) := rfl

@[simp] theorem posInf_mul_posInf : mul .posInf (.posInf : Extended K) = .posInf := rfl

@[simp] theorem posInf_mul_negInf : mul .posInf (.negInf : Extended K) = .negInf := rfl

@[simp] theorem negInf_mul_negInf : mul .negInf (.negInf : Extended K) = .posInf := rfl

theorem mul_commutes (x y : Extended K) : mul x y = mul y x := by
  cases x <;> cases y <;> simp [mul, mul_comm]

@[simp] theorem posInf_mul_finite (x : K) : mul .posInf (.finite x) = scaled x := rfl

@[simp] theorem negInf_mul_finite (x : K) : mul .negInf (.finite x) = scaled (-x) := rfl

@[simp] theorem negInf_mul_posInf : mul .negInf (.posInf : Extended K) = .negInf := rfl

theorem scaled_pos {x : K} (pos : 0 < x) : scaled x = .posInf := if_pos pos

theorem scaled_neg {x : K} (neg : x < 0) : scaled x = .negInf := by
  rw [scaled, if_neg neg.not_gt, if_pos neg]

@[simp] theorem scaled_zero : scaled (0 : K) = .nan := by simp [scaled]

@[simp] theorem posInf_mul_scaled (x : K) : mul .posInf (scaled x) = scaled x := by
  rcases lt_trichotomy x 0 with neg | rfl | pos
  · simp [scaled_neg neg]
  · simp
  · simp [scaled_pos pos]

theorem inv_scaled (x : K) : inv (scaled x) = mul (.finite 0) (inv (.finite x)) := by
  rcases lt_trichotomy x 0 with neg | rfl | pos
  · simp [scaled_neg neg, inv, neg.ne]
  · simp [inv]
  · simp [scaled_pos pos, inv, pos.ne']

theorem inv_neg_finite (x : K) :
    mul (.finite 0) (inv (.finite (-x))) = mul (.finite 0) (inv (.finite x)) := by
  by_cases zero : x = 0
  · simp [zero]
  · simp [inv, zero]

theorem inv_product (x y : K) :
    inv (.finite (x * y)) = mul (inv (.finite x)) (inv (.finite y)) := by
  by_cases zeroX : x = 0
  · simp [inv, zeroX]
  · by_cases zeroY : y = 0
    · simp [inv, zeroY]
    · simp [inv, zeroX, zeroY, mul_comm]

theorem inv_mul (x y : Extended K) : inv (mul x y) = mul (inv x) (inv y) := by
  cases x with
  | nan => simp [inv]
  | negInf =>
    cases y with
    | finite y => rw [negInf_mul_finite, inv_scaled, inv_neg_finite]; rfl
    | negInf | posInf | nan => simp [inv]
  | posInf =>
    cases y with
    | finite y => exact inv_scaled y
    | negInf | posInf | nan => simp [inv]
  | finite x =>
    cases y with
    | finite y => exact inv_product x y
    | posInf => rw [finite_mul_posInf, inv_scaled, mul_commutes]; rfl
    | negInf => rw [finite_mul_negInf, inv_scaled, inv_neg_finite, mul_commutes]; rfl
    | nan => simp [inv]

variable [IsStrictOrderedRing K]

theorem mul_neutral (x : Extended K) : mul x 1 = x := by
  rw [one_eq]
  cases x <;> simp [scaled]

@[simp] theorem negInf_mul_scaled (x : K) : mul .negInf (scaled x) = scaled (-x) := by
  rcases lt_trichotomy x 0 with neg | rfl | pos
  · simp [scaled_neg neg, scaled_pos (neg_pos.mpr neg)]
  · simp
  · simp [scaled_pos pos, scaled_neg (neg_lt_zero.mpr pos)]

@[simp] theorem finite_mul_scaled (x y : K) : mul (.finite x) (scaled y) = scaled (x * y) := by
  rcases lt_trichotomy y 0 with neg | rfl | pos
  · rw [scaled_neg neg, finite_mul_negInf]
    rcases lt_trichotomy x 0 with low | rfl | high
    · rw [scaled_pos (mul_pos_of_neg_of_neg low neg), scaled_pos (neg_pos.mpr low)]
    · simp
    · rw [scaled_neg (mul_neg_of_pos_of_neg high neg), scaled_neg (neg_lt_zero.mpr high)]
  · simp
  · rw [scaled_pos pos, finite_mul_posInf]
    rcases lt_trichotomy x 0 with low | rfl | high
    · rw [scaled_neg (mul_neg_of_neg_of_pos low pos), scaled_neg low]
    · simp
    · rw [scaled_pos (mul_pos high pos), scaled_pos high]

theorem mul_mul (x y z : Extended K) : mul x (mul y z) = mul (mul x y) z := by
  cases x <;> cases y <;> cases z <;>
    simp [mul_comm, mul_left_comm, mul_commutes (scaled _)]

theorem div_neutral (x : Extended K) : div x 1 = x := by
  have one : inv (1 : Extended K) = 1 := by simp [one_eq, inv]
  rw [div, one, mul_neutral]

theorem div_product (x y z : Extended K) : div x (mul y z) = div (div x y) z := by
  rw [div, div, div, inv_mul, mul_mul]

end Products

section Extrema

variable {K : Type*} [LinearOrder K]

theorem min_min (x y z : Extended K) : min x (min y z) = min (min x y) z := by
  cases x <;> cases y <;> cases z <;> simp [min, min_assoc]

theorem min_commutes (x y : Extended K) : min x y = min y x := by
  cases x <;> cases y <;> simp [min, min_comm]

theorem min_self_eq (x : Extended K) : min x x = x := by
  cases x <;> simp [min]

theorem max_max (x y z : Extended K) : max x (max y z) = max (max x y) z := by
  cases x <;> cases y <;> cases z <;> simp [max, max_assoc]

theorem max_commutes (x y : Extended K) : max x y = max y x := by
  cases x <;> cases y <;> simp [max, max_comm]

theorem max_self_eq (x : Extended K) : max x x = x := by
  cases x <;> simp [max]

theorem min_finite_eq_iff {limit : K} {x : Extended K} :
    min x (.finite limit) = x ↔ ¬ Exceeds limit x := by
  cases x <;> simp [min, Exceeds]

theorem exceeds_min {limit : K} {x y : Extended K} :
    Exceeds limit (min x y) ↔ Exceeds limit x ∧ Exceeds limit y := by
  cases x <;> cases y <;> simp [min, Exceeds]

theorem max_finite_eq_iff {limit : K} {x : Extended K} :
    max x (.finite limit) = x ↔ ¬ FallsBelow limit x := by
  cases x <;> simp [max, FallsBelow]

theorem fallsBelow_max {limit : K} {x y : Extended K} :
    FallsBelow limit (max x y) ↔ FallsBelow limit x ∧ FallsBelow limit y := by
  cases x <;> cases y <;> simp [max, FallsBelow]

end Extrema

end Extended

end TfDml.Lib
