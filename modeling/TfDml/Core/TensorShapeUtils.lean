import TfDml.Core.OpKernelContext
import Mathlib.Data.BitVec

/-! # Building shapes

How a shape is made of the dimensions that a tensor has, without overflow of the number of
its elements.
-/

namespace TfDml

/-- Multiply two nonnegative int64's, returning negative for overflow. -/
def multiplyWithoutOverflow (x y : Int) : Int :=
  if x < 0 then -1
  else if y < 0 then -1
  else if x = 0 then 0
  else
    let ux := BitVec.ofInt 64 x
    let uy := BitVec.ofInt 64 y
    let uxy := ux * uy
    -- Otherwise, detect overflow using a division.
    if (ux ||| uy) >>> 32 != 0 && uxy / ux != uy then -1
    else uxy.toInt

theorem multiplyWithoutOverflow_natCast {m n : Nat} (first : m < 2 ^ 63) (snd : n < 2 ^ 63) :
    (m * n < 2 ^ 63 → multiplyWithoutOverflow m n = (m * n : Nat)) ∧
      (2 ^ 63 ≤ m * n → multiplyWithoutOverflow m n < 0) := by
  have nat : ¬ (m : Int) < 0 := by omega
  have nat' : ¬ (n : Int) < 0 := by omega
  rw [multiplyWithoutOverflow, if_neg nat, if_neg nat']
  by_cases zero : m = 0
  · subst zero
    simp
  rw [if_neg (by omega : ¬ (m : Int) = 0)]
  simp only [BitVec.ofInt_natCast]
  have ux : (BitVec.ofNat 64 m).toNat = m := Nat.mod_eq_of_lt (by omega)
  have uy : (BitVec.ofNat 64 n).toNat = n := Nat.mod_eq_of_lt (by omega)
  have uxy : (BitVec.ofNat 64 m * BitVec.ofNat 64 n).toNat = m * n % 2 ^ 64 := by
    rw [BitVec.toNat_mul, ux, uy]
  have quotient : (BitVec.ofNat 64 m * BitVec.ofNat 64 n / BitVec.ofNat 64 m ≠ BitVec.ofNat 64 n) ↔
      m * n % 2 ^ 64 / m ≠ n := by
    rw [Ne, ← BitVec.toNat_inj, BitVec.toNat_udiv, uxy, ux, uy]
  by_cases fits : m * n < 2 ^ 64
  · have exact_ : m * n % 2 ^ 64 / m = n := by
      rw [Nat.mod_eq_of_lt fits, Nat.mul_div_cancel_left n (Nat.pos_of_ne_zero zero)]
    rw [if_neg (by simpa [quotient] using fun _ => exact_), BitVec.toInt_eq_toNat_cond, uxy,
      Nat.mod_eq_of_lt fits]
    constructor
    · intro small
      rw [if_pos (by omega)]
    · intro large
      rw [if_neg (by omega)]
      omega
  · have wide : (BitVec.ofNat 64 m ||| BitVec.ofNat 64 n) >>> 32 ≠ 0 := by
      intro lt
      have shifted := congrArg BitVec.toNat lt
      rw [BitVec.toNat_ushiftRight, BitVec.toNat_or, ux, uy, Nat.shiftRight_eq_div_pow] at shifted
      have below : m ||| n < 2 ^ 32 := Nat.lt_of_div_eq_zero (by decide) shifted
      have left := lt_of_le_of_lt Nat.left_le_or below
      have right := lt_of_le_of_lt Nat.right_le_or below
      have product := Nat.mul_lt_mul'' left right
      omega
    have inexact : m * n % 2 ^ 64 / m ≠ n := by
      intro same
      have lower := Nat.div_mul_le_self (m * n % 2 ^ 64) m
      have wrapped := Nat.mod_lt (m * n) (by decide : 0 < 2 ^ 64)
      rw [same, mul_comm] at lower
      omega
    rw [if_pos (by simpa [quotient] using And.intro wide (quotient.mpr inexact))]
    exact ⟨fun small => by omega, fun _ => by decide⟩

namespace TensorShape

def maxDimensions : Nat := 254

/-- `dim_size`; without a result, the dimension does not exist. -/
def dimSize (shape : TensorShape) (dimIndex : Int) : Option Nat :=
  if 0 ≤ dimIndex then shape[dimIndex.toNat]? else none

/-- `TensorShape::DebugString` of dimensions that may be negative. -/
def debugStringOf (dims : List Int) : String :=
  "[" ++ ",".intercalate (dims.map fun dim => if dim < 0 then "?" else toString dim) ++ "]"

/-- The loop over the dimensions, which are `dims` as a whole. -/
def addDims (dims : List Int) : List Int → TensorShape → Except Status TensorShape
  | [], out => .ok out
  | dim :: rest, out => do
    opRequires (0 ≤ dim) (.invalidArgument ("Dimension " ++ toString dim ++ " must be >= 0"))
    opRequires (0 ≤ multiplyWithoutOverflow out.numElements dim)
      (.invalidArgument ("Shape " ++ debugStringOf dims ++
        " would have more than 2**63 - 1 elements"))
    addDims dims rest (out ++ [dim.toNat])

/-- `TensorShapeUtils::MakeShape` of a tensor of indices. -/
def makeShape (shape : TensorShape) (values : List Int) : Except Status TensorShape := do
  opRequires (shape.length == 1)
    (.invalidArgument ("shape must be a vector of {int32,int64}, got shape " ++ shape.debugString))
  opRequires (values.length ≤ maxDimensions) (.invalidArgument "Too many dimensions")
  addDims values values []

def addDimWithStatus (shape : TensorShape) (size : Int) : Except Status TensorShape := do
  opRequires (0 ≤ size)
    (.invalidArgument ("Expected a non-negative size, got " ++ toString size))
  opRequires (shape.length < maxDimensions) (.invalidArgument "Too many dimensions in tensor")
  let newNumElements := multiplyWithoutOverflow shape.numElements size
  opRequires (0 ≤ newNumElements)
    (.invalidArgument ("Encountered overflow when multiplying " ++ toString shape.numElements ++
      " with " ++ toString size ++ ", result: " ++ toString newNumElements))
  .ok (shape ++ [size.toNat])

variable {dims values : List Int} {out shape : TensorShape}

theorem addDims_ok (added : addDims dims values out = .ok shape) :
    shape = out ++ values.map Int.toNat ∧ ∀ dim ∈ values, 0 ≤ dim := by
  induction values generalizing out with
  | nil =>
    obtain rfl := Except.ok.inj added
    simp
  | cons dim rest ih =>
    simp only [addDims, bind_eq_ok, opRequires_eq_ok, exists_const, decide_eq_true_eq] at added
    obtain ⟨nat, -, later⟩ := added
    obtain ⟨rfl, naturals⟩ := ih later
    exact ⟨by simp, List.forall_mem_cons.mpr ⟨nat, naturals⟩⟩

variable {made : TensorShape}

theorem makeShape_ok (ok : makeShape shape values = .ok made) :
    made = values.map Int.toNat ∧ ∀ dim ∈ values, 0 ≤ dim := by
  simp only [makeShape, bind_eq_ok, opRequires_eq_ok, exists_const] at ok
  exact addDims_ok ok.2.2

theorem prod_of_addDims (added : addDims dims values out = .ok shape)
    (lt : ∀ dim ∈ values, dim < 2 ^ 63) (start : out.prod < 2 ^ 63) : shape.prod < 2 ^ 63 := by
  induction values generalizing out with
  | nil => rwa [← Except.ok.inj added]
  | cons dim rest ih =>
    rw [List.forall_mem_cons] at lt
    simp only [addDims, bind_eq_ok, opRequires_eq_ok, exists_const, decide_eq_true_eq] at added
    obtain ⟨nat, fits, later⟩ := added
    refine ih later lt.2 ?_
    obtain ⟨size, rfl⟩ := Int.eq_ofNat_of_zero_le nat
    have product := multiplyWithoutOverflow_natCast start (by omega : size < 2 ^ 63)
    rw [List.prod_append, List.prod_singleton, Int.toNat_natCast]
    by_contra large
    have neg := product.2 (by omega)
    exact absurd fits (by simpa [numElements] using neg)

theorem prod_of_makeShape (ok : makeShape shape values = .ok made)
    (lt : ∀ dim ∈ values, dim < 2 ^ 63) : made.prod < 2 ^ 63 := by
  simp only [makeShape, bind_eq_ok, opRequires_eq_ok, exists_const] at ok
  exact prod_of_addDims ok.2.2 lt (by decide)

end TensorShape

end TfDml
