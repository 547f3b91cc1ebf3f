import TfDml.Kernels.RangeOp
import TfDml.Lib.Broadcast

/-! # Broadcasting of two shapes

The dimensions are visited from the innermost one outwards. Neighbours that are broadcast in the
same way become one dimension of the reshaped operands.
-/

namespace TfDml

open Lib List Option
open RangeOp (i64)

namespace BCast

inductive State where
  | unknown
  | same
  | xOne
  | yOne
  deriving DecidableEq

/-- The entries of `result_`, `x_reshape_`, `x_bcast_`, `y_reshape_` and `y_bcast_` for a
    dimension; the vectors grow together. -/
structure Dim where
  result : Int
  x : Int
  xBcast : Int
  y : Int
  yBcast : Int
  deriving DecidableEq

def Dim.mul (dim back : Dim) : Dim :=
  ⟨i64 (back.result * dim.result), i64 (back.x * dim.x), i64 (back.xBcast * dim.xBcast),
    i64 (back.y * dim.y), i64 (back.yBcast * dim.yBcast)⟩

/-- How a dimension is broadcast: its state, and the dimensions of the output, of the broadcast
    of x and of the broadcast of y. -/
def classify (x y : Nat) : Option (State × Nat × Nat × Nat) :=
  if x = y then some (.same, x, 1, 1)
  else if x = 1 then some (.xOne, y, y, 1)
  else if y = 1 then some (.yOne, x, 1, x)
  else none

/-- What the loop has collected, outermost dimension first. -/
structure Loop where
  prev : State
  dims : List Dim
  output : List Nat

/-- The vectors grow by a dimension, or their last entries do. -/
def push (fewerDims : Bool) (loop : Loop) (curr : State) (dim : Dim) : List Dim :=
  if fewerDims && loop.prev == curr then
    match loop.dims with
    | [] => []
    | back :: rest => dim.mul back :: rest
  else dim :: loop.dims

def visit (fewerDims : Bool) (x y : Nat) (loop : Loop) : Option Loop :=
  (classify x y).map fun (curr, o, bx, by_) =>
    let dim : Dim := ⟨o, x, bx, y, by_⟩
    let output := o :: loop.output
    if curr == .same && x == 1 then
      -- Both sides are ones.
      if fewerDims then ⟨loop.prev, loop.dims, output⟩ else ⟨loop.prev, dim :: loop.dims, output⟩
    else ⟨curr, push fewerDims loop curr dim, output⟩

def collect (fewerDims : Bool) : List (Nat × Nat) → Option Loop
  | [] => some ⟨.unknown, [], []⟩
  | (x, y) :: inner => (collect fewerDims inner).bind (visit fewerDims x y)

def extended (sx sy : TensorShape) : List (Nat × Nat) :=
  let rank := max sx.length sy.length
  (aligned rank sx).zip (aligned rank sy)

end BCast

/-- The vectors of a valid `BCast`. -/
structure BCast where
  dims : List BCast.Dim
  output : TensorShape
  deriving DecidableEq

namespace BCast

def resultShape (bcast : BCast) : List Int := bcast.dims.map Dim.result
def xReshape (bcast : BCast) : List Int := bcast.dims.map Dim.x
def xBcast (bcast : BCast) : List Int := bcast.dims.map Dim.xBcast
def yReshape (bcast : BCast) : List Int := bcast.dims.map Dim.y
def yBcast (bcast : BCast) : List Int := bcast.dims.map Dim.yBcast

def toShape (vec : List Int) : TensorShape := vec.map Int.toNat

/-- The constructor; without a result, the operands are not compatible. -/
def create (sx sy : TensorShape) (fewerDims : Bool) : Option BCast :=
  if sx = sy ∧ fewerDims then
    let elements := sx.foldl (fun (n : Int) (dim : Nat) => i64 (n * dim)) 1
    some ⟨[⟨elements, elements, 1, elements, 1⟩], sx⟩
  else
    (collect fewerDims (extended sx sy)).map fun loop =>
      ⟨if loop.dims.isEmpty then [⟨1, 1, 1, 1, 1⟩] else loop.dims, loop.output⟩

theorem classify_output (x y : Nat) : (classify x y).map (·.2.1) = broadcastDim x y := by
  rw [classify, broadcastDim]
  split_ifs <;> rfl

theorem visit_output (fewerDims : Bool) (x y : Nat) (loop : Loop) :
    (visit fewerDims x y loop).map Loop.output = (broadcastDim x y).map (· :: loop.output) := by
  rw [visit, Option.map_map, ← classify_output, Option.map_map]
  refine congrArg (Option.map · _) (funext fun ⟨curr, o, bx, by_⟩ => ?_)
  simp only [Function.comp_apply]
  split_ifs <;> rfl

theorem collect_output (fewerDims : Bool) {xs ys : List Nat} (length : xs.length = ys.length) :
    (collect fewerDims (xs.zip ys)).map Loop.output = broadcast xs ys := by
  induction xs generalizing ys with
  | nil =>
    obtain rfl := length_eq_zero_iff.mp length.symm
    rfl
  | cons x xs ih =>
    cases ys with
    | nil => simp at length
    | cons y ys =>
      have inner := ih (Nat.succ_injective length)
      rw [zip_cons_cons, collect, broadcast_cons (Nat.succ_injective length), ← inner]
      cases collect fewerDims (xs.zip ys) with
      | none => rfl
      | some loop => exact visit_output fewerDims x y loop

theorem create_output (sx sy : TensorShape) (fewerDims : Bool) :
    (create sx sy fewerDims).map output = broadcast sx sy := by
  rw [create]
  split
  case isTrue fast => rw [← fast.1, broadcast_self, map_some]
  case isFalse =>
    have lens : (aligned (max sx.length sy.length) sx).length =
        (aligned (max sx.length sy.length) sy).length := by
      rw [length_aligned (le_max_left _ _), length_aligned (le_max_right _ _)]
    have collected := collect_output fewerDims lens
    rw [broadcast_aligned] at collected
    rw [← collected, extended, Option.map_map, Function.comp_def]

theorem collect_operands {xs ys : List Nat} (length : xs.length = ys.length) :
    (collect false (xs.zip ys)).map (fun loop => (loop.dims.map Dim.x, loop.dims.map Dim.y)) =
      (broadcast xs ys).map fun _ => (xs.map Nat.cast, ys.map Nat.cast) := by
  induction xs generalizing ys with
  | nil =>
    obtain rfl := length_eq_zero_iff.mp length.symm
    rfl
  | cons x xs ih =>
    cases ys with
    | nil => simp at length
    | cons y ys =>
      have length : xs.length = ys.length := Nat.succ_injective length
      have inner := ih length
      rw [zip_cons_cons, collect, broadcast_cons length]
      rw [← collect_output false length] at inner ⊢
      cases collected : collect false (xs.zip ys) with
      | none => rfl
      | some loop =>
        rw [collected] at inner
        obtain ⟨first, snd⟩ := Prod.mk.inj (some.inj inner)
        simp only [bind_some, map_some, visit, ← classify_output]
        cases classify x y with
        | none => rfl
        | some got =>
          obtain ⟨curr, o, bx, by_⟩ := got
          simp only [map_some, Option.some.injEq, Bool.false_eq_true, if_false]
          split <;> simp [push, first, snd]

theorem create_yReshape (sx sy : TensorShape) : (create sx sy false).map yReshape =
      (broadcast sx sy).map fun shape => (aligned (max 1 shape.length) sy).map Nat.cast := by
  have lens : (aligned (max sx.length sy.length) sx).length =
      (aligned (max sx.length sy.length) sy).length := by
    rw [length_aligned (le_max_left _ _), length_aligned (le_max_right _ _)]
  have operands := collect_operands lens
  rw [broadcast_aligned] at operands
  rw [create, if_neg (by simp), extended]
  cases collected : collect false ((aligned (max sx.length sy.length) sx).zip
      (aligned (max sx.length sy.length) sy)) with
  | none =>
    rw [collected] at operands
    rw [map_eq_none_iff.mp operands.symm]
    rfl
  | some loop =>
    rw [collected, map_some] at operands
    obtain ⟨shape, got, same⟩ := map_eq_some_iff.mp operands.symm
    have snd := (Prod.mk.inj same).2
    have rank := length_of_broadcast got
    rw [got, map_some, map_some, map_some, Option.some.injEq, yReshape, rank]
    cases dims : loop.dims with
    | nil =>
      rw [dims, map_nil, map_eq_nil_iff] at snd
      have empty := congrArg List.length snd
      rw [length_aligned (le_max_right _ _), length_nil] at empty
      rw [empty, length_eq_zero_iff.mp (by omega : sy.length = 0)]
      rfl
    | cons d rest =>
      have many := congrArg List.length snd
      rw [length_map, length_map, length_aligned (le_max_right _ _), dims, length_cons] at many
      rw [Nat.max_eq_right (by omega : 1 ≤ max sx.length sy.length), snd, dims]
      rfl

end BCast

end TfDml
