import TfDml.Core.BCast

/-! # The shape that operands are broadcast to

The shape of several operands is computed in two places: by the kernels, which end the process if
the shapes do not fit, and by the init helper, which reports an error.
-/

namespace TfDml.BroadcastShapes

open Lib List

/-- The loop of `BroadcastTensorShape`, which walks backwards through both shapes. Without a
    result, a `CHECK` fails. -/
def walk : Nat → List Nat → List Nat → Option (List Nat)
  | 0, _, _ => some []
  | rank + 1, rest0, rest1 => do
    let inDim0 := rest0.headD 1
    let inDim1 := rest1.headD 1
    if inDim0 = inDim1 ∨ inDim0 = 1 ∨ inDim1 = 1 then
      let broadcastedDim := max inDim0 inDim1
      -- A zero dimension cannot be broadcast.
      let broadcastedDim := if inDim0 = 0 ∨ inDim1 = 0 then 0 else broadcastedDim
      let inner ← walk rank rest0.tail rest1.tail
      some (broadcastedDim :: inner)
    else none

def broadcastTensorShape (inputShape0 inputShape1 : TensorShape) : Option TensorShape :=
  if inputShape0 = inputShape1 then some inputShape0
  else
    (walk (max inputShape0.length inputShape1.length) inputShape0.reverse
      inputShape1.reverse).map List.reverse

def broadcastTensorShapes (shapes : List TensorShape) : Option TensorShape :=
  match shapes with
  | [] => none
  | first :: _ => shapes.foldlM broadcastTensorShape first

def incompatible (broadcastedShape inputShape : TensorShape) : Status :=
  .invalidArgument
    s!"Incompatible shapes: {broadcastedShape.debugString} vs. {inputShape.debugString}"

/-- The loop of `BroadcastedOutputShapeInitHelper`, for an input. -/
def broadcastInput (broadcastedShape inputShape : TensorShape) : Except Status TensorShape :=
  match BCast.create broadcastedShape inputShape false with
  | none => .error (incompatible broadcastedShape inputShape)
  | some bcast => .ok bcast.output

/-- `BroadcastedOutputShapeInitHelper` -/
def broadcastedOutputShape (inputs : List TensorShape) : Except Status TensorShape :=
  inputs.foldlM broadcastInput []

theorem broadcastDim_eq (x y : Nat) : broadcastDim x y =
      if x = y ∨ x = 1 ∨ y = 1 then some (if x = 0 ∨ y = 0 then 0 else max x y) else none := by
  rw [broadcastDim]
  split_ifs <;> simp_all <;> omega

theorem walk_succ (rank : Nat) (xs ys : List Nat) : walk (rank + 1) xs ys =
      (broadcastDim (xs.headD 1) (ys.headD 1)).bind fun d =>
        (walk rank xs.tail ys.tail).map (d :: ·) := by
  rw [broadcastDim_eq, walk]
  split
  case isTrue => cases walk rank xs.tail ys.tail <;> rfl
  case isFalse => rfl

theorem walk_nil {rank : Nat} {ys : List Nat} (length : ys.length = rank) :
    walk rank [] ys = some ys := by
  induction rank generalizing ys with
  | zero =>
    obtain rfl := length_eq_zero_iff.mp length
    rfl
  | succ rank ih =>
    cases ys with
    | nil => simp at length
    | cons y ys =>
      rw [walk_succ, headD_nil, headD_cons, broadcastDim_one, tail_nil,
        tail_cons, ih (Nat.succ_injective length)]
      rfl

theorem walk_comm (rank : Nat) (xs ys : List Nat) : walk rank xs ys = walk rank ys xs := by
  induction rank generalizing xs ys with
  | zero => rfl
  | succ rank ih => rw [walk_succ, walk_succ, broadcastDim_comm, ih]

theorem walk_eq (xs ys : List Nat) :
    walk (max xs.length ys.length) xs ys = broadcastReversed xs ys := by
  induction xs generalizing ys with
  | nil => exact walk_nil (Nat.zero_max _).symm
  | cons x xs ih =>
    cases ys with
    | nil =>
      rw [walk_comm]
      exact walk_nil (Nat.max_zero _).symm
    | cons y ys =>
      rw [length_cons, length_cons, Nat.succ_max_succ, walk_succ, headD_cons,
        headD_cons, tail_cons, tail_cons, ih, broadcastReversed]

theorem broadcastTensorShape_eq (x y : TensorShape) : broadcastTensorShape x y = broadcast x y := by
  rw [broadcastTensorShape]
  split
  case isTrue same => rw [← same, broadcast_self]
  case isFalse => rw [broadcast, ← walk_eq, length_reverse, length_reverse]

theorem broadcastTensorShapes_eq (first : TensorShape) (rest : List TensorShape) :
    broadcastTensorShapes (first :: rest) = broadcastAll (first :: rest) := by
  have step : broadcastTensorShape = broadcast :=
    funext fun x => funext fun y => broadcastTensorShape_eq x y
  rw [broadcastTensorShapes, broadcastAll, foldlM_cons, foldlM_cons, step,
    broadcast_self, broadcast_nil]

theorem broadcastInput_toOption (x y : TensorShape) :
    (broadcastInput x y).toOption = broadcast x y := by
  rw [broadcastInput, ← BCast.create_output x y false]
  cases BCast.create x y false <;> rfl

theorem broadcastedOutputShape_error {inputs : List TensorShape} {start : TensorShape}
    {status : Status} (failed : inputs.foldlM broadcastInput start = .error status) :
    status.isInvalidArgument = true := by
  induction inputs generalizing start with
  | nil => exact nomatch failed
  | cons input rest ih =>
    rw [foldlM_cons] at failed
    cases first : broadcastInput start input with
    | ok shape =>
      rw [first] at failed
      exact ih failed
    | error err =>
      rw [first] at failed
      obtain rfl : err = status := Except.error.inj failed
      rw [broadcastInput] at first
      split at first
      · rw [← Except.error.inj first]
        rfl
      · exact nomatch first

theorem foldlM_broadcastInput (inputs : List TensorShape) (start : TensorShape) :
    (inputs.foldlM broadcastInput start).toOption = inputs.foldlM broadcast start := by
  induction inputs generalizing start with
  | nil => rfl
  | cons input rest ih =>
    have step := broadcastInput_toOption start input
    rw [foldlM_cons, foldlM_cons, ← step]
    cases broadcastInput start input with
    | error status => rfl
    | ok shape => exact ih shape

/-- The fold passes its checks if and only if the init helper reports no error, with the same
    shape, and both in any order of the operands. -/
theorem broadcastTensorShapes_agrees (first : TensorShape) (rest : List TensorShape) :
    broadcastTensorShapes (first :: rest) = (broadcastedOutputShape (first :: rest)).toOption ∧
      (∀ status, broadcastedOutputShape (first :: rest) = .error status →
        status.isInvalidArgument = true) ∧ ∀ shapes, shapes.Perm (first :: rest) →
        broadcastTensorShapes shapes = broadcastTensorShapes (first :: rest) ∧
          (broadcastedOutputShape shapes).toOption =
            (broadcastedOutputShape (first :: rest)).toOption := by
  have helper (shapes : List TensorShape) :
      (broadcastedOutputShape shapes).toOption = broadcastAll shapes :=
    foldlM_broadcastInput shapes []
  refine ⟨?_, fun status err => broadcastedOutputShape_error err, fun shapes perm => ?_⟩
  · rw [helper, broadcastTensorShapes_eq]
  · have same := broadcastAll_perm perm
    refine ⟨?_, ?_⟩
    · cases shapes with
      | nil => exact absurd perm.length_eq (Nat.succ_ne_zero _).symm
      | cons shape others => rw [broadcastTensorShapes_eq, broadcastTensorShapes_eq, same]
    · rw [helper, helper, same]

end TfDml.BroadcastShapes
