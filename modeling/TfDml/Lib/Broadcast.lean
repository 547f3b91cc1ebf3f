import TfDml.Lib.Tiling

/-! # Broadcasting of shapes

Shapes are aligned at their last dimensions, and a dimension of size one is stretched to the other
one's size. Several shapes broadcast together in any order, with the same result.
-/

namespace TfDml.Lib

open List Option

def broadcastDim (x y : Nat) : Option Nat :=
  if x = y then some x else if x = 1 then some y else if y = 1 then some x else none

theorem broadcastDim_comm (x y : Nat) : broadcastDim x y = broadcastDim y x := by
  rw [broadcastDim, broadcastDim]
  split_ifs <;> simp_all

theorem broadcastDim_one (x : Nat) : broadcastDim 1 x = some x := by
  rw [broadcastDim]
  split_ifs <;> simp_all

theorem broadcastDim_right_comm (x y z : Nat) :
    ((broadcastDim x y).bind fun d => broadcastDim d z) =
      (broadcastDim x z).bind fun d => broadcastDim d y := by
  rcases eq_or_ne x 1 with rfl | large
  · simp only [broadcastDim_one, bind_some]
    exact broadcastDim_comm y z
  · have stretched (n : Nat) : broadcastDim x n = if n = x ∨ n = 1 then some x else none := by
      rw [broadcastDim]
      split_ifs <;> simp_all
    rw [stretched, stretched]
    split_ifs <;> simp_all

/-- The shape of two arrays that are broadcast together, from the last dimension on. -/
def broadcastReversed : List Nat → List Nat → Option (List Nat)
  | [], ys => some ys
  | xs, [] => some xs
  | x :: xs, y :: ys => (broadcastDim x y).bind fun d => (broadcastReversed xs ys).map (d :: ·)

theorem broadcastReversed_nil (xs : List Nat) : broadcastReversed xs [] = some xs := by
  cases xs <;> rfl

theorem broadcastReversed_comm (xs ys : List Nat) :
    broadcastReversed xs ys = broadcastReversed ys xs := by
  induction xs generalizing ys with
  | nil => exact (broadcastReversed_nil ys).symm
  | cons x xs ih =>
    cases ys with
    | nil => rfl
    | cons y ys => rw [broadcastReversed, broadcastReversed, broadcastDim_comm, ih]

theorem broadcastReversed_self (xs : List Nat) : broadcastReversed xs xs = some xs := by
  induction xs with
  | nil => rfl
  | cons x xs ih => simp [broadcastReversed, broadcastDim, ih]

theorem broadcastReversed_cons_cons (x y z : Nat) (xs ys zs : List Nat) :
    ((broadcastReversed (x :: xs) (y :: ys)).bind fun s => broadcastReversed s (z :: zs)) =
      ((broadcastDim x y).bind fun d => broadcastDim d z).bind fun d =>
        ((broadcastReversed xs ys).bind fun s => broadcastReversed s zs).map (d :: ·) := by
  rw [broadcastReversed]
  cases broadcastDim x y with
  | none => rfl
  | some d =>
    cases broadcastReversed xs ys with
    | none => simp
    | some s => simp [broadcastReversed]

theorem broadcastReversed_right_comm (xs ys zs : List Nat) :
    ((broadcastReversed xs ys).bind fun s => broadcastReversed s zs) =
      (broadcastReversed xs zs).bind fun s => broadcastReversed s ys := by
  induction xs generalizing ys zs with
  | nil => exact broadcastReversed_comm ys zs
  | cons x xs ih =>
    cases ys with
    | nil =>
      rw [broadcastReversed_nil, bind_some]
      exact (bind_fun_some (broadcastReversed (x :: xs) zs)).symm.trans
        (congrArg _ (funext fun s => (broadcastReversed_nil s).symm))
    | cons y ys =>
      cases zs with
      | nil =>
        rw [broadcastReversed_nil, bind_some]
        exact (congrArg _ (funext broadcastReversed_nil)).trans
          (bind_fun_some (broadcastReversed (x :: xs) (y :: ys)))
      | cons z zs =>
        rw [broadcastReversed_cons_cons, broadcastReversed_cons_cons, broadcastDim_right_comm, ih]

/-- A shape with as many dimensions as another one, by leading ones. -/
def aligned (rank : Nat) (shape : List Nat) : List Nat :=
  List.replicate (rank - shape.length) 1 ++ shape

variable {rank : Nat}

theorem length_aligned {shape : List Nat} (fits : shape.length ≤ rank) :
    (aligned rank shape).length = rank := by
  rw [aligned, length_append, length_replicate, Nat.sub_add_cancel fits]

theorem aligned_length (shape : List Nat) : aligned shape.length shape = shape := by
  rw [aligned, Nat.sub_self]
  rfl

theorem prod_aligned (rank : Nat) (shape : List Nat) : (aligned rank shape).prod = shape.prod := by
  rw [aligned, prod_append, prod_replicate, Nat.one_pow, one_mul]

def broadcast (x y : List Nat) : Option (List Nat) :=
  (broadcastReversed x.reverse y.reverse).map List.reverse

theorem broadcast_comm (x y : List Nat) : broadcast x y = broadcast y x := by
  rw [broadcast, broadcast, broadcastReversed_comm]

theorem broadcast_self (x : List Nat) : broadcast x x = some x := by
  rw [broadcast, broadcastReversed_self, map_some, reverse_reverse]

theorem broadcast_nil (x : List Nat) : broadcast [] x = some x := by
  rw [broadcast]
  exact congrArg some (reverse_reverse x)

theorem broadcast_right_comm (x y z : List Nat) :
    ((broadcast x y).bind fun s => broadcast s z) = (broadcast x z).bind fun s => broadcast s y := by
  have unfolded (y z : List Nat) : ((broadcast x y).bind fun s => broadcast s z) =
      ((broadcastReversed x.reverse y.reverse).bind fun s =>
        broadcastReversed s z.reverse).map List.reverse := by
    rw [broadcast]
    cases broadcastReversed x.reverse y.reverse with
    | none => rfl
    | some s => simp [broadcast]
  rw [unfolded, unfolded, broadcastReversed_right_comm]

variable {xs ys result : List Nat}

theorem length_of_broadcastReversed (shape : broadcastReversed xs ys = some result) :
    result.length = max xs.length ys.length := by
  induction xs generalizing ys result with
  | nil =>
    obtain rfl := some.inj shape
    exact (Nat.zero_max _).symm
  | cons x xs ih =>
    cases ys with
    | nil =>
      obtain rfl := some.inj shape
      rfl
    | cons y ys =>
      rw [broadcastReversed, bind_eq_some_iff] at shape
      obtain ⟨d, -, mapped⟩ := shape
      obtain ⟨rest, inner, rfl⟩ := map_eq_some_iff.mp mapped
      rw [length_cons, length_cons, length_cons, ih inner, Nat.succ_max_succ]

variable {x y : List Nat}

theorem length_of_broadcast (shape : broadcast x y = some result) :
    result.length = max x.length y.length := by
  obtain ⟨reversed, inner, rfl⟩ := map_eq_some_iff.mp shape
  rw [length_reverse, length_of_broadcastReversed inner, length_reverse, length_reverse]

def broadcastAll (shapes : List (List Nat)) : Option (List Nat) := shapes.foldlM broadcast []

variable {shapes shapes' : List (List Nat)}

theorem foldlM_broadcast_perm (perm : shapes.Perm shapes') (start : List Nat) :
    shapes.foldlM broadcast start = shapes'.foldlM broadcast start := by
  induction perm generalizing start with
  | nil => rfl
  | cons shape _ ih =>
    rw [foldlM_cons, foldlM_cons]
    exact congrArg _ (funext ih)
  | swap x y rest =>
    have swapped := broadcast_right_comm start y x
    rw [foldlM_cons, foldlM_cons]
    simp only [foldlM_cons, bind_eq_bind, ← bind_assoc]
    rw [swapped]
  | trans _ _ first snd => rw [first, snd]

theorem broadcastAll_perm (perm : shapes.Perm shapes') :
    broadcastAll shapes = broadcastAll shapes' :=
  foldlM_broadcast_perm perm []

variable {count : Nat}

theorem broadcastReversed_ones (fits : count ≤ ys.length) :
    broadcastReversed (List.replicate count 1) ys = some ys := by
  induction ys generalizing count with
  | nil =>
    obtain rfl := Nat.le_zero.mp fits
    rfl
  | cons y ys ih =>
    cases count with
    | zero => rfl
    | succ count =>
      rw [replicate_succ, broadcastReversed, broadcastDim_one, ih (Nat.le_of_succ_le_succ fits)]
      rfl

theorem broadcastReversed_append_ones (fits : xs.length + count ≤ ys.length) :
    broadcastReversed (xs ++ List.replicate count 1) ys = broadcastReversed xs ys := by
  induction xs generalizing ys with
  | nil => exact broadcastReversed_ones (by simpa using fits)
  | cons x xs ih =>
    cases ys with
    | nil => simp at fits
    | cons y ys =>
      rw [length_cons, length_cons] at fits
      rw [cons_append, broadcastReversed, broadcastReversed, ih (by omega)]

theorem broadcast_aligned_left (fits : rank ≤ y.length) :
    broadcast (aligned rank x) y = broadcast x y := by
  rcases Nat.le_total rank x.length with short | long
  · rw [aligned, Nat.sub_eq_zero_of_le short, replicate_zero, nil_append]
  · rw [aligned, broadcast, broadcast, reverse_append, reverse_replicate,
      broadcastReversed_append_ones (by
        rw [length_reverse, length_reverse]
        omega)]

theorem broadcast_aligned (x y : List Nat) :
    broadcast (aligned (max x.length y.length) x) (aligned (max x.length y.length) y) =
      broadcast x y := by
  rcases Nat.le_total x.length y.length with short | long
  · rw [Nat.max_eq_right short, aligned_length, broadcast_aligned_left (le_refl _)]
  · rw [Nat.max_eq_left long, aligned_length, broadcast_comm,
      broadcast_aligned_left (le_refl _), broadcast_comm]

theorem broadcastReversed_concat (length : xs.length = ys.length) (x y : Nat) :
    broadcastReversed (xs ++ [x]) (ys ++ [y]) =
      (broadcastReversed xs ys).bind fun rest => (broadcastDim x y).map (rest ++ [·]) := by
  induction xs generalizing ys with
  | nil =>
    obtain rfl := length_eq_zero_iff.mp length.symm
    cases single : broadcastDim x y <;> simp [broadcastReversed, single]
  | cons x' xs ih =>
    cases ys with
    | nil => simp at length
    | cons y' ys =>
      rw [cons_append, cons_append, broadcastReversed, broadcastReversed,
        ih (by simpa using length)]
      cases broadcastDim x' y' with
      | none => rfl
      | some d =>
        cases broadcastReversed xs ys with
        | none => rfl
        | some rest => cases single : broadcastDim x y <;> simp

theorem broadcast_cons (length : xs.length = ys.length) (x y : Nat) :
    broadcast (x :: xs) (y :: ys) =
      (broadcast xs ys).bind fun rest => (broadcastDim x y).map (· :: rest) := by
  have concat := broadcastReversed_concat
    (by simpa using length : xs.reverse.length = ys.reverse.length) x y
  rw [broadcast, broadcast, reverse_cons, reverse_cons, concat]
  cases broadcastReversed xs.reverse ys.reverse with
  | none => rfl
  | some rest => cases broadcastDim x y <;> simp

end TfDml.Lib
