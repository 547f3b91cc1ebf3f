import Mathlib.Algebra.BigOperators.Group.List.Basic

/-! # Masked reductions

Instead of applying those updates that match to an element one by one, all updates are
reduced to one, with an identity in the place of those that do not match, and the result
is applied.
-/

namespace TfDml.Lib

open List

variable {α : Type*}

/-- The updates that match are applied, one after the other. -/
def sequential (combine : α → α → α) (x : α) (updates : List (Bool × α)) : α :=
  (updates.filter Prod.fst).foldl (fun x update => combine x update.2) x

def masked (identity : α) (updates : List (Bool × α)) : List α :=
  updates.map fun update => if update.1 then update.2 else identity

/-- All of a list in one; nothing is made of nothing. -/
def reduced (reduce : α → α → α) : List α → Option α
  | [] => none
  | x :: rest => some (rest.foldl reduce x)

theorem reduced_bind {combine reduce : α → α → α} {l : List α} (some_ : l ≠ []) (x : α) :
    ((reduced reduce l).bind fun y => some (combine x y)) =
      some ((reduced reduce l).elim x (combine x)) := by
  cases l with
  | nil => exact absurd rfl some_
  | cons y rest => rfl

theorem reduced_add [AddMonoid α] {l : List α} (some_ : l ≠ []) :
    reduced (· + ·) l = some l.sum := by
  cases l with
  | nil => exact absurd rfl some_
  | cons x rest =>
    rw [reduced, sum_cons, Option.some.injEq]
    induction rest generalizing x with
    | nil => simp
    | cons y rest ih => rw [foldl_cons, ih (x + y) (by simp), sum_cons, add_assoc]

/-- The reduction of the masked updates is applied, if there are any. -/
def maskedReduce (combine reduce : α → α → α) (identity x : α) (updates : List (Bool × α)) : α :=
  (reduced reduce (masked identity updates)).elim x (combine x)

theorem sequential_cons_true (combine : α → α → α) (x y : α) (rest : List (Bool × α)) :
    sequential combine x ((true, y) :: rest) = sequential combine (combine x y) rest := rfl

theorem sequential_cons_false (combine : α → α → α) (x y : α) (rest : List (Bool × α)) :
    sequential combine x ((false, y) :: rest) = sequential combine x rest := rfl

theorem sequential_append_unmatched (combine : α → α → α) (x : α) {updates others : List (Bool × α)}
    (unmatched : ∀ update ∈ others, update.1 = false) :
    sequential combine x (updates ++ others) = sequential combine x updates := by
  have none : others.filter Prod.fst = [] := by
    rw [filter_eq_nil_iff]
    intro update mem
    rw [unmatched update mem]
    exact Bool.false_ne_true
  rw [sequential, filter_append, none, append_nil]
  rfl

theorem sequential_iff {combine : α → α → α} {P : α → Prop}
    (both : ∀ x y, P (combine x y) ↔ P x ∧ P y) (x : α) (updates : List (Bool × α)) :
    P (sequential combine x updates) ↔ P x ∧ ∀ update ∈ updates, update.1 = true → P update.2 := by
  induction updates generalizing x with
  | nil => simp [sequential]
  | cons update rest ih =>
    obtain ⟨isMatch, y⟩ := update
    cases isMatch with
    | true => rw [sequential_cons_true, ih, both, forall_mem_cons]; simp [and_assoc]
    | false => rw [sequential_cons_false, ih, forall_mem_cons]; simp

theorem getElem?_foldl_mapIdx {β : Type*} (combine : α → α → α) (P : β → Nat → Prop)
    [∀ u k, Decidable (P u k)] (update : β → Nat → α) (us : List β) (values : List α) (k : Nat) :
    (us.foldl (fun values u => values.mapIdx fun k x =>
        if P u k then combine x (update u k) else x) values)[k]? =
      (values[k]?).map fun x => sequential combine x (us.map fun u => (decide (P u k), update u k))
    := by
  induction us generalizing values with
  | nil => simp [sequential]
  | cons u rest ih =>
    rw [foldl_cons, ih, getElem?_mapIdx, Option.map_map, map_cons]
    congr 1
    funext x
    by_cases here : P u k
    · simp only [Function.comp_apply, here, if_true, decide_true, sequential_cons_true]
    · simp only [Function.comp_apply, here, if_false, decide_false, sequential_cons_false]

section Action

variable {combine reduce : α → α → α}

theorem combine_reduced (action : ∀ x y z, combine x (reduce y z) = combine (combine x y) z)
    (x : α) (l : List α) : (reduced reduce l).elim x (combine x) = l.foldl combine x := by
  cases l with
  | nil => rfl
  | cons y rest =>
    simp only [reduced, Option.elim_some, foldl_cons]
    induction rest generalizing y with
    | nil => rfl
    | cons z rest ih => rw [foldl_cons, ih, action, foldl_cons]

theorem maskedReduce_eq_sequential {identity : α}
    (action : ∀ x y z, combine x (reduce y z) = combine (combine x y) z)
    (neutral : ∀ x, combine x identity = x) (x : α) (updates : List (Bool × α)) :
    maskedReduce combine reduce identity x updates = sequential combine x updates := by
  rw [maskedReduce, combine_reduced action]
  induction updates generalizing x with
  | nil => rfl
  | cons update rest ih =>
    obtain ⟨isMatch, y⟩ := update
    cases isMatch with
    | true => exact ih (combine x y)
    | false =>
      rw [sequential_cons_false, ← ih x, masked, map_cons, foldl_cons]
      simp only [Bool.false_eq_true, if_false, neutral]
      rfl

theorem sequential_eq_sum [AddMonoid α] (action : ∀ x y z, combine x (y + z) = combine (combine x y) z)
    (neutral : ∀ x, combine x 0 = x) (x : α) (updates : List (Bool × α)) :
    sequential combine x updates = combine x (masked 0 updates).sum := by
  rw [← maskedReduce_eq_sequential action neutral, maskedReduce]
  by_cases empty : masked 0 updates = []
  · rw [empty, sum_nil, neutral]
    rfl
  · rw [reduced_add empty, Option.elim_some]

theorem sum_masked_single [AddMonoid α] (isMatch : Nat → Bool) (y : α) (i n : Nat) :
    (masked 0 ((List.range n).map fun u => (isMatch u, if u = i then y else 0))).sum =
      if i < n ∧ isMatch i = true then y else 0 := by
  induction n with
  | zero => simp [masked]
  | succ n ih =>
    rw [range_succ, map_append, masked, map_append, sum_append, ← masked, ih]
    by_cases last : n = i
    · subst last
      simp
    · have same : i < n + 1 ↔ i < n := by omega
      simp [last, same]

end Action

section Extremum

variable {combine : α → α → α}

theorem sequential_comm (assoc : ∀ x y z, combine x (combine y z) = combine (combine x y) z)
    (comm : ∀ x y, combine x y = combine y x) (x y : α) (updates : List (Bool × α)) :
    sequential combine (combine x y) updates = combine (sequential combine x updates) y := by
  unfold sequential
  induction updates.filter Prod.fst generalizing x with
  | nil => rfl
  | cons update rest ih =>
    have swapped : combine (combine x y) update.2 = combine (combine x update.2) y := by
      rw [← assoc, comm y, assoc]
    rw [foldl_cons, swapped, ih, foldl_cons]

theorem maskedReduce_of_idempotent
    (assoc : ∀ x y z, combine x (combine y z) = combine (combine x y) z)
    (comm : ∀ x y, combine x y = combine y x) (idem : ∀ x, combine x x = x) (identity x : α)
    (updates : List (Bool × α)) : maskedReduce combine combine identity x updates =
      if updates.all Prod.fst then sequential combine x updates
      else combine (sequential combine x updates) identity := by
  rw [maskedReduce, combine_reduced assoc]
  induction updates generalizing x with
  | nil => rfl
  | cons update rest ih =>
    obtain ⟨isMatch, y⟩ := update
    rw [masked, map_cons, foldl_cons, ← masked, ih]
    cases isMatch with
    | true => rfl
    | false =>
      simp only [Bool.false_eq_true, if_false, all_cons, Bool.false_and,
        sequential_cons_false, sequential_comm assoc comm]
      split
      · rfl
      · rw [← assoc, idem]

end Extremum

end TfDml.Lib
