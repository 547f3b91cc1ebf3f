import Mathlib.Data.List.Nodup

/-! # Sorted sets by a comparator

`std::set` as the list of its elements in order. Two elements are equivalent when
neither is less than the other; the set holds at most one of them.
-/

namespace TfDml.Lib.OrderedSet

open List

variable {α : Type*} (less : α → α → Bool)

/-- `insert`; an equivalent element that is already there stays. -/
def insert (x : α) : List α → List α
  | [] => [x]
  | y :: rest =>
    if less x y then x :: y :: rest
    else if less y x then y :: insert x rest
    else y :: rest

/-- `erase` by key; there is no result if no element is equivalent to it. -/
def erase (x : α) : List α → Option (List α)
  | [] => none
  | y :: rest => if !less x y && !less y x then some rest else (erase x rest).map (y :: ·)

variable {less} {x : α} {l : List α}

theorem mem_insert (apart : ∀ y ∈ l, less x y = true ∨ less y x = true) {z : α} :
    z ∈ insert less x l ↔ z = x ∨ z ∈ l := by
  induction l with
  | nil => simp [insert]
  | cons y rest ih =>
    have later := ih fun w mem => apart w (mem_cons_of_mem y mem)
    unfold insert
    split
    · simp
    · rename_i notLess
      have greater := (apart y mem_cons_self).resolve_left notLess
      simp only [greater, if_true, mem_cons, later]
      tauto

theorem sorted_insert (trans : ∀ a b c, less a b = true → less b c = true → less a c = true)
    (apart : ∀ y ∈ l, less x y = true ∨ less y x = true)
    (sorted : l.Pairwise fun a b => less a b = true) :
    (insert less x l).Pairwise fun a b => less a b = true := by
  induction l with
  | nil => simp [insert]
  | cons y rest ih =>
    obtain ⟨first, sorted⟩ := pairwise_cons.mp sorted
    have others : ∀ w ∈ rest, less x w = true ∨ less w x = true :=
      fun w mem => apart w (mem_cons_of_mem y mem)
    unfold insert
    split
    · rename_i lt
      refine .cons ?_ (.cons first sorted)
      intro w mem
      rcases mem_cons.mp mem with rfl | inside
      · exact lt
      · exact trans x y w lt (first w inside)
    · rename_i notLess
      have greater := (apart y mem_cons_self).resolve_left notLess
      rw [if_pos greater]
      refine .cons ?_ (ih others sorted)
      intro w mem
      rcases (mem_insert others).mp mem with rfl | inside
      · exact greater
      · exact first w inside

theorem erase_eq [DecidableEq α] (irrefl : ∀ a, less a a = false)
    (sorted : l.Pairwise fun a b => less a b = true) (mem : x ∈ l) :
    erase less x l = some (l.erase x) := by
  induction l with
  | nil => cases mem
  | cons y rest ih =>
    obtain ⟨first, sorted⟩ := pairwise_cons.mp sorted
    by_cases same : y = x
    · subst same
      simp [erase, irrefl]
    · have lt : x ∈ rest := (mem_cons.mp mem).resolve_left fun eq =>
        same eq.symm
      have smaller := first x lt
      simp [erase, smaller, ih sorted lt, same]

end TfDml.Lib.OrderedSet
