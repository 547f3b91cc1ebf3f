import Mathlib.Algebra.BigOperators.Group.List.Lemmas
import Mathlib.Algebra.Order.Ring.Nat

/-! # Sizes that wrap around

A size that wraps around gets smaller, and so does the product. If the product is kept, no size has
wrapped around.
-/

namespace TfDml.Lib

open List

variable {ι : Type*} {f size : ι → Nat} {l : List ι}

theorem prod_map_le (lt : ∀ i ∈ l, f i ≤ size i) : (l.map f).prod ≤ (l.map size).prod := by
  induction l with
  | nil => exact le_refl _
  | cons i rest ih =>
    rw [forall_mem_cons] at lt
    rw [map_cons, map_cons, prod_cons, prod_cons]
    exact Nat.mul_le_mul lt.1 (ih lt.2)

theorem eq_of_prod_map (lt : ∀ i ∈ l, f i ≤ size i) (pos : 0 < (l.map size).prod)
    (same : (l.map f).prod = (l.map size).prod) : ∀ i ∈ l, f i = size i := by
  induction l with
  | nil => exact fun i mem => nomatch mem
  | cons i rest ih =>
    rw [forall_mem_cons] at lt ⊢
    rw [map_cons, map_cons, prod_cons, prod_cons] at same
    rw [map_cons, prod_cons] at pos
    have inner : 0 < (rest.map size).prod := Nat.pos_of_mul_pos_left pos
    have outer : 0 < size i := Nat.pos_of_mul_pos_right pos
    have first : f i = size i := by
      refine Nat.le_antisymm lt.1 (Nat.le_of_not_lt fun less => ?_)
      have shrinks : f i * (rest.map f).prod ≤ f i * (rest.map size).prod :=
        Nat.mul_le_mul_left _ (prod_map_le lt.2)
      have strict : f i * (rest.map size).prod < size i * (rest.map size).prod :=
        Nat.mul_lt_mul_of_pos_right less inner
      omega
    rw [first] at same
    exact ⟨first, ih lt.2 inner (Nat.eq_of_mul_eq_mul_left outer same)⟩

theorem narrow_of_prod {sizes : List Nat} {bound : Nat} (some_ : 0 < bound)
    (pos : 0 < sizes.prod) (same : (sizes.map (· % bound)).prod = sizes.prod) :
    ∀ size ∈ sizes, size < bound := by
  have kept := @eq_of_prod_map Nat (· % bound) id sizes (fun size _ => Nat.mod_le size bound)
    (by rwa [List.map_id]) (by rwa [List.map_id])
  intro size mem
  have same : size % bound = size := kept size mem
  rw [← same]
  exact Nat.mod_lt _ some_

end TfDml.Lib
