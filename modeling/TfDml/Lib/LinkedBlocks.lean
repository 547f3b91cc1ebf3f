import Mathlib.Data.List.Chain
import Mathlib.Data.List.Nodup
import Mathlib.Algebra.Order.Ring.Nat

/-! # Linked blocks that tile a range

A table maps handles to blocks of addresses. The blocks of a range follow each
other without gaps, and each is linked to its two neighbours. An edit of the
table is described by what it does to the blocks concerned, so that it can be
any sequence of writes.
-/

namespace TfDml.Lib

structure Block (η : Type*) where
  ptr : Nat
  size : Nat
  prev : Option η
  next : Option η

variable {η : Type*}

/-- The blocks of the handles cover the range from `start` to `stop` in this order, in
    multiples of `unit`; `before` and `after` are the neighbours outside of it. -/
def Tiles (unit : Nat) (table : η → Block η) :
    (before : Option η) → (start : Nat) → List η → (after : Option η) → (stop : Nat) → Prop
  | _, start, [], _, stop => start = stop
  | before, start, h :: rest, after, stop =>
    (table h).ptr = start ∧ (table h).prev = before ∧ (table h).next = rest.head?.or after ∧
      0 < (table h).size ∧ unit ∣ (table h).size ∧
      Tiles unit table (some h) (start + (table h).size) rest after stop

section

variable {unit : Nat} {table table' : η → Block η} {before after : Option η} {start stop : Nat}
  {handles xs ys : List η}

theorem Tiles.transport (tiles : Tiles unit table before start handles after stop)
    (same : ∀ h ∈ handles, table' h = table h) :
    Tiles unit table' before start handles after stop := by
  induction handles generalizing before start with
  | nil => exact tiles
  | cons h rest ih =>
    obtain ⟨ptr, prev, next, pos, multiple, later⟩ := tiles
    unfold Tiles
    rw [same h List.mem_cons_self]
    exact ⟨ptr, prev, next, pos, multiple,
      ih later fun k mem => same k (List.mem_cons_of_mem h mem)⟩

theorem tiles_append : Tiles unit table before start (xs ++ ys) after stop ↔
      ∃ middle, Tiles unit table before start xs (ys.head?.or after) middle ∧
        Tiles unit table (xs.getLast?.or before) middle ys after stop := by
  induction xs generalizing before start with
  | nil => simp [Tiles]
  | cons h rest ih =>
    have first : (rest ++ ys).head?.or after = rest.head?.or (ys.head?.or after) := by
      cases rest <;> simp
    have last : (h :: rest).getLast?.or before = rest.getLast?.or (some h) := by
      rw [List.getLast?_cons]
      cases rest.getLast? <;> rfl
    simp only [List.cons_append, Tiles, ih, first, last]
    constructor
    · rintro ⟨ptr, prev, next, pos, multiple, middle, left, right⟩
      exact ⟨middle, ⟨ptr, prev, next, pos, multiple, left⟩, right⟩
    · rintro ⟨middle, ⟨ptr, prev, next, pos, multiple, left⟩, right⟩
      exact ⟨ptr, prev, next, pos, multiple, middle, left, right⟩

theorem Tiles.le (tiles : Tiles unit table before start handles after stop) : start ≤ stop := by
  induction handles generalizing before start with
  | nil => exact le_of_eq tiles
  | cons h rest ih =>
    obtain ⟨-, -, -, -, -, later⟩ := tiles
    have := ih later
    omega

theorem Tiles.bounds (tiles : Tiles unit table before start handles after stop) {h : η}
    (mem : h ∈ handles) :
    start ≤ (table h).ptr ∧ (table h).ptr + (table h).size ≤ stop ∧ 0 < (table h).size := by
  induction handles generalizing before start with
  | nil => cases mem
  | cons k rest ih =>
    obtain ⟨ptr, -, -, pos, -, later⟩ := tiles
    have end_ := later.le
    rcases List.mem_cons.mp mem with rfl | inside
    · omega
    · have := ih later inside
      omega

theorem Tiles.aligned (tiles : Tiles unit table before start handles after stop)
    (aligned : unit ∣ start) {h : η} (mem : h ∈ handles) : unit ∣ (table h).ptr := by
  induction handles generalizing before start with
  | nil => cases mem
  | cons k rest ih =>
    obtain ⟨ptr, -, -, -, multiple, later⟩ := tiles
    rcases List.mem_cons.mp mem with rfl | inside
    · rw [ptr]
      exact aligned
    · exact ih later (Nat.dvd_add aligned multiple) inside

theorem Tiles.pairwise (tiles : Tiles unit table before start handles after stop) :
    handles.Pairwise fun a b => (table a).ptr + (table a).size ≤ (table b).ptr := by
  induction handles generalizing before start with
  | nil => exact .nil
  | cons h rest ih =>
    obtain ⟨ptr, -, -, -, -, later⟩ := tiles
    refine .cons ?_ (ih later)
    intro k mem
    have := (later.bounds mem).1
    omega

theorem Tiles.nodup (tiles : Tiles unit table before start handles after stop) : handles.Nodup := by
  refine List.Pairwise.imp_of_mem ?_ tiles.pairwise
  rintro a b mem _ apart rfl
  have := (tiles.bounds mem).2.2
  omega

theorem Tiles.relink {before' : Option η}
    (tiles : Tiles unit table before start handles after stop)
    (first : ∀ h ∈ handles.head?, table' h = { table h with prev := before' })
    (same : ∀ h ∈ handles.tail, table' h = table h) :
    Tiles unit table' before' start handles after stop := by
  cases handles with
  | nil => exact tiles
  | cons h rest =>
    obtain ⟨ptr, -, next, pos, multiple, later⟩ := tiles
    unfold Tiles
    rw [first h rfl]
    exact ⟨ptr, rfl, next, pos, multiple, later.transport same⟩

theorem Tiles.split {h new : η} {n : Nat}
    (tiles : Tiles unit table before start (xs ++ h :: ys) after stop)
    (pos : 0 < n) (multiple : unit ∣ n) (less : n < (table h).size)
    (kept : ∀ k ∈ xs, table' k = table k)
    (shrunk : table' h = { table h with size := n, next := some new })
    (added : table' new = ⟨(table h).ptr + n, (table h).size - n, some h, (table h).next⟩)
    (neighbour : ∀ k ∈ ys.head?, table' k = { table k with prev := some new })
    (behind : ∀ k ∈ ys.tail, table' k = table k) :
    Tiles unit table' before start (xs ++ h :: new :: ys) after stop := by
  obtain ⟨middle, left, ptr, prev, next, _, whole, right⟩ := tiles_append.mp tiles
  refine tiles_append.mpr ⟨middle, left.transport kept, ?_⟩
  have rest : Tiles unit table' (some new) (middle + (table h).size) ys after stop :=
    right.relink neighbour behind
  have ends : middle + n + ((table h).size - n) = middle + (table h).size := by omega
  have tail : unit ∣ (table h).size - n := Nat.dvd_sub whole multiple
  simp only [Tiles, shrunk, added, ptr, prev, next, ends, List.head?_cons, Option.some_or]
  exact ⟨trivial, trivial, trivial, pos, multiple, trivial, trivial, trivial, by omega, tail, rest⟩

theorem Tiles.merge {h g : η}
    (tiles : Tiles unit table before start (xs ++ h :: g :: ys) after stop)
    (kept : ∀ k ∈ xs, table' k = table k)
    (grown : table' h =
      { table h with size := (table h).size + (table g).size, next := (table g).next })
    (neighbour : ∀ k ∈ ys.head?, table' k = { table k with prev := some h })
    (behind : ∀ k ∈ ys.tail, table' k = table k) :
    Tiles unit table' before start (xs ++ h :: ys) after stop := by
  obtain ⟨middle, left, ptr, prev, -, pos, multiple, -, -, next, -, multiple', right⟩ :=
    tiles_append.mp tiles
  refine tiles_append.mpr ⟨middle, left.transport kept, ?_⟩
  have rest := right.relink neighbour behind
  simp only [Tiles, grown, ptr, prev, next, ← add_assoc]
  exact ⟨trivial, trivial, trivial, by omega, Nat.dvd_add multiple multiple', rest⟩

end

end TfDml.Lib
