import Mathlib.Data.List.Basic
import Mathlib.Algebra.Order.Group.Unbundled.Int

/-! # Basic indexing of arrays

An index into an array has an entry for some of its dimensions: an integer or a
slice. An ellipsis stands for the dimensions that are left over, and a new axis
for none. What an index selects is a list of positions in each dimension and the
shape of the result, from which the dimensions with an integer are left out.
-/

namespace TfDml.Lib.BasicIndexing

open List

inductive Entry where
  | ellipsis
  | newAxis
  | index (i : Int)
  | slice (start stop : Option Int) (step : Int)
  deriving DecidableEq

def Entry.takesDim : Entry → Bool
  | .ellipsis | .newAxis => false
  | .index _ | .slice _ _ _ => true

/-- A bound counts from the end if it is negative, and stays within the dimension, which begins
    one earlier and ends one earlier for a negative step. -/
def clip (dim : Nat) (step x : Int) : Int :=
  max (if 0 < step then 0 else -1)
    (min (if x < 0 then x + dim else x) (if 0 < step then dim else dim - 1))

def sliceStart (dim : Nat) (step : Int) : Option Int → Int
  | none => if 0 < step then 0 else dim - 1
  | some x => clip dim step x

def sliceStop (dim : Nat) (step : Int) : Option Int → Int
  | none => if 0 < step then dim else -1
  | some x => clip dim step x

/-- `x` comes before `stop` in the direction of the step. -/
def before (step x stop : Int) : Bool := if 0 < step then x < stop else stop < x

/-- The start and every `step`-th position from it on, as long as they come before the stop. -/
def slicePositions (dim : Nat) (start stop : Option Int) (step : Int) : List Int :=
  ((range dim).map fun k : Nat => sliceStart dim step start + (k : Int) * step).takeWhile
    fun x => before step x (sliceStop dim step stop)

theorem takeWhile_progression (p : Int → Bool) (start step : Int) {n count : Nat}
    (enough : count ≤ n) (lt : ∀ k < count, p (start + (k : Int) * step) = true)
    (outside : count < n → p (start + (count : Int) * step) = false) :
    ((range n).map fun k : Nat => start + (k : Int) * step).takeWhile p =
      (range count).map fun k : Nat => start + (k : Int) * step := by
  obtain ⟨m, rfl⟩ := Nat.exists_eq_add_of_le enough
  rw [range_add, map_append, takeWhile_append_of_pos]
  · cases m with
    | zero => simp
    | succ m => simp [range_succ_eq_map, outside (by omega)]
  · intro x mem
    obtain ⟨k, isIndex, rfl⟩ := mem_map.mp mem
    exact lt k (mem_range.mp isIndex)

/-- What is selected: the positions in each dimension, and the shape of the result. -/
structure Indexed where
  positions : List (List Int)
  shape : List Nat
  deriving DecidableEq

def allPositions (dim : Nat) : List Int := (range dim).map Int.ofNat

def Indexed.full (shape : List Nat) : Indexed := ⟨shape.map allPositions, shape⟩

namespace Indexed

/-- One more dimension, which stays in the shape of the result. -/
def slice (r : Indexed) (positions : List Int) : Indexed :=
  ⟨positions :: r.positions, positions.length :: r.shape⟩

/-- One more dimension, of which one element is selected. -/
def integer (r : Indexed) (position : Int) : Indexed := ⟨[position] :: r.positions, r.shape⟩

def newAxis (r : Indexed) : Indexed := ⟨r.positions, 1 :: r.shape⟩

/-- More dimensions, of which all elements are selected. -/
def prepend (r : Indexed) (shape : List Nat) : Indexed :=
  ⟨shape.map allPositions ++ r.positions, shape ++ r.shape⟩

end Indexed

/-- What the entries select of an array, if they are an index into it. -/
def indexed : List Entry → List Nat → Option Indexed
  | [], shape => some (.full shape)
  | .ellipsis :: rest, shape =>
    if .ellipsis ∈ rest then none
    else
      let n := shape.length - rest.countP Entry.takesDim
      (indexed rest (shape.drop n)).map fun r => r.prepend (shape.take n)
  | .newAxis :: rest, shape => (indexed rest shape).map Indexed.newAxis
  | .index i :: rest, dim :: shape =>
    if -dim ≤ i ∧ i < dim then
      (indexed rest shape).map fun r => r.integer (if i < 0 then i + dim else i)
    else none
  | .slice start stop step :: rest, dim :: shape =>
    if step = 0 then none
    else (indexed rest shape).map fun r => r.slice (slicePositions dim start stop step)
  | .index _ :: _, [] => none
  | .slice _ _ _ :: _, [] => none

theorem slicePositions_full (dim : Nat) : slicePositions dim none none 1 = allPositions dim := by
  have whole := takeWhile_progression (fun x => before 1 x dim) 0 1 (le_refl dim)
    (fun k inside => by simp [before, inside]) (fun less => absurd less (Nat.lt_irrefl dim))
  simp only [slicePositions, sliceStart, sliceStop, Int.zero_lt_one, if_true]
  rw [whole]
  simp [allPositions]

theorem indexed_replicate_full (xs : List Entry) {n : Nat} {shape : List Nat}
    (lt : n ≤ shape.length) : indexed (replicate n (.slice none none 1) ++ xs) shape =
      (indexed xs (shape.drop n)).map fun r => r.prepend (shape.take n) := by
  induction n generalizing shape with
  | zero => simp [Indexed.prepend]
  | succ n ih =>
    cases shape with
    | nil => simp at lt
    | cons dim shape =>
      rw [length_cons, Nat.succ_le_succ_iff] at lt
      rw [replicate_succ, cons_append, indexed, if_neg (by decide), ih lt,
        Option.map_map, slicePositions_full]
      congr 1
      funext r
      simp [Indexed.prepend, Indexed.slice, allPositions]

theorem indexed_append_ellipsis {xs : List Entry} (none_ : .ellipsis ∉ xs)
    (shape : List Nat) : indexed (xs ++ [.ellipsis]) shape = indexed xs shape := by
  induction xs generalizing shape with
  | nil => simp [indexed, Indexed.prepend, Indexed.full]
  | cons entry rest ih =>
    rw [mem_cons, not_or] at none_
    have inner := ih none_.2
    cases entry with
    | ellipsis => exact absurd rfl none_.1
    | newAxis => simp [indexed, inner]
    | index i =>
      cases shape with
      | nil => rfl
      | cons dim shape => simp [indexed, inner]
    | slice start stop step =>
      cases shape with
      | nil => rfl
      | cons dim shape => simp [indexed, inner]

/-- `x[::-2, ..., None, 1]` of an array of 5 x 2 x 3 elements. -/
example : indexed [.slice none none (-2), .ellipsis, .newAxis, .index 1] [5, 2, 3] =
    some ⟨[[4, 2, 0], [0, 1], [1]], [3, 2, 1]⟩ := by decide

end TfDml.Lib.BasicIndexing
