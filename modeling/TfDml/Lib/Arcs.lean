import Mathlib.Data.Nat.ModEq
import Mathlib.Data.List.Pairwise

/-! # Consecutive arcs of a circle

A counter that wraps around at `m` hands out arcs, each where the one before it
ends. As long as they do not go around the circle, no two of them meet.
-/

namespace TfDml.Lib

/-- The positions `start, …, start + length - 1` on a circle. -/
structure Arc where
  start : Nat
  length : Nat

def Arc.Apart (m : Nat) (x y : Arc) : Prop :=
  ∀ i j, i < x.length → j < y.length → (x.start + i) % m ≠ (y.start + j) % m

theorem Arc.Apart.symm {m : Nat} {x y : Arc} (apart : x.Apart m y) : y.Apart m x :=
  fun i j iIn jIn same => apart j i jIn iIn same.symm

/-- The arcs, the newest first, follow each other from `first` on; the position `next`, at
    which the newest ends, does not wrap around. -/
inductive Consecutive (m first : Nat) : List Arc → Nat → Prop where
  | nil : Consecutive m first [] first
  | cons {arcs : List Arc} {next : Nat} (start length : Nat) (earlier : Consecutive m first arcs next)
      (begins : start % m = next % m) :
      Consecutive m first (⟨start, length⟩ :: arcs) (next + length)

variable {m first next : Nat} {arcs : List Arc}

theorem Consecutive.next_eq (consecutive : Consecutive m first arcs next) :
    next = first + (arcs.map Arc.length).sum := by
  induction consecutive with
  | nil => rfl
  | cons start length earlier begins ih =>
    simp only [List.map_cons, List.sum_cons, ih]
    omega

theorem Consecutive.begins (consecutive : Consecutive m first arcs next) {arc : Arc}
    (mem : arc ∈ arcs) :
    ∃ position, arc.start % m = position % m ∧ first ≤ position ∧ position + arc.length ≤ next := by
  induction consecutive with
  | nil => cases mem
  | @cons arcs next start length earlier begins ih =>
    rcases List.mem_cons.mp mem with rfl | older
    · refine ⟨next, begins, ?_, le_refl _⟩
      rw [earlier.next_eq]
      exact Nat.le_add_right _ _
    · obtain ⟨position, same, low, high⟩ := ih older
      exact ⟨position, same, low, Nat.le_add_right_of_le high⟩

theorem mod_ne_of_lt {x y : Nat} (less : x < y) (close : y < x + m) : y % m ≠ x % m := by
  intro same
  have dvd := (Nat.modEq_iff_dvd' (Nat.le_of_lt less)).mp (Eq.symm same : x % m = y % m)
  have large := Nat.le_of_dvd (Nat.sub_pos_of_lt less) dvd
  omega

theorem Consecutive.pairwise_apart (consecutive : Consecutive m first arcs next)
    (total : next ≤ first + m) : arcs.Pairwise (Arc.Apart m) := by
  induction consecutive with
  | nil => exact .nil
  | @cons arcs next start length earlier begins ih =>
    refine List.pairwise_cons.mpr ⟨?_, ih (Nat.le_of_add_right_le total)⟩
    intro older mem i j iIn jIn same
    obtain ⟨position, wraps, low, high⟩ := earlier.begins mem
    rw [Nat.add_mod, begins, ← Nat.add_mod, Nat.add_mod older.start, wraps, ← Nat.add_mod] at same
    simp only at iIn
    exact mod_ne_of_lt (by omega) (by omega) same

end TfDml.Lib
